import LayeredDispatch.Proofs.Results.Closure
import LayeredDispatch.Proofs.Twins.Sums

/-! In-place addition leaves in its target what addition gives, under all stacks of layers, if the
target has as many dimensions as what is added to it. The rules of batching layers differ: in-place
addition pads only batches that are added, and only up to the target. Main statement: the two agree
exactly if the target has at least as many dimensions.
-/

namespace LayeredDispatch

open Run Dispatcher

section

variable {pairing : Pairing} {machine twin held held' start start' : Machine} {layer : Layer}
  {below owners : List Layer} {outer outer' arguments' : List Value}
  {target addend physical physical' added added' : Tensor} {budget cell other : Nat} {calls : Calls}

-----------------------------------------------------------------------------------------
-- At the base
-----------------------------------------------------------------------------------------

/-- What in-place addition has done to dense tensors where it gives a value: the sum of the storages
has been written to the first one, and its handle is on top.
-/
theorem addInPlace_ok {reached : Machine}
    (values : machine.values = outer ++ [.tensor (.dense cell), .tensor (.dense other)])
    (ended : Base.addInPlace.run calls Base.schemas[8] machine = .ok () reached)
    : ∃ updated,
        Storage.broadcastBinary "add_" (machine.heap.storage cell) (machine.heap.storage other)
            (· + ·)
          = .ok updated
        ∧ reached =
            { machine with
              values := outer ++ [.tensor (.dense cell)]
              heap := machine.heap.setStorage cell updated } := by
  obtain ⟨given, popped, started, ended⟩ := bind_ok ended
  rw [show pop 2 machine = _ from pop_append values] at started
  cases started
  obtain ⟨target, held, started, ended⟩ := bind_ok ended
  cases started
  obtain ⟨addend, held, started, ended⟩ := bind_ok ended
  rw [@Request.denseAt_apply [.tensor (.dense cell), .tensor (.dense other)] 1 other _ rfl] at started
  cases started
  obtain ⟨current, held, started, ended⟩ := bind_ok ended
  cases started
  obtain ⟨updated, held, started, ended⟩ := bind_ok ended
  obtain ⟨made, rfl⟩ := lift_ok started
  split at ended
  · cases ended
    exact ⟨updated, made, rfl⟩
  · cases ended

/-- The sum of dense tensors takes their places. What in-place addition writes to its target is what
the addition stores anew, from the same two storages.
-/
theorem accrues_kernel {machine twin : Machine}
    (values : machine.values = outer ++ [.tensor (.dense cell), .tensor (.dense other)])
    (values' : twin.values = outer' ++ [.tensor (.dense cell), .tensor (.dense other)])
    (storages : twin.heap.storages = machine.heap.storages)
    (present : cell < machine.heap.storages.size) (sized : (machine.heap.storage cell).Sized)
    (sized' : (machine.heap.storage other).Sized)
    : (Base.addInPlace.run calls Base.schemas[8]).Accrues
        ((Base.binary "Add" (· + ·)).run calls Base.schemas[0]) (.dense cell) outer outer' machine
        twin := by
  refine .of_lenient not_false fun _ reached ended => ?_
  obtain ⟨updated, made, rfl⟩ := addInPlace_ok values ended
  obtain ⟨shape, found, room, room', rfl⟩ := Storage.broadcastBinary_ok made
  have ran := (Request.binary .add cell other).kernel_run calls values'
  have storage (cell : Nat) : twin.heap.storage cell = machine.heap.storage cell := by
    rw [Heap.storage, Heap.storage, storages]
  have sum
      : ((Request.binary .add cell other).map twin.heap.storage).onDense
        = .ok (Storage.combined (· + ·) shape (machine.heap.storage cell)
            (machine.heap.storage other)) := by
    simp only [Request.map, Request.onDense, storage]
    exact Storage.broadcastBinary_eq sized sized' found room room'
  rw [sum] at ran
  refine ⟨(), _, ran, .of_eq rfl rfl rfl rfl rfl, .of_eq rfl rfl rfl rfl rfl,
    .dense cell, _, rfl, rfl, fun index => ?_⟩
  rw [Tensor.member, Machine.memory, Heap.storage_setStorage_same machine.heap cell _ present]
  exact (Heap.storage_newDense twin.heap _).symm

/-- Below all layers arguments that fit are dense, so that both runs come to their base kernels at
once, one with the tensors and the other one after dead tags have been taken off.
-/
theorem accrues_base
    (summing : pairing.Summing (budget + 1) [] machine twin outer outer' target addend arguments')
    (inactive : machine.thread.layers = [])
    : ((nested (budget + 1)).dispatch Base.schemas[8]).Accrues
        ((nested (budget + 1)).dispatch Base.schemas[0]) target outer outer' machine twin := by
  have posed := summing.posed
  rcases Machine.atBase_of_owners posed.calling.owning inactive with ⟨atBase, -⟩
  rcases Machine.atBase_of_owners posed.calling'.owning (posed.twins.layers.trans inactive)
    with ⟨atBase', -⟩
  obtain ⟨first, second, rfl, ofFirst, ofSecond⟩ := posed.matched.pair
  cases summing.ofTarget with
  | dense present sized =>
  cases summing.ofAddend with
  | dense present' sized' =>
  cases ofFirst
  cases ofSecond
  rename_i cell other
  have plain : ∀ tensor ∈ [Tensor.dense cell, .dense other], tensor.isDense = true :=
    List.forall_mem_cons.mpr ⟨rfl, List.forall_mem_singleton.mpr rfl⟩
  obtain ⟨kernel, found, ended⟩ :=
    dispatch_dense atBase posed.calling.member posed.values posed.size plain budget
  obtain ⟨kernel', found', ended'⟩ :=
    dispatch_dense atBase' posed.calling'.member posed.values' posed.size' plain budget
  cases found
  cases found'
  refine .congr ended ended' (.traced_left (.traced_right ?_))
  exact accrues_kernel posed.values posed.values' posed.twins.alike.storages present sized sized'

-----------------------------------------------------------------------------------------
-- In the bodies of batching layers
-----------------------------------------------------------------------------------------

/-- The shape of a batch has at most one dimension more than that of its entries. -/
theorem Shape.Entry.rank_le {batch rank : Nat} {whole entry : Shape}
    (h : Entry batch rank whole entry)
    : whole.rank ≤ rank + 1 := by
  cases h with
  | batched dims ones padded => simp [Shape.rank, ← padded, Nat.add_comm]
  | shared shape short => exact Nat.le_succ_of_le short

/-- What has enough dimensions is not padded. -/
theorem padToRank_apply {rank : Nat} (full : rank < (physical.shape machine.heap).rank)
    : Batching.padToRank calls physical rank machine = .ok physical machine := by
  unfold Batching.padToRank Batching.pad
  rw [bind_apply, shapeOf, read_apply]
  dsimp only
  rw [if_neg (Nat.not_lt_of_le full)]
  rfl

/-- What the rules hand on in the place of a batch that is added. Both runs pad it alike, and
afterwards it has at most as many dimensions as the physical target.
-/
theorem beside_align (leaving : pairing.Leaving True budget below held held')
    (registered : held.Registered) (levelled : Layer.Levelled (layer :: below)) {size rank : Nat}
    (batch : layer.transform.batchSize? = some size)
    (fits : addend.Fits held.heap (layer :: below))
    (short : (addend.shape held.heap).rank ≤ rank)
    (own : addend.physicalAt? layer.level = some added) (matched : pairing.Matched added added')
    : Beside False (Batching.padToRank (nested budget) added rank)
        (Batching.padToRank (nested budget) added' rank) held held'
        (fun other values memory other' values' memory' =>
          pairing.Gives held held' pairing.Matched other values memory other' values' memory'
          ∧ held.heap.Grows memory.heap
          ∧ other.Fits memory.heap below
          ∧ (other.shape memory.heap).rank ≤ rank + 1)
        (fun _ _ => True) := by
  have serves : held.Serves below budget := {
    owners := (@leaving.calling Base.schemas[0] (by decide) (by decide)).owning
    registered := registered
    steps := Nat.le_trans held.ambient.steps_le_reach leaving.steps }
  have aligns := meets_align (answering_dispatchWithin budget) serves levelled batch fits short
  rw [own] at aligns
  have beside :=
    beside_padToRank (pairing.holds True budget) leaving matched
      (fun exit exit' _ => (trivial : (fun _ _ => True) exit exit')) rank
  refine (beside.lenient.and_left (leaves_iff_meets.mpr aligns)).mono ?_ fun _ _ => id
  intro other values memory other' values' memory' left
  rcases left with ⟨gives, -, grows, aligned⟩
  exact ⟨gives, grows, aligned.fits, aligned.shape.rank_le⟩

/-- The rules hand related values on, which fit the layers below and of which the target has at
least as many dimensions as the addend.
-/
theorem Pairing.Leaving.summing {values values' : List Value}
    (leaving : pairing.Leaving True budget below held held') (registered : held.Registered)
    (ofTarget : target.Fits held.heap below) (ofAddend : addend.Fits held.heap below)
    (short : (addend.shape held.heap).rank ≤ (target.shape held.heap).rank)
    (matched : pairing.Matched target physical') (matched' : pairing.Matched addend added')
    (split : values = outer ++ [.tensor target, .tensor addend])
    (split' : values' = outer' ++ [.tensor physical', .tensor added'])
    : pairing.Summing budget below { held with values := values } { held' with values := values' }
        outer outer' target addend [.tensor physical', .tensor added'] where
  posed :=
    leaving.posed (by decide) (by decide) (by decide) (by decide) split split' rfl rfl
      (.cons (.tensor matched) (.cons (.tensor matched') .nil))
  registered := registered
  ofTarget := ofTarget
  ofAddend := ofAddend
  short := short

/-- The batches of the first run hold the sum, and the other one makes a batch of it. The rule of
the first run puts its target back in the place of what the call below has given.
-/
theorem accrues_putBack (accrue : pairing.Accrue budget)
    (leaving : pairing.Leaving True budget below held held') (registered : held.Registered)
    (ofPhysical : physical.Fits held.heap below) (ofAdded : added.Fits held.heap below)
    (short : (added.shape held.heap).rank ≤ (physical.shape held.heap).rank)
    (matched : pairing.Matched physical physical') (matched' : pairing.Matched added added')
    (own : target.physicalAt? layer.level = some physical)
    (values : held.values = outer) (values' : held'.values = outer')
    : Run.Accrues
        (do
          pushAll [.tensor physical, .tensor added]
          (nested budget).dispatch Base.schemas[8]
          Batching.replaceLast (.tensor target))
        (do
          pushAll [.tensor physical', .tensor added']
          (nested budget).dispatch Base.schemas[0]
          Batching.wrapResults 1 layer.level)
        target outer outer' held held' := by
  have called :=
    accrue (leaving.summing registered ofPhysical ofAdded short matched matched'
      (congrArg (· ++ [Value.tensor physical, .tensor added]) values)
      (congrArg (· ++ [Value.tensor physical', .tensor added']) values'))
  refine .pushAll (Beside.bind called ?_)
  intro _ reached _ reached' _ _ _ _ left
  rcases left with ⟨result, sum, values, values', holds⟩
  refine .of_values (replaceLast_apply values _) (wrapResults_apply values' layer.level)
    (.put reached _) (.of_eq rfl rfl rfl rfl rfl) ⟨target, _, rfl, rfl, fun index => ?_⟩
  obtain ⟨handle, rfl⟩ := Tensor.physicalAt?_eq_some own
  have same
      : (reached'.heap.newBatched sum layer.level).2.storages = reached'.memory.heap.storages :=
    rfl
  exact congrArg (Storage.slice · (index layer.level))
    ((holds index).trans (Tensor.member_congr same index sum).symm)

/-- The same where the addend is a batch, which both rules pad. -/
theorem accrues_padded (accrue : pairing.Accrue budget)
    (leaving : pairing.Leaving True budget below held held') (registered : held.Registered)
    (levelled : Layer.Levelled (layer :: below)) {size rank : Nat}
    (batch : layer.transform.batchSize? = some size) (ofPhysical : physical.Fits held.heap below)
    (ofAddend : addend.Fits held.heap (layer :: below))
    (full : (physical.shape held.heap).rank = rank + 1)
    (short : (addend.shape held.heap).rank ≤ rank) (matched : pairing.Matched physical physical')
    (matched' : pairing.Matched added added')
    (own : target.physicalAt? layer.level = some physical)
    (own' : addend.physicalAt? layer.level = some added)
    (values : held.values = outer) (values' : held'.values = outer')
    : Run.Accrues
        (do
          let padded ← Batching.padToRank (nested budget) added rank
          pushAll [.tensor physical, .tensor padded]
          (nested budget).dispatch Base.schemas[8]
          Batching.replaceLast (.tensor target))
        (do
          let padded ← Batching.padToRank (nested budget) added' rank
          pushAll [.tensor physical', .tensor padded]
          (nested budget).dispatch Base.schemas[0]
          Batching.wrapResults 1 layer.level)
        target outer outer' held held' := by
  have aligned := beside_align leaving registered levelled batch ofAddend short own' matched'
  refine Beside.bind aligned ?_
  intro padded reached padded' reached' _ _ returns returns' left
  rcases left with ⟨⟨same, same', agrees, matched'⟩, grows, fits, most⟩
  have stands : physical.StandsFor below held.heap reached.heap physical :=
    ofPhysical.grows grows
  refine accrues_putBack accrue (leaving.returns returns returns' agrees)
    (registered.resumes returns.toResumes) stands.fits fits ?_ matched matched' own
    (same.trans values) (same'.trans values')
  rw [stands.shape, full]
  exact most

/-- The rules of a batching layer give the base operators the same values. A target that is not
batched is handed on, with an addend that is not batched either. A batched target is padded in
neither run, because it has at least as many dimensions as the addend; this is where that assumption
is needed.
-/
theorem accrues_rule (accrue : pairing.Accrue budget)
    (summing
      : pairing.Summing (budget + 1) (layer :: below) machine twin outer outer' target addend
          arguments')
    (within : machine.InBody layer below) (kind : layer.kind = .batching)
    (shown : machine.thread.overlay.excluded.contains .batched = false)
    : (Batching.addInPlace.run (nested budget) Base.schemas[8]).Accrues
        (Batching.pointwise.run (nested budget) Base.schemas[0]) target outer outer' machine
        twin := by
  have posed := summing.posed
  have within' := within.other posed.calling' posed.twins
  have faces := posed.faced within.inBody.entry within.top.symm
  obtain ⟨target', addend', rfl, targets, addends⟩ := faces.pair
  have ranked
      : Batching.logicalRank twin.heap [.tensor target', .tensor addend']
        = (target.shape machine.heap).rank := by
    rw [logicalRank_eq faces posed.twins.alike]
    exact ((Request.binary .add target addend).logicalRank_arguments machine.heap).trans
      (Nat.max_eq_left summing.short)
  obtain ⟨size, batch⟩ := Layer.exists_batchSize? kind
  refine .step (currentLayer_apply within.top) (currentLayer_apply within'.top) ?_
  refine .pop posed.values posed.values' rfl rfl ?_
  refine .step_left (.refl _) rfl (.step_left (.refl _) rfl ?_)
  refine .step_right (.refl _) (read_apply _ _) ?_
  refine .holding_left (moves_hide _ _) fun held atHeld => ?_
  refine .holding_right (moves_hide _ _) fun held' atHeld' => ?_
  have leaving := posed.leaving within kind shown atHeld atHeld'
  have heap : held.heap = machine.heap := atHeld.heap
  have registered : Machine.Registered { machine with values := outer } := summing.registered
  replace registered : held.Registered := registered.shifted atHeld fun _ => id
  have ofTarget : target.Fits held.heap (layer :: below) := heap ▸ summing.ofTarget
  have ofAddend : addend.Fits held.heap (layer :: below) := heap ▸ summing.ofAddend
  have short : (addend.shape held.heap).rank ≤ (target.shape held.heap).rank :=
    heap ▸ summing.short
  rw [← heap] at ranked
  have argument (tensor : Tensor)
      : Batching.physicalArgument? layer.level (.tensor tensor) = tensor.physicalAt? layer.level :=
    rfl
  simp only [ranked, List.mapM_cons, List.mapM_nil, List.any_cons, List.any_nil, argument]
  have first := targets.physicalAt? layer.level
  have second := addends.physicalAt? layer.level
  generalize ownTarget : target.physicalAt? layer.level = given at first ⊢
  generalize target'.physicalAt? layer.level = given' at first ⊢
  generalize ownAddend : addend.physicalAt? layer.level = added at second ⊢
  generalize addend'.physicalAt? layer.level = added' at second ⊢
  cases first with
  | none =>
      cases second with
      | some => exact .of_lenient not_false nofun
      | none =>
          simp only [pure_bind, Option.isSome_none, Bool.or_self, Bool.false_eq_true, if_false,
            bind_pure_unit]
          exact .pushAll (accrue (leaving.summing registered (ofTarget.of_shared kind ownTarget)
            (ofAddend.of_shared kind ownAddend) short targets.toMatched addends.toMatched
            (congrArg (· ++ _) atHeld.values) (congrArg (· ++ _) atHeld'.values)))
  | @some physical physical' matched =>
      obtain ⟨ofPhysical, dims, shape, inner, -⟩ :=
        ofTarget.physicalAt? within.grounded.levelled batch ownTarget
      have rank : (physical.shape held.heap).rank = (target.shape held.heap).rank + 1 := by
        rw [shape, inner]
        rfl
      have full : (target.shape held.heap).rank < (physical'.shape held'.heap).rank := by
        rw [matched.shape_eq leaving.twins.alike, rank]
        exact Nat.lt_succ_self _
      refine .step_left (.refl _) rfl ?_
      -- The target has the greatest rank, so in the other run padding leaves it as it is.
      simp only [bind_assoc]
      refine .step_right (.refl _) (padToRank_apply full) ?_
      cases second with
      | none =>
          simp only [pure_bind, Option.isSome_some, Bool.true_or, if_true]
          refine accrues_putBack accrue leaving registered ofPhysical
            (ofAddend.of_shared kind ownAddend) ?_ matched addends.toMatched ownTarget atHeld.values
            atHeld'.values
          rw [rank]
          exact Nat.le_succ_of_le short
      | some batched =>
          simp only [bind_assoc, pure_bind, Option.isSome_some, Bool.true_or, if_true]
          exact accrues_padded accrue leaving registered within.grounded.levelled batch ofPhysical
            ofAddend rank short matched batched ownTarget ownAddend atHeld.values atHeld'.values

-----------------------------------------------------------------------------------------
-- All calls
-----------------------------------------------------------------------------------------

/-- In-place additions leave in their targets what additions give, however deep they nest. The
induction is on the depth, with one case for each kernel that both runs can come to.
-/
theorem Pairing.accrue (pairing : Pairing) (budget : Nat)
    : pairing.Accrue budget := by
  induction budget with
  | zero =>
      intro owners machine twin outer outer' arguments' target addend summing
      exact absurd (Nat.le_trans machine.ambient.two_le_reach summing.posed.steps) (by decide)
  | succ budget accrue =>
      intro owners machine twin outer outer' arguments' target addend summing
      by_cases inactive : machine.thread.layers = []
      · obtain ⟨-, rfl⟩ := Machine.atBase_of_owners summing.posed.calling.owning inactive
        exact accrues_base summing inactive
      refine Run.Beside.dispatch summing.posed inactive (by decide) ?_
      intro capability kernel kernel' posed handles
      have summing
          : pairing.Summing (budget + 1) owners
              (machine.inSpan Base.schemas[8].name capability)
              (twin.inSpan Base.schemas[0].name capability) outer outer' target addend arguments' :=
        ⟨posed, summing.registered, summing.ofTarget, summing.ofAddend, summing.short⟩
      cases handles with
      | enter above front => exact accrues_enter accrue summing above front
      | differentiate within kind shown =>
          exact accrues_differentiate accrue summing within kind shown
      | leaveDifferentiation within kind =>
          exact accrues_leaveDifferentiation accrue summing within kind
      | random _ _ _ _ named => exact absurd named (by decide)
      | rule within kind shown => exact accrues_rule accrue summing within kind shown
      | leaveBatching within kind unbatched =>
          exact accrues_leaveBatching accrue summing within kind unbatched

/-- In `reached`, which an in-place addition has ended in, its target holds what an addition in
`machine` gives, and the shapes are as they were.
-/
def Machine.SumsAlike (machine reached : Machine) (target addend : Tensor) : Prop :=
  ∃ sum summed,
    standard.call "add" [.tensor target, .tensor addend] machine = .ok [.tensor sum] summed
    ∧ sum.shape summed.heap = target.shape machine.heap
    ∧ ∀ index, Layer.InBatches machine.thread.layers index →
        target.member reached.heap index = sum.member summed.heap index

/-- Under a built stack an in-place addition by name, beside an addition of the same arguments in
the same state, leaves in its target what the addition gives.
-/
theorem beside_sums (built : machine.Built)
    (ofTarget : target.Fits machine.heap machine.thread.layers)
    (ofAddend : addend.Fits machine.heap machine.thread.layers)
    (short : (addend.shape machine.heap).rank ≤ (target.shape machine.heap).rank)
    : Beside False (standard.call "add_" [.tensor target, .tensor addend])
        (standard.call "add" [.tensor target, .tensor addend]) machine machine
        (fun results _ memory results' _ memory' => target.Sums [] [] results memory results' memory')
        (fun _ _ => True) := by
  let pairing := Pairing.identity machine.heap
  have calling {op : Schema} (member : op ∈ Base.schemas) (values : List Value)
      : Machine.Calling { machine with values } op machine.thread.layers :=
    .of_layers member built.founded.owners rfl
  have shown : machine.thread.overlay.excluded.contains .entryInterceptor = false := by
    rw [built.founded.overlay]
    cases machine.thread.layers.isEmpty <;> rfl
  have matched (tensor : Tensor) : pairing.Matched tensor tensor :=
    Pairing.matched_identity machine.heap tensor
  refine .step rfl rfl (.call_registered rfl rfl rfl rfl ?_)
  refine pairing.accrue _ ⟨{
    calling := calling (by decide) _
    calling' := calling (by decide) _
    twins := ⟨rfl, rfl, rfl, Pairing.alike_identity machine.heap, rfl⟩
    values := (List.nil_append _).symm
    values' := (List.nil_append _).symm
    size := rfl
    size' := rfl
    matched := .cons (.tensor (matched target)) (.cons (.tensor (matched addend)) .nil)
    faced := fun hidden => absurd (hidden.symm.trans shown) Bool.noConfusion
    steps := machine.ambient.reach_le_budget standard
    unchecked := fun _ => trivial
    based := fun _ => Or.inl trivial }, built.founded.registered, ofTarget, ofAddend, short⟩

/-- What is broadcast to a shape has at most as many dimensions. -/
theorem Shape.rank_le_of_broadcast? {left right joined : Shape}
    (found : left.broadcast? right = some joined)
    : right.rank ≤ joined.rank := by
  obtain ⟨sizes, joins, rfl⟩ := Option.map_eq_some_iff.mp found
  obtain ⟨-, length⟩ := joinDims?_eq_some joins
  rw [List.length_reverse, List.length_reverse] at length
  rw [Shape.rank, Shape.rank, List.length_reverse, length]
  exact Nat.le_max_right _ _

/-- Additions answer their requests: an addition gives the sum of the families, or is refused where
the shapes clash.
-/
theorem meets_sum (built : machine.Built)
    (ofTarget : target.WellFormed machine.heap machine.thread.layers)
    (ofAddend : addend.WellFormed machine.heap machine.thread.layers)
    : (standard.call "add" [.tensor target, .tensor addend]).Meets machine
        (fun results _ heap =>
          ∃ sum,
            results = [.tensor sum]
            ∧ (Request.binary .add target addend).Answered machine.thread.layers machine.heap heap
                sum)
        ((Request.binary .add target addend).Refused machine.heap) :=
  @meets_call machine (.binary .add target addend) built
    (List.forall_mem_cons.mpr ⟨ofTarget, List.forall_mem_singleton.mpr ofAddend⟩)

/-- A target that holds a sum has as many dimensions as the sum, and so at least as many as the
addend.
-/
theorem Machine.SumsAlike.rank_le {reached : Machine} (h : machine.SumsAlike reached target addend)
    (built : machine.Built) (ofTarget : target.WellFormed machine.heap machine.thread.layers)
    (ofAddend : addend.WellFormed machine.heap machine.thread.layers)
    : (addend.shape machine.heap).rank ≤ (target.shape machine.heap).rank := by
  rcases h with ⟨sum, summed, added, shape, -⟩
  obtain ⟨-, result, same, answered⟩ := Ends.of_ok (meets_sum built ofTarget ofAddend) added
  cases same
  have joined := answered.shape
  rw [shape] at joined
  exact Shape.rank_le_of_broadcast? joined

/-- Where an in-place addition gives a value, its target holds what an addition would have given
exactly if the addend has no more dimensions than the target. An addend with more of them is added
across a batch, whose size is taken for one of its dimensions.
-/
theorem Dispatcher.sumsAlike_iff {results : List Value} {reached : Machine}
    (built : machine.Built) (ofTarget : target.WellFormed machine.heap machine.thread.layers)
    (ofAddend : addend.WellFormed machine.heap machine.thread.layers)
    (ended
      : standard.call "add_" [.tensor target, .tensor addend] machine = .ok results reached)
    : machine.SumsAlike reached target addend
      ↔ (addend.shape machine.heap).rank ≤ (target.shape machine.heap).rank := by
  refine ⟨fun alike => alike.rank_le built ofTarget ofAddend, fun short => ?_⟩
  have levelled := built.founded.levelled
  have fits := (Tensor.wellFormed_iff_fits levelled).mp ofTarget
  have fits' := (Tensor.wellFormed_iff_fits levelled).mp ofAddend
  obtain ⟨results', summed, added, -, -, result, sum, -, rfl, holds⟩ :=
    (beside_sums built fits fits' short).of_ok ended
  refine ⟨sum, summed, added, ?_, fun index _ => holds index⟩
  obtain ⟨-, result, same, answered⟩ := Ends.of_ok (meets_sum built ofTarget ofAddend) added
  cases same
  have suits
      : ∀ tensor ∈ Value.tensorsAll [.tensor target, .tensor addend],
          tensor.Suits machine.heap machine.thread.layers :=
    List.forall_mem_cons.mpr ⟨ofTarget.suits, List.forall_mem_singleton.mpr ofAddend.suits⟩
  have steady : machine.heap.Steady reached.heap :=
    (Ends.of_ok (call_steady built (by decide) suits) ended).2
  obtain ⟨fits, kept⟩ := fits.steady steady
  calc sum.shape summed.heap
      = (sum.member summed.heap fun _ => 0).shape := (answered.fits.shape_member _).symm
    _ = (target.member reached.heap fun _ => 0).shape := congrArg Storage.shape (holds _).symm
    _ = target.shape reached.heap := fits.shape_member _
    _ = target.shape machine.heap := kept

/-- Witness: a plain value is added in place to a batch of tagged ones, under two layers. -/
theorem Dispatcher.sumsAlike_two_layers
    : ∃ (machine reached : Machine) (results : List Value) (target addend : Tensor),
        machine.Built
        ∧ target.WellFormed machine.heap machine.thread.layers
        ∧ addend.WellFormed machine.heap machine.thread.layers
        ∧ standard.call "add_" [.tensor target, .tensor addend] machine = .ok results reached
        ∧ machine.SumsAlike reached target addend := by
  let fresh : Machine :=
    { heap :=
        { storages := #[⟨⟨[2, 3]⟩, #[1, 2, 3, 4, 5, 6]⟩, ⟨⟨[3]⟩, #[10, 20, 30]⟩]
          wrappers := #[{ shape := ⟨[2, 3]⟩ }] } }
  let target : Tensor := .batched 0 2 (.tagged 0 1 0 (.dense 0))
  let addend : Tensor := .dense 1
  have opened := Machine.Built.opened
    (.opened (@Machine.Built.fresh fresh rfl rfl)
      (rfl : openLayer (.differentiation (some false) none) fresh = .ok 1 _))
    (rfl : openLayer (.batching 2 .error) _ = .ok 2 _)
  obtain ⟨machine, built, ofTarget, ofAddend, short, succeeds⟩
      : ∃ machine : Machine,
          machine.Built
          ∧ target.WellFormed machine.heap machine.thread.layers
          ∧ addend.WellFormed machine.heap machine.thread.layers
          ∧ (addend.shape machine.heap).rank ≤ (target.shape machine.heap).rank
          ∧ (standard.call "add_" [.tensor target, .tensor addend]).succeeds machine = true := by
    refine ⟨_, opened, ⟨by decide, ⟨_, List.mem_cons_self, rfl, 2, rfl, rfl⟩, ?_⟩,
      ⟨by decide, by decide, rfl⟩, by decide, by decide +kernel⟩
    exact ⟨⟨_, List.mem_cons_of_mem _ List.mem_cons_self, rfl, rfl⟩, rfl, by decide, rfl,
      by decide, rfl⟩
  obtain ⟨results, reached, ended⟩ := succeeds_iff.mp succeeds
  exact ⟨machine, reached, results, target, addend, built, ofTarget, ofAddend, ended,
    (sumsAlike_iff built ofTarget ofAddend ended).mpr short⟩

/-- A plain value whose outermost dimension is as large as a batch of rows is added across it: each of
its rows goes to another row, where addition adds all of its rows to each of them.
-/
theorem Dispatcher.not_sumsAlike_across_batch
    : ∃ (machine reached : Machine) (results : List Value),
        machine.Built
        ∧ Tensor.WellFormed machine.heap machine.thread.layers (.batched 0 1 (.dense 0))
        ∧ Tensor.WellFormed machine.heap machine.thread.layers (.dense 1)
        ∧ standard.call "add_" [.tensor (.batched 0 1 (.dense 0)), .tensor (.dense 1)] machine
          = .ok results reached
        ∧ ¬machine.SumsAlike reached (.batched 0 1 (.dense 0)) (.dense 1) := by
  let fresh : Machine :=
    { heap :=
        { storages :=
            #[⟨⟨[2, 3]⟩, #[1, 2, 3, 4, 5, 6]⟩, ⟨⟨[2, 3]⟩, #[10, 20, 30, 40, 50, 60]⟩] } }
  have opened := Machine.Built.opened (@Machine.Built.fresh fresh rfl rfl)
    (rfl : openLayer (.batching 2 .error) fresh = .ok 1 _)
  obtain ⟨machine, built, ofTarget, ofAddend, long, succeeds⟩
      : ∃ machine : Machine,
          machine.Built
          ∧ Tensor.WellFormed machine.heap machine.thread.layers (.batched 0 1 (.dense 0))
          ∧ Tensor.WellFormed machine.heap machine.thread.layers (.dense 1)
          ∧ (Tensor.shape machine.heap (.batched 0 1 (.dense 0))).rank
            < (Tensor.shape machine.heap (.dense 1)).rank
          ∧ (standard.call "add_"
              [.tensor (.batched 0 1 (.dense 0)), .tensor (.dense 1)]).succeeds machine = true := by
    refine ⟨_, opened, ⟨by decide, ⟨_, List.mem_cons_self, rfl, 2, rfl, rfl⟩, by decide, rfl⟩,
      ⟨by decide, by decide, rfl⟩, by decide, by decide +kernel⟩
  obtain ⟨results, reached, ended⟩ := succeeds_iff.mp succeeds
  refine ⟨machine, reached, results, built, ofTarget, ofAddend, ended, fun alike => ?_⟩
  exact Nat.not_le_of_lt long (alike.rank_le built ofTarget ofAddend)

end

end LayeredDispatch
