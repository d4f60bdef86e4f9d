import LayeredDispatch.Proofs.Nesting.Termination
import LayeredDispatch.Proofs.Results.Insertion

/-! Padding from the body of a batching layer. The loop looks at the shape of what a whole call through
the layers below has given, so that it ends only if that has a dimension more. Main statement: it ends
after as many calls as dimensions are missing, and what it gives has these behind its batch dimension
and is otherwise the value that it has started from; a value without a batch dimension is refused by
the first call.
-/

namespace LayeredDispatch

open Run Dispatcher

/-- `count` calls one after another, each of which inserts a dimension behind the outermost one into what
the call before it has given.
-/
def Calls.insertions (calls : Calls) : (count : Nat) → Tensor → Run Tensor
  | 0, tensor => return tensor
  | count + 1, tensor => do
      let inserted ← calls.callTensor "unsqueeze" [.tensor tensor, .int 1]
      calls.insertions count inserted

/-- The ambient state in which the rules of batching layers issue their calls: the body of the layer has
been entered, and its hook is hidden.
-/
def Ambient.inRule (ambient : Ambient) : Ambient :=
  (ambient.enter .batching).hide (.only .batched)

/-- A state in which the rule of the top layer of a stack, a batching layer, issues a call. Values may have
been made since the layer was entered, and calls that the rule has issued before may have left the
interceptors included.
-/
structure Machine.InRule (machine start : Machine) : Prop where
  ambient
    : start.ambient = machine.ambient.inRule ∨ start.ambient = machine.ambient.inRule.intercepting
  registry : start.registry = machine.registry
  flags : start.heap.flags = machine.heap.flags

/-- A state in which calls that insert dimensions are answered, and have room to nest as deep as they do.
-/
structure Machine.Pads (machine : Machine) (layers : List Layer) (budget : Nat) : Prop
    extends machine.Serves layers budget where
  room : 3 * machine.thread.layers.length + 2 ≤ budget

section

variable {machine start reached : Machine} {layer : Layer} {below layers : List Layer}
  {budget rank ones count size : Nat} {dims : List Nat} {before : Heap} {physical other : Tensor}

/-- Where a call has ended there is room for the next one: the layers are the same, and so is the
budget.
-/
theorem Machine.Pads.resumes (pads : machine.Pads layers budget) (resumes : machine.Resumes reached)
    : reached.Pads layers budget where
  toServes := pads.toServes.resumes resumes
  room := by
    rw [resumes.layers]
    exact pads.room

-----------------------------------------------------------------------------------------
-- One call
-----------------------------------------------------------------------------------------

/-- A call that inserts a dimension behind the outermost one is refused only if there is no
outermost one.
Three things that are known of such calls are put together: what an answered request is, at which
levels
the result is batched, and why insertion may be refused.
-/
theorem inserts_callTensor (pads : machine.Pads layers budget) (fits : physical.Fits machine.heap layers)
    : ((nested budget).callTensor "unsqueeze" [.tensor physical, .int 1]).Leaves machine
        (fun result _ memory =>
          (Request.unsqueeze physical 1).Answered layers machine.heap memory.heap result
          ∧ result.batchLevels = physical.batchLevels)
        (fun exit _ => physical.Misses machine.heap 1 exit) := by
  have answering : Calls.Answering (nested budget) budget := answering_dispatchWithin budget
  have answered := leaves_iff_meets.mpr (@Calls.Answering.callTensor machine layers budget
    (nested budget) (.unsqueeze physical 1) answering pads.toServes
    (List.forall_mem_singleton.mpr fits))
  have inserted
      : ((nested budget).callTensor "unsqueeze" [.tensor physical, .int 1]).Leaves machine
          (fun result _ _ => result.batchLevels = physical.batchLevels)
          (fun exit _ => physical.Misses machine.heap 1 exit) := by
    have known : (nested budget).schema? "unsqueeze" = some Base.schemas[5] :=
      (Request.unsqueeze physical 1).schema?_standard
    refine .callTensor (.call (fun _ miscounted => absurd rfl (miscounted _ known)) ?_)
    intro op found _
    obtain rfl : Base.schemas[5] = op := Option.some.inj (known.symm.trans found)
    let posed : Machine := { machine with values := [.tensor physical, .int 1] }
    have supplied
        : posed.Supplied budget Base.schemas[5] layers [] [.tensor physical, .int 1] :=
      (pads.withValues _).supplied (by decide) (by decide) rfl rfl
        (List.forall_mem_singleton.mpr fits)
    have calling := supplied.toCalling
    have inserts := Contract.inserts_holds budget calling rfl [] physical 1 supplied
    have finishes : ((nested budget).dispatch Base.schemas[5]).Finishes posed :=
      Contract.finishes_holds budget calling ((posed.depth_le _).trans pads.room)
    apply (inserts.and finishes).mono
    · rintro _ _ _ ⟨⟨result, rfl, same⟩, -⟩
      exact ⟨result, [], rfl, same⟩
    · rintro exit _ ⟨cut | misses, finished⟩
      · exact absurd cut finished
      · exact misses
  apply (answered.and inserted).mono
  · rintro _ _ _ ⟨⟨-, -, answered⟩, same⟩
    exact ⟨answered, same⟩
  · exact fun _ _ => And.right

/-- Behind a batch dimension there is always room for one more.
So the call cannot be refused, and its answer has one more dimension of size one than the value had.
-/
theorem Tensor.Padded.insertion (pads : machine.Pads layers budget)
    (padded : Tensor.Padded layers size dims before physical ones machine.heap other)
    : ∃ result reached,
        (nested budget).callTensor "unsqueeze" [.tensor other, .int 1] machine = .ok result reached
        ∧ machine.Resumes reached
        ∧ Tensor.Padded layers size dims before physical (ones + 1) reached.heap result
        ∧ result.batchLevels = other.batchLevels := by
  have leaves := inserts_callTensor pads padded.fits
  cases ended : (nested budget).callTensor "unsqueeze" [.tensor other, .int 1] machine with
  | ok result reached =>
      obtain ⟨resumes, answered, same⟩ := Ends.of_ok leaves ended
      exact ⟨result, reached, rfl, resumes, padded.insert answered, same⟩
  | error exit reached =>
      obtain ⟨-, -, misses⟩ := Ends.of_error leaves ended
      refine absurd ?_ misses.outside
      rw [padded.rank_eq]
      omega

/-- Without a batch dimension there is no place behind it.
An answer would have a dimension, and the value that it is the answer for has none to put it behind.
-/
theorem insertion_refused (pads : machine.Pads layers budget)
    (fits : physical.Fits machine.heap layers) (shape : physical.shape machine.heap = ⟨[]⟩)
    : ∃ reached,
        (nested budget).callTensor "unsqueeze" [.tensor physical, .int 1] machine
        = .error (.error (.invalidArgument "unsqueeze" 1 (.dimOutOfRange 1 0))) reached := by
  have leaves := inserts_callTensor pads fits
  cases ended : (nested budget).callTensor "unsqueeze" [.tensor physical, .int 1] machine with
  | ok result reached =>
      obtain ⟨-, answered, -⟩ := Ends.of_ok leaves ended
      have inserted := answered.shape
      rw [Request.map, shape] at inserted
      cases inserted
  | error exit reached =>
      obtain ⟨-, -, misses⟩ := Ends.of_error leaves ended
      have refused := misses.refused
      rw [shape] at refused
      exact ⟨reached, by rw [refused]; rfl⟩

-----------------------------------------------------------------------------------------
-- The loop
-----------------------------------------------------------------------------------------

/-- Where no dimension is missing the loop ends, whatever fuel is left. -/
theorem Batching.pad_full (calls : Calls) (fuel : Nat)
    (full : rank + 1 ≤ (other.shape machine.heap).rank)
    : pad calls rank fuel other machine = .ok other machine := by
  unfold pad
  rw [bind_apply, Run.shapeOf, read_apply]
  dsimp only
  rw [if_neg (Nat.not_lt_of_le full)]
  rfl

/-- Otherwise it makes a call before it looks at the shape once more. -/
theorem Batching.pad_short (calls : Calls) (fuel : Nat)
    (short : (other.shape machine.heap).rank < rank + 1)
    : pad calls rank (fuel + 1) other machine
      = (calls.callTensor "unsqueeze" [.tensor other, .int 1] >>= pad calls rank fuel) machine := by
  conv_lhs => unfold pad
  rw [bind_apply, Run.shapeOf, read_apply]
  dsimp only
  rw [if_pos short]

/-- The loop makes as many calls as dimensions are missing, by induction on these.
What an insertion gives is one dimension longer, and the state that it leaves has the room that it
had.
-/
theorem Tensor.Padded.pad (pads : machine.Pads layers budget)
    (padded : Tensor.Padded layers size dims before physical ones machine.heap other) {fuel : Nat}
    (missing : rank - (dims.length + ones) = count) (enough : count ≤ fuel)
    : ∃ result reached,
        Batching.pad (nested budget) rank fuel other machine = .ok result reached
        ∧ (nested budget).insertions count other machine = .ok result reached
        ∧ Tensor.Padded layers size dims before physical (ones + count) reached.heap result
        ∧ result.batchLevels = other.batchLevels := by
  induction count generalizing machine other ones fuel with
  | zero =>
      refine ⟨other, machine, Batching.pad_full _ _ ?_, rfl, padded, rfl⟩
      rw [padded.rank_eq]
      omega
  | succ count ih =>
      obtain ⟨fuel, rfl⟩ := Nat.exists_eq_add_of_le' (Nat.one_le_of_lt enough)
      obtain ⟨inserted, middle, called, resumes, longer, same⟩ := padded.insertion pads
      obtain ⟨result, reached, looped, repeated, full, same'⟩ :=
        ih (pads.resumes resumes) longer (by omega) (Nat.le_of_succ_le_succ enough)
      have short : (other.shape machine.heap).rank < rank + 1 := by
        rw [padded.rank_eq]
        omega
      refine ⟨result, reached, ?_, ?_, ?_, same'.trans same⟩
      · rw [Batching.pad_short _ _ short, bind_apply, called]
        exact looped
      · rw [Calls.insertions, bind_apply, called]
        exact repeated
      · rwa [Nat.add_right_comm] at full

/-- A value without a batch dimension is refused by the first call of the loop, before any other
one.
-/
theorem pad_refused (pads : machine.Pads layers budget) (fits : physical.Fits machine.heap layers)
    (shape : physical.shape machine.heap = ⟨[]⟩) (rank : Nat)
    : ∃ reached,
        Batching.padToRank (nested budget) physical rank machine
        = .error (.error (.invalidArgument "unsqueeze" 1 (.dimOutOfRange 1 0))) reached := by
  obtain ⟨reached, refused⟩ := insertion_refused pads fits shape
  have short : (physical.shape machine.heap).rank < rank + 1 := by
    rw [shape]
    exact Nat.succ_pos rank
  exact ⟨reached, by rw [Batching.padToRank, Batching.pad_short _ _ short, bind_apply, refused]⟩

-----------------------------------------------------------------------------------------
-- Padding in the body of a batching layer
-----------------------------------------------------------------------------------------

/-- The calls of a rule go to the layers below, wherever the heap has come to.
The ambient state is the one that the rule was entered with or the one with the interceptors
included;
in both the layers below are owners, and the registry and the flags are those of the built stack.
-/
theorem Machine.InRule.pads (inRule : machine.InRule start) (founded : machine.Founded)
    (layers : machine.thread.layers = layer :: below) (kind : layer.kind = .batching)
    (room : 3 * machine.thread.layers.length + 2 ≤ budget)
    : start.Pads below budget := by
  have same : start.thread.layers = machine.thread.layers := by
    rcases inRule.ambient with started | included
    · exact congrArg Ambient.layers started
    · exact congrArg Ambient.layers included
  have top : machine.ambient.inRule.layers = layer :: below := layers
  have owners : machine.ambient.inRule.Owners below :=
    .hide_batched layers (layers ▸ founded.grounded) kind
      (TransformKind.batching.entryOverlay_inBody _)
  refine ⟨⟨?_, ?_, ?_⟩, ?_⟩
  · rcases inRule.ambient with started | included
    · rwa [started]
    · rw [included]
      exact owners.intercepting (top ▸ List.cons_ne_nil layer below)
  · intro layer active
    rw [same] at active
    obtain ⟨flag, found, alive⟩ := founded.registered layer active
    exact ⟨flag, by rw [inRule.registry, found], by rw [Heap.isAlive_congr inRule.flags, alive]⟩
  · refine start.ambient.steps_le.trans ?_
    change 3 * start.thread.layers.length + 1 ≤ budget
    rw [same]
    omega
  · rwa [same]

/-- The padding loop pads exactly. Take a built stack with a batching layer on top, a state in which the
rule of that layer issues its calls, and a value that is well formed for the layers below. If there is a
batch dimension, then the loop does what as many calls do that insert a dimension behind it as the rank
of the rest falls short of the one asked for, none if it does not: it ends with a value that is well
formed for the layers below, has that many dimensions of size one behind the batch dimension, is batched
at the levels at which the value is, and has the same elements in the same order at all indices of the
batches of those. If there is none, then the loop ends as the first call does, which is refused.
-/
theorem Machine.Built.pads_exactly (built : machine.Built)
    (layers : machine.thread.layers = layer :: below) (kind : layer.kind = .batching)
    (inRule : machine.InRule start) (wellFormed : physical.WellFormed start.heap below)
    (room : 3 * machine.thread.layers.length + 2 ≤ budget) (rank : Nat)
    : (∀ size dims,
        physical.shape start.heap = ⟨size :: dims⟩
        → ∃ result reached,
            Batching.padToRank (nested budget) physical rank start = .ok result reached
            ∧ (nested budget).insertions (rank - dims.length) physical start = .ok result reached
            ∧ result.WellFormed reached.heap below
            ∧ result.shape reached.heap
              = ⟨size :: (List.replicate (rank - dims.length) 1 ++ dims)⟩
            ∧ result.batchLevels = physical.batchLevels
            ∧ ∀ index,
                Layer.InBatches below index
                → (result.member reached.heap index).data
                  = (physical.member start.heap index).data)
      ∧ (physical.shape start.heap = ⟨[]⟩
        → ∃ reached,
            Batching.padToRank (nested budget) physical rank start
            = .error (.error (.invalidArgument "unsqueeze" 1 (.dimOutOfRange 1 0))) reached) := by
  have founded := built.founded
  have pads := inRule.pads founded layers kind room
  have levelled : Layer.Levelled below := (layers ▸ founded.levelled : Layer.Levelled (layer :: below)).2
  have fits := (Tensor.wellFormed_iff_fits levelled).mp wellFormed
  refine ⟨fun size dims shape => ?_, fun shape => pad_refused pads fits shape rank⟩
  have enough : rank - dims.length ≤ rank + 2 := (Nat.sub_le _ _).trans (Nat.le_add_right _ _)
  obtain ⟨result, reached, looped, repeated, padded, same⟩ :=
    (fits.unpadded shape).pad pads rfl enough
  rw [Nat.zero_add] at padded
  exact ⟨result, reached, looped, repeated, (Tensor.wellFormed_iff_fits levelled).mpr padded.fits,
    padded.shape, same, padded.data⟩

/-- Witness: under three layers a batch of the top layer that the bottom layer has batched too, with a tag
around it, gets two dimensions; a tensor without dimensions is refused.
-/
theorem Machine.Built.pads_exactly_three_layers
    : ∃ (machine start reached refused : Machine) (layer : Layer) (below : List Layer)
        (physical result : Tensor),
        machine.Built
        ∧ machine.thread.layers = layer :: below
        ∧ layer.kind = .batching
        ∧ below.map Layer.kind = [.differentiation, .batching]
        ∧ machine.InRule start
        ∧ physical.WellFormed start.heap below
        ∧ physical.shape start.heap = ⟨[3]⟩
        ∧ Batching.padToRank (nested 11) physical 2 start = .ok result reached
        ∧ (nested 11).insertions 2 physical start = .ok result reached
        ∧ result.WellFormed reached.heap below
        ∧ result.shape reached.heap = ⟨[3, 1, 1]⟩
        ∧ result.batchLevels = [1]
        ∧ (∀ index,
          Layer.InBatches below index
          → (result.member reached.heap index).data = (physical.member start.heap index).data)
        ∧ Batching.padToRank (nested 11) (.dense 1) 2 start
          = .error (.error (.invalidArgument "unsqueeze" 1 (.dimOutOfRange 1 0))) refused := by
  let fresh : Machine :=
    { heap :=
        { storages := #[⟨⟨[2, 3]⟩, #[1, 2, 3, 4, 5, 6]⟩, ⟨⟨[]⟩, #[7]⟩]
          wrappers := #[{ shape := ⟨[3]⟩ }] } }
  let physical : Tensor := .tagged 0 2 1 (.batched 0 1 (.dense 0))
  let inBody (machine : Machine) : Machine :=
    { machine with
      thread :=
        { machine.thread with
          overlay := machine.ambient.inRule.overlay } }
  have opened := Machine.Built.opened
    (.opened
      (.opened (@Machine.Built.fresh fresh rfl rfl)
        (rfl : openLayer (.batching 2 .error) fresh = .ok 1 _))
      (rfl : openLayer (.differentiation (some false) none) _ = .ok 2 _))
    (rfl : openLayer (.batching 3 .error) _ = .ok 3 _)
  obtain ⟨machine, layer, below, built, layers, kind, kinds, wellFormed, shape, plain, bare⟩
      : ∃ (machine : Machine) (layer : Layer) (below : List Layer),
          machine.Built
          ∧ machine.thread.layers = layer :: below
          ∧ layer.kind = .batching
          ∧ below.map Layer.kind = [.differentiation, .batching]
          ∧ physical.WellFormed (inBody machine).heap below
          ∧ physical.shape (inBody machine).heap = ⟨[3]⟩
          ∧ Tensor.WellFormed (inBody machine).heap below (.dense 1)
          ∧ Tensor.shape (inBody machine).heap (.dense 1) = ⟨[]⟩ := by
    refine ⟨_, _, _, opened, rfl, rfl, rfl, ⟨by decide, ?_⟩, rfl, ⟨by decide, by decide, rfl⟩, rfl⟩
    refine ⟨⟨_, List.mem_cons_self, rfl, rfl⟩, rfl, by decide, rfl, ?_⟩
    exact ⟨⟨_, List.mem_cons_of_mem _ List.mem_cons_self, rfl, 2, rfl, rfl⟩, by decide, rfl⟩
  have inRule : machine.InRule (inBody machine) := ⟨.inl rfl, rfl, rfl⟩
  have room : 3 * machine.thread.layers.length + 2 ≤ 11 := by
    have count : below.length = 2 := by
      rw [← below.length_map Layer.kind, kinds]
      rfl
    rw [layers, List.length_cons, count]
  obtain ⟨result, reached, looped, repeated, made, longer, same, data⟩ :=
    (built.pads_exactly layers kind inRule wellFormed room 2).1 3 [] shape
  obtain ⟨refused, ended⟩ := (built.pads_exactly layers kind inRule plain room 2).2 bare
  exact ⟨machine, inBody machine, reached, refused, layer, below, physical, result, built, layers, kind,
    kinds, inRule, wellFormed, shape, looped, repeated, made, longer, same, data, ended⟩

end
end LayeredDispatch
