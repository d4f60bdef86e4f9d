import LayeredDispatch.Proofs.Records.Rules
import LayeredDispatch.Proofs.Results.Reshaping

/-! The records of calls that write to their first argument. Such a call gives back what it was given,
in new tags: each differentiation layer puts its own around what comes from below, and its body records
the operator there. A batching layer at which the first argument is batched does otherwise. It gives
back the handle that was passed in, and drops the tags that the layers below it have put on, with what
they remember.

Main statement: the result is the first argument from its outermost batch on, with the records that were
there, in new tags of the differentiation layers above that batch, which remember the operator where it
is recorded.
-/

namespace LayeredDispatch

open Run Dispatcher

/-- What is below the tags outside the outermost batch of a tensor. -/
def Tensor.core : Tensor → Tensor
  | .tagged _ _ _ value => value.core
  | .dense cell => .dense cell
  | .batched handle level value => .batched handle level value

/-- The highest level at which a tensor is batched, zero if there is none. -/
def Tensor.batchLevel : Tensor → Level
  | .tagged _ _ _ value => value.batchLevel
  | .dense _ => 0
  | .batched _ level _ => level

/-- A tensor that is `core` in tags which were made one after another, all of them before the cell
`bound`. What they remember is listed outermost first.
-/
inductive Tensor.Retagged (core : Tensor) (heap : Heap)
    : List (Level × Option String) → Tensor → (bound : Nat) → Prop where
  | bare {bound : Nat} : Retagged core heap [] core bound
  | tagged {cell flag bound : Nat} {level : Level} {records : List (Level × Option String)}
    {value : Tensor} (made : cell < bound) (inner : Retagged core heap records value cell)
    : Retagged core heap ((level, (heap.wrapper cell).gradFn) :: records)
        (.tagged cell level flag value) bound

/-- The tags that the layers which a call has to come by put around a target. -/
def Machine.newTags (machine : Machine) (name : String) (owners : List Layer)
    (arguments : List Value) (target : Tensor)
    : List (Level × Option String) :=
  (owners.filter fun layer => layer.kind = .differentiation ∧ target.batchLevel < layer.level).map
    fun layer => (layer.level, machine.producer? name arguments layer)

/-- Calls that write to their first argument give it back in new tags. -/
def Contract.retags : Contract :=
  fun budget owners op machine body =>
    ∀ outer arguments,
      op.isInPlace = true
      → machine.Supplied budget op owners outer arguments
      → body.Leaves machine
          (fun _ values memory =>
            ∃ target result,
              arguments.head? = some (.tensor target)
              ∧ values = outer ++ [.tensor result]
              ∧ Tensor.Retagged target.core memory.heap
                  (machine.newTags op.name owners arguments target) result
                  memory.heap.wrappers.size)
          (fun _ _ => True)

section

variable {machine held reached : Machine} {op : Schema} {owners below layers : List Layer} {layer : Layer}
  {arguments inner outer results : List Value} {target tensor value result core : Tensor}
  {records : List (Level × Option String)} {name : String} {budget cell flag bound : Nat}
  {level : Level} {heap other : Heap}

-----------------------------------------------------------------------------------------
-- Tags that are put on and taken off
-----------------------------------------------------------------------------------------

theorem Tensor.batchLevel_core (tensor : Tensor) : tensor.core.batchLevel = tensor.batchLevel := by
  induction tensor with
  | dense cell => rfl
  | tagged cell level flag value ih => exact ih
  | batched handle level value ih => rfl

theorem Tensor.batchLevel_congr (same : value.core = target.core)
    : value.batchLevel = target.batchLevel := by
  rw [← value.batchLevel_core, same, target.batchLevel_core]

theorem Tensor.Untagged.core_eq (h : target.Untagged level value) : value.core = target.core := by
  rcases h with rfl | ⟨cell, flag, rfl⟩
  · rfl
  · rfl

theorem Layer.Receives.core_eq (h : layer.Receives target value) : value.core = target.core := by
  cases h with
  | same tagged => rfl
  | tagged kind cell flag => rfl

theorem Layer.Receives.taggedLevel?_eq (h : layer.Receives target value)
    (kind : layer.kind = .differentiation)
    : value.taggedLevel? = some layer.level := by
  cases h with
  | same tagged => exact tagged kind
  | tagged kind cell flag => rfl

/-- A tag that suits the layers is alive, and has the hook. -/
theorem Tensor.Fits.carries (fits : tensor.Fits heap layers)
    (tagged : tensor.taggedLevel? = some level)
    : (tensor.capabilities heap).contains .differentiation = true := by
  rw [← fits.unwrapDead] at tagged ⊢
  exact Tensor.carries_of_taggedLevel? tagged

/-- A tensor that fits the layers is batched at one of their levels, which are numbered from one.
-/
theorem Tensor.Fits.batchLevel_le (fits : tensor.Fits heap layers)
    (levelled : Layer.Levelled layers)
    : tensor.batchLevel ≤ layers.length := by
  induction fits with
  | dense present sized => exact Nat.le_refl _
  | alone fits ih => exact Nat.le_succ_of_le (ih levelled.2)
  | tagged kind alive present accurate fits ih => exact Nat.le_succ_of_le (ih levelled.2)
  | batched batch outermost fits ih => exact Nat.le_of_eq levelled.1

/-- Nothing is batched at the level of a differentiation layer, so that a tensor which fits is
batched below it, if at all.
-/
theorem Tensor.Fits.batchLevel_lt (fits : tensor.Fits heap (layer :: below))
    (levelled : Layer.Levelled (layer :: below)) (kind : layer.kind = .differentiation)
    : tensor.batchLevel < layer.level := by
  rw [levelled.1]
  cases fits with
  | alone fits => exact Nat.lt_succ_of_le (fits.batchLevel_le levelled.2)
  | tagged _ alive present accurate fits => exact Nat.lt_succ_of_le (fits.batchLevel_le levelled.2)
  | batched batch outermost fits =>
      rw [Layer.kind_of_batchSize? batch] at kind
      cases kind

-----------------------------------------------------------------------------------------
-- What new tags remember
-----------------------------------------------------------------------------------------

namespace Tensor.Retagged

/-- What tags remember is decided by their own cells, all of which have been made before the bound.
-/
theorem congr (h : Retagged core heap records tensor bound)
    (same : ∀ cell < bound, (other.wrapper cell).gradFn = (heap.wrapper cell).gradFn)
    : Retagged core other records tensor bound := by
  induction h with
  | bare => exact .bare
  | tagged made inner ih =>
      rw [← same _ made]
      exact .tagged made (ih fun cell less => same cell (Nat.lt_trans less made))

/-- A tensor in new tags has the core that it was made of. -/
theorem core_eq (h : Retagged target.core heap records tensor bound) : tensor.core = target.core := by
  induction h with
  | bare =>
      induction target with
      | dense cell => rfl
      | tagged cell level flag value ih => exact ih
      | batched handle level value ih => rfl
  | tagged made inner ih => exact ih

theorem history_eq (h : Retagged core heap records tensor bound)
    : tensor.history heap = records ++ core.history heap := by
  induction h with
  | bare => rfl
  | tagged made inner ih => rw [history, ih, List.cons_append]

/-- One more tag remembers nothing, and leaves what the others remember. -/
theorem newTagged (h : Retagged core heap records value heap.wrappers.size)
    : Retagged core (heap.newTagged value level flag).2 ((level, none) :: records)
        (heap.newTagged value level flag).1 (heap.newTagged value level flag).2.wrappers.size := by
  have kept : Retagged core (heap.newTagged value level flag).2 records value heap.wrappers.size :=
    h.congr fun cell present => by
      simp [Heap.newTagged, Heap.wrapper, Array.getElem?_push_lt present, present]
  rw [← heap.gradFn_newTagged value level flag]
  exact .tagged (by simp [Heap.newTagged]) kept

theorem refreshAll (h : Retagged core heap records tensor heap.wrappers.size) (tensors : List Tensor)
    : Retagged core (tensors.foldl Heap.refresh heap) records tensor
        (tensors.foldl Heap.refresh heap).wrappers.size := by
  rw [Heap.size_refreshAll]
  exact h.congr fun cell _ => Heap.gradFn_refreshAll heap tensors cell

theorem taggedLevel?_eq {record : Option String}
    (h : Retagged core heap ((level, record) :: records) tensor bound)
    : tensor.taggedLevel? = some level := by
  cases h with
  | tagged made inner => rfl

/-- Recording an operator changes the record of the outermost tag only, as the other new tags have
been made before it.
-/
theorem recorded {record : Option String} {recording : Bool}
    (h : Retagged core heap ((level, record) :: records) tensor heap.wrappers.size)
    (after : other = if recording then heap.recordGradFn name tensor else heap)
    : Retagged core other ((level, if recording then some name else record) :: records) tensor
        other.wrappers.size := by
  subst after
  cases recording with
  | false => exact h
  | true =>
      cases h with
      | @tagged cell flag _ _ _ value made inner =>
          have own := heap.wrapper_setWrapper_same _
            { heap.wrapper cell with gradFn := some name } made
          have kept
              : Retagged core (heap.recordGradFn name (.tagged cell level flag value)) records value
                  cell :=
            inner.congr fun lower less =>
              congrArg Wrapper.gradFn (heap.wrapper_setWrapper_other _ (Nat.ne_of_gt less))
          have there : cell < (heap.recordGradFn name (.tagged cell level flag value)).wrappers.size := by
            simpa [Heap.recordGradFn, Heap.setWrapper] using made
          have tagged := @Retagged.tagged _ _ _ flag _ level _ _ there kept
          rwa [show ((heap.recordGradFn name (.tagged cell level flag value)).wrapper cell).gradFn
            = some name from congrArg Wrapper.gradFn own] at tagged

end Tensor.Retagged

namespace Machine

/-- A differentiation layer puts a tag around everything that it may be given, since that is batched
below its level at most.
-/
theorem newTags_differentiation (kind : layer.kind = .differentiation)
    (under : target.batchLevel < layer.level)
    : machine.newTags name (layer :: below) arguments target
      = (layer.level, machine.producer? name arguments layer)
        :: machine.newTags name below arguments target := by
  rw [newTags, List.filter_cons_of_pos (by simp [kind, under]), List.map_cons, newTags]

theorem newTags_batching (kind : layer.kind = .batching)
    : machine.newTags name (layer :: below) arguments target
      = machine.newTags name below arguments target := by
  rw [newTags, List.filter_cons_of_neg (by simp [kind]), newTags]

/-- At and below the level at which the target is batched it gets no tags. -/
theorem newTags_eq_nil (levelled : Layer.Levelled layers)
    (above : layers.length ≤ target.batchLevel)
    : machine.newTags name layers arguments target = [] := by
  rw [newTags, List.map_eq_nil_iff, List.filter_eq_nil_iff]
  intro layer member tagged
  have under := (of_decide_eq_true tagged).2
  exact absurd (levelled.level_le member) (Nat.not_le_of_lt (Nat.lt_of_le_of_lt above under))

/-- The new tags are the same for the inner call, if its target has the same core and the
differentiation layers record the same for both.
-/
theorem newTags_congr
    (found
      : ∀ layer ∈ owners,
          layer.kind = .differentiation
          → held.producer? name inner layer = machine.producer? name arguments layer)
    (same : value.core = target.core)
    : held.newTags name owners inner value = machine.newTags name owners arguments target := by
  rw [newTags, newTags, Tensor.batchLevel_congr same]
  refine List.map_congr_left fun layer member => ?_
  obtain ⟨active, tagged⟩ := List.mem_filter.mp member
  rw [found layer active (of_decide_eq_true tagged).1]

/-- Where a body has hidden some hooks, the layers below put the same tags on. -/
theorem newTags_hide {set : CapabilitySet} (within : machine.InBody layer below)
    (hidden : held.ambient = machine.ambient.hide set)
    : held.newTags name below arguments target = machine.newTags name below arguments target :=
  newTags_congr (fun _ active _ => producer?_hide within hidden (.refl held) Iff.rfl active) rfl

/-- So they do below the layer. -/
theorem newTags_leave {copied : Machine} (within : machine.InBody layer below)
    (start : machine.Resumes copied) (left : held.ambient = copied.ambient.leave layer below)
    (tensors : Value.tensorsAll inner ≠ [] ↔ Value.tensorsAll arguments ≠ [])
    (same : value.core = target.core)
    : held.newTags name below inner value = machine.newTags name below arguments target :=
  newTags_congr (fun _ active _ => producer?_leave within start left tensors active) same

end Machine

-----------------------------------------------------------------------------------------
-- From an inner call to the call around it
-----------------------------------------------------------------------------------------

/-- The first of the values that are handed on is a tensor only if the first argument is one, and
both are related.
-/
theorem Value.RelatedAll.head_tensor {relation : Tensor → Tensor → Prop}
    (related : Value.RelatedAll relation arguments inner)
    (first : inner.head? = some (.tensor value))
    : ∃ target, arguments.head? = some (.tensor target) ∧ relation target value := by
  rcases related with _ | ⟨head, tail⟩
  · cases first
  · cases first
    obtain ⟨target, rfl, relates⟩ := head.to_tensor
    exact ⟨target, rfl, relates⟩

/-- A call that is handed on gives the target back, in the tags of the inner call, if what takes the
place of the target has its core.
-/
theorem Contract.Holds.retags {relation : Tensor → Tensor → Prop}
    (holds : Contract.retags.Holds budget)
    (handed : machine.HandsOn held budget op owners outer arguments inner)
    (inPlace : op.isInPlace = true) (related : Value.RelatedAll relation arguments inner)
    (same : ∀ tensor result, relation tensor result → result.core = tensor.core)
    : ((nested budget).dispatch op).Leaves held
        (fun _ values memory =>
          ∃ target value result,
            arguments.head? = some (.tensor target)
            ∧ relation target value
            ∧ values = outer ++ [.tensor result]
            ∧ Tensor.Retagged target.core memory.heap (held.newTags op.name owners inner value)
                result memory.heap.wrappers.size)
        (fun _ _ => True) := by
  apply (holds handed.supplied.toCalling outer inner inPlace handed.supplied).mono ?_ fun _ _ => id
  intro _ _ _ left
  rcases left with ⟨value, result, first, values, retagged⟩
  obtain ⟨target, first, relates⟩ := related.head_tensor first
  rw [same target value relates] at retagged
  exact ⟨target, value, result, first, relates, values, retagged⟩

/-- A call that is handed on as it is gives the target itself back. -/
theorem Contract.Holds.retags_same (holds : Contract.retags.Holds budget)
    (handed : machine.HandsOn held budget op owners outer arguments arguments)
    (inPlace : op.isInPlace = true)
    : ((nested budget).dispatch op).Leaves held
        (fun _ values memory =>
          ∃ target result,
            arguments.head? = some (.tensor target)
            ∧ values = outer ++ [.tensor result]
            ∧ Tensor.Retagged target.core memory.heap (held.newTags op.name owners arguments target)
                result memory.heap.wrappers.size)
        (fun _ _ => True) :=
  holds handed.supplied.toCalling outer arguments inPlace handed.supplied

-----------------------------------------------------------------------------------------
-- Below all layers
-----------------------------------------------------------------------------------------

/-- Below all layers a base kernel that writes to its first argument gives this back as it is. -/
theorem retags_base {kernel : Kernel} (poses : machine.Poses op)
    (found : baseKernel? op.name = some kernel)
    : Contract.retags (budget + 1) [] op machine (kernel.run (nested budget) op) := by
  intro outer arguments inPlace supplied
  have writes := Base.writes_baseKernel (nested budget) poses found inPlace
  unfold Run.Writes at writes
  rw [Machine.lastValues_append supplied.values supplied.size,
    Machine.firstValues_append supplied.values supplied.size] at writes
  apply writes.mono ?_ fun _ _ _ => trivial
  intro _ _ memory left
  rcases left with ⟨target, storage, writes, left, -⟩
  obtain ⟨cell, rfl, -⟩ :=
    (supplied.fits target (Value.mem_tensorsAll_head writes.first)).eq_dense
  exact ⟨_, _, writes.first, left, .bare⟩

theorem Tensor.core_of_bare (bare : tensor.bare = .dense cell) : tensor.core = .dense cell := by
  induction tensor with
  | dense own => exact bare
  | tagged own level flag value ih => exact ih bare
  | batched handle level value ih => cases bare

/-- Outside all layers the target is dense, and dead wrappers, of which it has none, are of no
account.
-/
theorem retags_outside (holds : Contract.retags.Holds budget) (atBase : machine.AtBase)
    : Contract.retags (budget + 1) [] op machine
        (deadWrapperFallback.run (nested budget) op) := by
  intro outer arguments inPlace supplied
  refine leaves_outside supplied atBase fun held given handed => ?_
  have same
      : ∀ tensor result,
          Tensor.Replaces [] machine.heap tensor held.heap result
          → result.core = tensor.core := by
    intro tensor result replaces
    obtain ⟨cell, rfl, -⟩ := replaces.fits.eq_dense
    exact (Tensor.core_of_bare replaces.bare.symm).symm
  apply (holds.retags handed inPlace handed.related same).mono ?_ fun _ _ => id
  intro _ _ _ left
  rcases left with ⟨target, value, result, first, -, values, retagged⟩
  exact ⟨target, result, first, values, retagged⟩

-----------------------------------------------------------------------------------------
-- The kernels around layers
-----------------------------------------------------------------------------------------

/-- In front of a layer the target is received, which keeps its core, and every layer records in its
body what it would have recorded in front of it.
-/
theorem retags_enter (holds : Contract.retags.Holds budget) (above : machine.Above layer below)
    (front : machine.thread.overlay.forces .entryInterceptor)
    : Contract.retags (budget + 1) (layer :: below) op machine
        (entryInterceptor.run (nested budget) op) := by
  intro outer arguments inPlace supplied
  refine leaves_entering supplied above front (fun _ _ _ => trivial) ?_
  intro received held given resumes atHeld handed receives
  have carries (kind : layer.kind = .differentiation)
      : ∀ tensor ∈ Value.tensorsAll given,
          (tensor.capabilities machine.heap).contains .differentiation = true := by
    have flags : held.heap.flags = machine.heap.flags := handed.grows.flags
    have all := receives.forall_right (fun _ _ => trivial) fun _ _ receives (_ : True) =>
      receives.taggedLevel?_eq kind
    intro tensor member
    rw [← Tensor.capabilities_congr flags]
    exact (handed.supplied.fits tensor member).carries (all tensor member)
  apply (holds.retags handed inPlace receives fun _ _ => Layer.Receives.core_eq).mono ?_
    fun _ _ => id
  intro _ _ _ left
  rcases left with ⟨target, value, result, first, receives', values, retagged⟩
  refine ⟨target, result, first, values, ?_⟩
  rwa [Machine.newTags_congr (fun lower member kind => Machine.producer?_enter above front resumes
    atHeld receives.tensors_ne_nil carries member kind) receives'.core_eq] at retagged

/-- The body of a differentiation layer gives back the target in the tags of the layers below and in
its own, on which the operator is recorded if the gradient mode says so.
-/
theorem retags_differentiate (holds : Contract.retags.Holds budget) (poses : machine.Poses op)
    (within : machine.InBody layer below) (kind : layer.kind = .differentiation)
    (shown : machine.thread.overlay.excluded.contains .differentiation = false)
    (carries : machine.Carries op .differentiation)
    : Contract.retags (budget + 1) (layer :: below) op machine
        (differentiationBody.run (nested budget) op) := by
  intro outer arguments inPlace supplied
  rw [Machine.Carries, Machine.lastValues_append supplied.values supplied.size] at carries
  refine quiet_writing.currentLayer.leaves_step (currentLayer_apply within.top) ?_
  refine (quiet_read _).leaves_step rfl ?_
  have under {target : Tensor} (first : arguments.head? = some (.tensor target))
      : target.batchLevel < layer.level :=
    (supplied.fits target (Value.mem_tensorsAll_head first)).batchLevel_lt within.grounded.levelled
      kind
  -- The call comes back through the exit interceptor, with a tag of the layer that is still empty.
  have called
      : (Run.holding (Guard.hide TransformKind.differentiation.owned)
          ((nested budget).dispatch op)).Leaves machine
          (fun _ values memory =>
            ∃ target result,
              arguments.head? = some (.tensor target)
              ∧ values = outer ++ [.tensor result]
              ∧ Tensor.Retagged target.core memory.heap
                  ((layer.level, none) :: machine.newTags op.name below arguments target) result
                  memory.heap.wrappers.size)
          (fun _ _ => True) := by
    refine .holding (moves_hide _ machine) ?_
    intro held atHeld
    have hidden : held.ambient = machine.ambient.hide TransformKind.differentiation.owned :=
      atHeld.ambient
    apply (holds.retags_same (supplied.hidden within kind shown atHeld) inPlace).mono ?_ fun _ _ => id
    intro _ _ _ left
    rcases left with ⟨target, result, first, values, retagged⟩
    refine ⟨target, result, first, values, ?_⟩
    rwa [Machine.newTags_differentiation kind (under first), Machine.producer?_hidden within hidden,
      Machine.newTags_hide within hidden] at retagged
  refine called.bind ?_
  intro _ reached _ _ left
  rcases left with ⟨target, result, first, values, retagged⟩
  have single := Schema.resultCount_eq_one poses.member
  refine (leaves_recorded single values retagged.taggedLevel?_eq).mono ?_ fun _ _ => id
  intro _ _ memory left
  refine ⟨target, result, first, left.1.trans values, ?_⟩
  rw [Machine.newTags_differentiation kind (under first), Machine.producer?_body within carries shown]
  exact retagged.recorded left.2

/-- On the way out of a differentiation layer the target goes on without the tag of the layer, and
what comes back gets a new one, which remembers nothing yet.
-/
theorem retags_leaveDifferentiation (holds : Contract.retags.Holds budget)
    (within : machine.InBody layer below) (kind : layer.kind = .differentiation)
    (past
      : machine.Carries op .differentiation
        → machine.thread.overlay.excluded.contains .differentiation = true)
    : Contract.retags (budget + 1) (layer :: below) op machine
        (exitInterceptor.run (nested budget) op) := by
  intro outer arguments inPlace supplied
  rw [Machine.Carries, Machine.lastValues_append supplied.values supplied.size] at past
  let mid (result : Tensor) (memory : Memory) : Prop :=
    ∃ target,
      arguments.head? = some (.tensor target)
      ∧ Tensor.Retagged target.core memory.heap (machine.newTags op.name below arguments target)
          result memory.heap.wrappers.size
  refine @leaves_untagging _ _ _ _ _ _ _ _ _ mid supplied within kind ?_ ?_
  · intro copied held given resumes atHeld handed untagged
    apply (holds.retags handed inPlace untagged fun _ _ => Tensor.Untagged.core_eq).mono ?_
      fun _ _ => id
    intro _ _ _ left
    rcases left with ⟨target, value, result, first, untagged', values, retagged⟩
    refine ⟨result, values, target, first, ?_⟩
    rwa [Machine.newTags_leave within resumes atHeld.ambient untagged.tensors_ne_nil
      untagged'.core_eq] at retagged
  · intro result flag memory alive left
    rcases left with ⟨target, first, retagged⟩
    refine ⟨target, _, first, rfl, ?_⟩
    have under : target.batchLevel < layer.level :=
      (supplied.fits target (Value.mem_tensorsAll_head first)).batchLevel_lt within.grounded.levelled
        kind
    rw [Machine.newTags_differentiation kind under, Machine.producer?_past within past]
    exact retagged.newTagged.refreshAll _

/-- On the way out of a batching layer nothing is put on. -/
theorem retags_leaveBatching (holds : Contract.retags.Holds budget)
    (within : machine.InBody layer below) (kind : layer.kind = .batching)
    (owned
      : owners = below
        ∨ (owners = layer :: below
          ∧ (Value.carried machine.heap (machine.lastValues op.arity)).contains .batched = false))
    : Contract.retags (budget + 1) owners op machine
        (exitInterceptor.run (nested budget) op) := by
  intro outer arguments inPlace supplied
  refine leaves_unbatched supplied within kind owned fun held atHeld handed => ?_
  apply (holds.retags_same handed inPlace).mono ?_ fun _ _ => id
  intro _ _ _ left
  rcases left with ⟨target, result, first, values, retagged⟩
  refine ⟨target, result, first, values, ?_⟩
  rw [Machine.newTags_leave within (.refl machine) atHeld.ambient Iff.rfl rfl] at retagged
  rcases owned with rfl | ⟨rfl, -⟩
  · exact retagged
  · rwa [Machine.newTags_batching kind]

/-- The rule of in-place addition gives the caller its handle back where the target is batched, and
so without new tags. Otherwise it gives what the call below has given.
-/
theorem retags_addInPlace (holds : Contract.retags.Holds budget)
    (poses : machine.Poses Base.schemas[8]) (within : machine.InBody layer below)
    (kind : layer.kind = .batching)
    (shown : machine.thread.overlay.excluded.contains .batched = false)
    : Contract.retags (budget + 1) (layer :: below) Base.schemas[8] machine
        (Batching.addInPlace.run (nested budget) Base.schemas[8]) := by
  intro outer arguments inPlace supplied
  apply leaves_addInPlace poses within kind shown supplied
  · rintro target other physical memory rfl batched
    obtain ⟨handle, rfl⟩ := Tensor.physicalAt?_eq_some batched
    have levelled := within.grounded.levelled
    have above : (layer :: below).length ≤ (Tensor.batched handle layer.level physical).batchLevel :=
      Nat.le_of_eq levelled.1.symm
    -- Whatever the layers below have put around the physical result is dropped with it.
    refine ⟨_, _, rfl, rfl, ?_⟩
    rw [Machine.newTags_eq_nil levelled above]
    exact .bare
  · intro held hidden handed
    apply (holds.retags_same handed inPlace).mono ?_ fun _ _ => id
    intro _ _ _ left
    rcases left with ⟨target, result, first, values, retagged⟩
    refine ⟨target, result, first, values, ?_⟩
    rw [Machine.newTags_hide within hidden] at retagged
    rwa [Machine.newTags_batching kind]

/-- Every kernel gives back what the calls that it issues do, with one case for each kernel. The
rules for operators that write to no argument have nothing to show.
-/
theorem Contract.retags_kept : Contract.retags.Kept where
  congr same retags outer arguments inPlace supplied :=
    .congr same (retags outer arguments inPlace supplied)
  unhandled ended unhandled _ _ _ _ := leaves_ended ended unhandled.orderly trivial
  traced retags outer arguments inPlace supplied :=
    .traced (retags outer arguments inPlace (supplied.inSpan _))
  base poses _ found _ := retags_base poses found
  outside holds _ atBase := retags_outside holds atBase
  enter holds _ above front := retags_enter holds above front
  differentiate := retags_differentiate
  leaveDifferentiation holds _ within kind past := retags_leaveDifferentiation holds within kind past
  leaveBatching holds _ within kind _ owned := retags_leaveBatching holds within kind owned
  pointwise _ poses _ _ _ _ named _ _ inPlace := by
    rcases Schema.inPlace_cases poses.member inPlace with rfl | rfl <;>
      exact absurd named (by decide)
  unsqueeze _ _ _ _ _ _ same _ _ inPlace := by
    subst same
    cases inPlace
  addInPlace holds poses within kind shown _ same := by
    subst same
    exact retags_addInPlace holds poses within kind shown
  missingRule _ _ _ _ :=
    (still_log _).leaves_bind (fun _ => trivial) fun _ _ _ _ _ => leaves_fail trivial
  random _ _ _ _ _ _ same _ _ inPlace := by
    subst same
    cases inPlace

-----------------------------------------------------------------------------------------
-- Calls under a built stack
-----------------------------------------------------------------------------------------

/-- The tags that the differentiation layers above a level put around a result, outermost first, with
what they remember.
-/
def Machine.tagsAbove (machine : Machine) (level : Level) (name : String) (arguments : List Value)
    : List (Level × Option String) :=
  (machine.thread.layers.filter fun layer => layer.kind = .differentiation ∧ level < layer.level).map
    fun layer => (layer.level, layer.recorded? machine name arguments)

/-- The tags of all differentiation layers remember an operator. -/
def Tensor.RecordsThroughout (heap : Heap) (layers : List Layer) (name : String) (tensor : Tensor)
    : Prop :=
  ∀ layer ∈ layers, layer.kind = .differentiation → (layer.level, some name) ∈ tensor.history heap

theorem Tensor.Suits.below_tags (h : tensor.Suits heap layers) : tensor.core.Suits heap layers := by
  induction tensor with
  | dense cell => exact h
  | tagged cell level flag value ih => exact ih h.2.2.2.2
  | batched handle level value ih => exact h

/-- What tags remember is decided by their own cells. -/
theorem Tensor.history_congr
    (same : ∀ tag ∈ tensor.tags, (other.wrapper tag.1).gradFn = (heap.wrapper tag.1).gradFn)
    : tensor.history other = tensor.history heap := by
  induction tensor with
  | dense cell => rfl
  | tagged cell level flag value ih =>
      obtain ⟨own, inner⟩ := List.forall_mem_cons.mp same
      rw [history, history, own, ih inner]
  | batched handle level value ih => exact ih same

theorem Tensor.Reports.batchLevel_eq {shape : Shape} (h : tensor.Reports heap shape)
    : tensor.batchLevel = 0 := by
  induction h with
  | dense present stored => rfl
  | tagged alive present remembered inner ih => exact ih

/-- A layer records every call that is given a tensor, if history is recorded and all layers let it
be.
-/
theorem Layer.recorded?_eq_some (given : Value.tensorsAll arguments ≠ [])
    (records : machine.thread.grad = true)
    (unhidden : ∀ layer ∈ machine.thread.layers, layer.transform.priorGrad? ≠ some false)
    (layer : Layer)
    : layer.recorded? machine name arguments = some name :=
  if_pos ⟨given, records, fun above member _ => unhidden above member⟩

/-- Where all new tags remember an operator, the old ones decide: the layers above the given level
have new tags, and those at and below it have none.
-/
theorem Tensor.recordsThroughout_iff
    (history : tensor.history heap = machine.tagsAbove level name arguments ++ records)
    (recorded : ∀ layer : Layer, layer.recorded? machine name arguments = some name)
    : tensor.RecordsThroughout heap machine.thread.layers name
      ↔ ∀ layer ∈ machine.thread.layers,
          layer.kind = .differentiation → layer.level ≤ level → (layer.level, some name) ∈ records := by
  rw [RecordsThroughout, history]
  constructor
  · intro throughout layer active kind within
    refine (List.mem_append.mp (throughout layer active kind)).resolve_left fun new => ?_
    obtain ⟨other, member, same⟩ := List.mem_map.mp new
    have above := (of_decide_eq_true (List.mem_filter.mp member).2).2
    have level_eq : other.level = layer.level := congrArg Prod.fst same
    exact absurd (level_eq ▸ within) (Nat.not_le_of_lt above)
  · intro old layer active kind
    rcases Nat.lt_or_ge level layer.level with above | within
    · refine List.mem_append_left _ (List.mem_map.mpr ⟨layer, ?_, congrArg _ (recorded layer)⟩)
      exact List.mem_filter.mpr ⟨active, decide_eq_true ⟨kind, above⟩⟩
    · exact List.mem_append_right _ (old layer active kind within)

/-- Under a built stack a call that writes to its first argument gives that back in new tags. Before
the call all layers are ahead, so that they record as they do for any operator.
-/
theorem Dispatcher.leaves_retags (built : machine.Built) (inPlace : name = "add_" ∨ name = "resize_")
    (fits : ∀ tensor ∈ Value.tensorsAll arguments, tensor.Fits machine.heap machine.thread.layers)
    : (standard.call name arguments).Leaves machine
        (fun results _ memory =>
          ∃ target result,
            arguments.head? = some (.tensor target)
            ∧ results = [.tensor result]
            ∧ Tensor.Retagged target.core memory.heap
                (machine.tagsAbove target.batchLevel name arguments) result
                memory.heap.wrappers.size)
        (fun _ _ => True) := by
  refine leaves_standard built (fun _ _ => trivial) ?_
  intro op named count calling
  subst named
  have writes : op.isInPlace = true := (Schema.isInPlace_of_named calling.member inPlace).1
  have retags : Contract.retags.Holds (standard.budget machine.thread.layers.length) :=
    Contract.retags_kept.holds _
  have supplied := built.founded.supplied calling count fits
  apply (retags calling [] _ writes supplied).mono ?_ fun _ _ => id
  intro _ _ _ left
  rcases left with ⟨target, result, first, rfl, retagged⟩
  refine ⟨target, result, first, rfl, ?_⟩
  have found
      : Machine.newTags { machine with values := arguments } op.name machine.thread.layers arguments
          target
        = machine.tagsAbove target.batchLevel op.name arguments :=
    List.map_congr_left fun layer member =>
      congrArg _ (built.founded.producer?_eq (List.mem_of_mem_filter member))
  rwa [found] at retagged

/-- What the tags around the result of such a call remember. The core is as it was: the call may
have written to storages and shapes, but to no record that was there.
-/
theorem Dispatcher.call_retagged (built : machine.Built)
    (wellFormed
      : ∀ tensor ∈ Value.tensorsAll arguments,
          tensor.WellFormed machine.heap machine.thread.layers)
    (inPlace : name = "add_" ∨ name = "resize_")
    (ended : standard.call name arguments machine = .ok results reached)
    : ∃ target result,
        arguments.head? = some (.tensor target)
        ∧ target ∈ Value.tensorsAll arguments
        ∧ results = [.tensor result]
        ∧ result.core = target.core
        ∧ result.history reached.heap
          = machine.tagsAbove target.batchLevel name arguments ++ target.core.history machine.heap := by
  have fits
      : ∀ tensor ∈ Value.tensorsAll arguments, tensor.Fits machine.heap machine.thread.layers :=
    fun tensor member =>
      (Tensor.wellFormed_iff_fits built.founded.levelled).mp (wellFormed tensor member)
  obtain ⟨-, target, result, first, rfl, retagged⟩ := Ends.of_ok (leaves_retags built inPlace fits) ended
  have known := Value.mem_tensorsAll_head first
  have kept : target.core.history reached.heap = target.core.history machine.heap := by
    have leaves := @leaves_call arguments machine Census.none name built
      (Census.sound_none machine.heap) fun tensor _ => tensor.known_none
    obtain ⟨-, op, -, -, _, -, done⟩ := Ends.of_ok leaves ended
    refine Tensor.history_congr fun tag found => (done.allows.wrappers _ ?_).2
    exact ((wellFormed target known).suits.below_tags.tags found).1
  exact ⟨target, result, first, known, rfl, retagged.core_eq,
    retagged.history_eq.trans (congrArg _ kept)⟩

/-- Operators that write to their first argument record history above the batches of that argument only.
Under a built stack, a call of one of them on well-formed arguments gives one tensor, which is the first
argument in new tags. These are the tags of the differentiation layers above the highest level at which
the argument is batched; they remember the operator wherever a call of any other operator would be
recorded. From that batch on the result is the argument itself, and its tags remember what they did. So
if all layers record, the tags of all of them remember the operator exactly if those below the batch did
so before, and always if a tensor is resized, since no batch is.
-/
theorem Dispatcher.call_retags (built : machine.Built)
    (wellFormed
      : ∀ tensor ∈ Value.tensorsAll arguments,
          tensor.WellFormed machine.heap machine.thread.layers)
    (inPlace : name = "add_" ∨ name = "resize_")
    (ended : standard.call name arguments machine = .ok results reached)
    : ∃ target result,
        arguments.head? = some (.tensor target)
        ∧ results = [.tensor result]
        ∧ result.core = target.core
        ∧ (name = "resize_" → target.batchLevel = 0)
        ∧ result.history reached.heap
          = machine.tagsAbove target.batchLevel name arguments ++ target.core.history machine.heap
        ∧ (machine.thread.grad = true
          → (∀ layer ∈ machine.thread.layers, layer.transform.priorGrad? ≠ some false)
          → (result.RecordsThroughout reached.heap machine.thread.layers name
            ↔ ∀ layer ∈ machine.thread.layers,
                layer.kind = .differentiation
                → layer.level ≤ target.batchLevel
                → (layer.level, some name) ∈ target.core.history machine.heap)) := by
  obtain ⟨target, result, first, known, rfl, core, history⟩ :=
    call_retagged built wellFormed inPlace ended
  refine ⟨target, result, first, rfl, core, ?_, history, fun records unhidden => ?_⟩
  · rintro rfl
    have resizes := leaves_resizes built fun tensor member =>
      (Tensor.wellFormed_iff_fits built.founded.levelled).mp (wellFormed tensor member)
    obtain ⟨-, other, sizes, _, rfl, -, resized⟩ := Ends.of_ok resizes ended
    cases first
    exact resized.target.batchLevel_eq
  · exact Tensor.recordsThroughout_iff history
      (Layer.recorded?_eq_some (List.ne_nil_of_mem known) records unhidden)

/-- Witness: a batch of tagged values, with a tag from above the batching layer, is added to in place. -/
theorem Dispatcher.call_retags_three_layers
    : ∃ (machine reached : Machine) (target addend result : Tensor),
        machine.Built
        ∧ (∀ tensor ∈ Value.tensorsAll [.tensor target, .tensor addend],
            tensor.WellFormed machine.heap machine.thread.layers)
        ∧ standard.call "add_" [.tensor target, .tensor addend] machine = .ok [.tensor result] reached
        ∧ result.core = target.core
        ∧ result.history reached.heap = [(3, some "add_"), (1, none)]
        ∧ ¬result.RecordsThroughout reached.heap machine.thread.layers "add_" := by
  let fresh : Machine :=
    { heap :=
        { storages := #[⟨⟨[2, 3]⟩, #[1, 2, 3, 4, 5, 6]⟩, ⟨⟨[3]⟩, #[10, 20, 30]⟩]
          wrappers := #[{ shape := ⟨[2, 3]⟩ }, { shape := ⟨[3]⟩ }] } }
  let target : Tensor := .tagged 1 3 2 (.batched 0 2 (.tagged 0 1 0 (.dense 0)))
  let arguments : List Value := [.tensor target, .tensor (.dense 1)]
  have opened := Machine.Built.opened
    (.opened
      (.opened (@Machine.Built.fresh fresh rfl rfl)
        (rfl : openLayer (.differentiation (some true) none) fresh = .ok 1 _))
      (rfl : openLayer (.batching 2 .error) _ = .ok 2 _))
    (rfl : openLayer (.differentiation (some true) none) _ = .ok 3 _)
  obtain ⟨machine, built, wellFormed, succeeds, records, unhidden, made, old, missing⟩
      : ∃ machine : Machine,
          machine.Built
          ∧ (∀ tensor ∈ Value.tensorsAll arguments,
              tensor.WellFormed machine.heap machine.thread.layers)
          ∧ (standard.call "add_" arguments).succeeds machine = true
          ∧ machine.thread.grad = true
          ∧ (∀ layer ∈ machine.thread.layers, layer.transform.priorGrad? ≠ some false)
          ∧ machine.tagsAbove target.batchLevel "add_" arguments = [(3, some "add_")]
          ∧ target.core.history machine.heap = [(1, none)]
          ∧ ¬∀ layer ∈ machine.thread.layers,
              layer.kind = .differentiation
              → layer.level ≤ target.batchLevel
              → (layer.level, some "add_") ∈ target.core.history machine.heap := by
    refine ⟨_, opened, ?_, by decide +kernel, rfl, by decide +kernel, by decide +kernel, rfl,
      by decide +kernel⟩
    refine List.forall_mem_cons.mpr ⟨⟨by decide, ?_⟩, List.forall_mem_singleton.mpr
      ⟨by decide, by decide, rfl⟩⟩
    refine ⟨⟨_, List.mem_cons_self, rfl, rfl⟩, rfl, by decide, rfl, ?_⟩
    refine ⟨⟨_, List.mem_cons_of_mem _ List.mem_cons_self, rfl, 2, rfl, rfl⟩, ?_⟩
    exact ⟨⟨_, List.mem_cons_of_mem _ (List.mem_cons_of_mem _ List.mem_cons_self), rfl, rfl⟩, rfl,
      by decide, rfl, by decide, rfl⟩
  obtain ⟨results, reached, ended⟩ := succeeds_iff.mp succeeds
  obtain ⟨_, result, ⟨⟩, rfl, core, -, history, throughout⟩ :=
    call_retags built wellFormed (.inl rfl) ended
  rw [made, old] at history
  exact ⟨machine, reached, target, .dense 1, result, built, wellFormed, ended, core, history,
    fun all => missing ((throughout records unhidden).mp all)⟩

/-- Below a batching layer the record of an addition in place is lost: the batch is given back as it was
passed in, around a tag that remembers nothing, although history is recorded at every level.
-/
theorem Dispatcher.not_recordsThroughout_batch
    : ∃ (machine reached : Machine) (target addend result : Tensor),
        machine.Built
        ∧ (∀ tensor ∈ Value.tensorsAll [.tensor target, .tensor addend],
            tensor.WellFormed machine.heap machine.thread.layers)
        ∧ machine.thread.grad = true
        ∧ (∀ layer ∈ machine.thread.layers, layer.transform.priorGrad? ≠ some false)
        ∧ standard.call "add_" [.tensor target, .tensor addend] machine = .ok [.tensor result] reached
        ∧ ¬result.RecordsThroughout reached.heap machine.thread.layers "add_" := by
  let fresh : Machine :=
    { heap :=
        { storages := #[⟨⟨[2, 3]⟩, #[1, 2, 3, 4, 5, 6]⟩, ⟨⟨[3]⟩, #[10, 20, 30]⟩]
          wrappers := #[{ shape := ⟨[2, 3]⟩ }] } }
  let target : Tensor := .batched 0 2 (.tagged 0 1 0 (.dense 0))
  let arguments : List Value := [.tensor target, .tensor (.dense 1)]
  have opened := Machine.Built.opened
    (.opened (@Machine.Built.fresh fresh rfl rfl)
      (rfl : openLayer (.differentiation (some true) none) fresh = .ok 1 _))
    (rfl : openLayer (.batching 2 .error) _ = .ok 2 _)
  obtain ⟨machine, built, wellFormed, succeeds, records, unhidden, missing⟩
      : ∃ machine : Machine,
          machine.Built
          ∧ (∀ tensor ∈ Value.tensorsAll arguments,
              tensor.WellFormed machine.heap machine.thread.layers)
          ∧ (standard.call "add_" arguments).succeeds machine = true
          ∧ machine.thread.grad = true
          ∧ (∀ layer ∈ machine.thread.layers, layer.transform.priorGrad? ≠ some false)
          ∧ ¬∀ layer ∈ machine.thread.layers,
              layer.kind = .differentiation
              → layer.level ≤ target.batchLevel
              → (layer.level, some "add_") ∈ target.core.history machine.heap := by
    refine ⟨_, opened, ?_, by decide +kernel, rfl, by decide +kernel, by decide +kernel⟩
    refine List.forall_mem_cons.mpr ⟨⟨by decide, ?_⟩, List.forall_mem_singleton.mpr
      ⟨by decide, by decide, rfl⟩⟩
    refine ⟨⟨_, List.mem_cons_self, rfl, 2, rfl, rfl⟩, ?_⟩
    exact ⟨⟨_, List.mem_cons_of_mem _ List.mem_cons_self, rfl, rfl⟩, rfl, by decide, rfl,
      by decide, rfl⟩
  obtain ⟨results, reached, ended⟩ := succeeds_iff.mp succeeds
  obtain ⟨_, result, ⟨⟩, known, rfl, -, history⟩ := call_retagged built wellFormed (.inl rfl) ended
  have throughout := Tensor.recordsThroughout_iff history
    (Layer.recorded?_eq_some (List.ne_nil_of_mem known) records unhidden)
  exact ⟨machine, reached, target, .dense 1, result, built, wellFormed, records, unhidden, ended,
    fun all => missing (throughout.mp all)⟩

end

end LayeredDispatch
