import LayeredDispatch.Proofs.Results.Handing
import LayeredDispatch.Proofs.Results.Wrapping

/-! What inserting a dimension does to the rank of a tensor, whatever wrappers are around it. Main
statement: the dense tensor below the result has one dimension more, and as many batches are around
the result; and the tags around it, which are new ones, remember the right rank if those around the
argument are there at all.
-/

namespace LayeredDispatch

open Run Dispatcher

namespace Tensor

/-- The number of batches around a tensor. -/
def batches : Tensor → Nat
  | .dense _ => 0
  | .tagged _ _ _ value => value.batches
  | .batched _ _ value => value.batches + 1

/-- The rank of the dense tensor below all wrappers. -/
def baseRank (heap : Heap) (tensor : Tensor) : Nat :=
  (heap.storage tensor.baseCell).shape.rank

/-- The numbers of the tags around a tensor are all in some range. -/
def TagsIn (inside : Nat → Prop) : Tensor → Prop
  | .dense _ => True
  | .tagged cell _ _ value => inside cell ∧ value.TagsIn inside
  | .batched _ _ value => value.TagsIn inside

/-- The tags around a tensor are there. -/
def Anchored (heap : Heap) (tensor : Tensor) : Prop :=
  tensor.TagsIn (· < heap.wrappers.size)

/-- Every tag around a tensor remembers the rank that its value has by the dense tensor below: each
batch takes one dimension away.
-/
def Ranked (heap : Heap) : Tensor → Prop
  | .dense _ => True
  | .tagged cell _ _ value =>
      (heap.wrapper cell).shape.rank = value.baseRank heap - value.batches ∧ value.Ranked heap
  | .batched _ _ value => value.Ranked heap

variable {heap before middle after later : Heap} {tensor other result value : Tensor}
  {inside inside' : Nat → Prop}

/-- The rank that a tensor reports is that of its dense tensor less one for each batch, if the tags
around it
remember theirs right. Induction on the wrappers; the outermost live tag answers.
-/
theorem Ranked.rank_eq (h : tensor.Ranked heap)
    : (tensor.shape heap).rank = tensor.baseRank heap - tensor.batches := by
  induction tensor with
  | dense cell => rfl
  | tagged cell level flag value ih =>
      rw [shape]
      split
      · exact h.1
      · exact ih h.2
  | batched handle level value ih =>
      have inner := ih h
      simp only [Shape.rank] at inner
      rw [shape, Shape.dropLeading, Shape.rank, List.length_drop, inner, batches]
      exact Nat.sub_sub _ _ _

/-- Tags in one range are in every larger one. -/
theorem TagsIn.mono (h : tensor.TagsIn inside) (implies : ∀ cell, inside cell → inside' cell)
    : tensor.TagsIn inside' := by
  induction tensor with
  | dense cell => trivial
  | tagged cell level flag value ih => exact ⟨implies cell h.1, ih h.2⟩
  | batched handle level value ih => exact ih h

/-- Taking off dead tags leaves fewer tags, so those that are left are in the range. -/
theorem TagsIn.unwrapDead (h : tensor.TagsIn inside) (heap : Heap)
    : (tensor.unwrapDead heap).TagsIn inside := by
  induction tensor with
  | dense cell => exact h
  | tagged cell level flag value ih =>
      rw [Tensor.unwrapDead]
      split
      · exact h
      · exact ih h.2
  | batched handle level value ih => exact h

/-- Taking off dead tags leaves all batches. -/
theorem batches_unwrapDead (heap : Heap) (tensor : Tensor)
    : (tensor.unwrapDead heap).batches = tensor.batches := by
  induction tensor with
  | dense cell => rfl
  | tagged cell level flag value ih =>
      rw [unwrapDead]
      split
      · rfl
      · exact ih
  | batched handle level value ih => rfl

/-- Tags that are not written go on remembering the right rank.
The ranks below depend on the dense tensor alone, which has the rank that it had.
-/
theorem Ranked.kept (h : tensor.Ranked before) (base : tensor.baseRank after = tensor.baseRank before)
    (kept
      : tensor.TagsIn fun cell => (after.wrapper cell).shape = (before.wrapper cell).shape)
    : tensor.Ranked after := by
  induction tensor with
  | dense cell => trivial
  | tagged cell level flag value ih =>
      have base : value.baseRank after = value.baseRank before := base
      exact ⟨by rw [kept.1, base]; exact h.1, ih h.2 base kept.2⟩
  | batched handle level value ih => exact ih h base kept

-----------------------------------------------------------------------------------------
-- Values on their way down
-----------------------------------------------------------------------------------------

/-- A tensor that a call is given in the place of another one: the dense tensor below is the same, and
so is the number of batches around it.
-/
structure Passed (before : Heap) (tensor : Tensor) (after : Heap) (other : Tensor) : Prop where
  storages : after.storages = before.storages
  counted : before.wrappers.size ≤ after.wrappers.size
  base : other.baseCell = tensor.baseCell
  batches : other.batches = tensor.batches
  anchored : tensor.Anchored before → other.Anchored after

theorem Passed.refl (heap : Heap) (tensor : Tensor) : tensor.Passed heap heap tensor :=
  ⟨rfl, Nat.le_refl _, rfl, rfl, id⟩

/-- What is passed on twice has been passed on. -/
theorem Passed.trans {between : Tensor} (first : tensor.Passed before middle between)
    (second : between.Passed middle after other)
    : tensor.Passed before after other where
  storages := second.storages.trans first.storages
  counted := Nat.le_trans first.counted second.counted
  base := second.base.trans first.base
  batches := second.batches.trans first.batches
  anchored present := second.anchored (first.anchored present)

/-- The dense tensor below is the same, so it has the same rank. -/
theorem Passed.baseRank_eq (h : tensor.Passed before after other)
    : other.baseRank after = tensor.baseRank before := by
  rw [baseRank, baseRank, Heap.storage, Heap.storage, h.base, h.storages]

/-- A tensor may be passed on without its dead tags. -/
theorem passed_unwrapDead (heap : Heap) (tensor : Tensor)
    : tensor.Passed heap heap (tensor.unwrapDead heap) :=
  ⟨rfl, Nat.le_refl _, baseCell_unwrapDead heap tensor, batches_unwrapDead heap tensor,
    fun anchored => anchored.unwrapDead heap⟩

/-- A tensor may be passed on with a new tag, which is then there. -/
theorem passed_newTagged (heap : Heap) (value : Tensor) (level : Level) (flag : Nat)
    : value.Passed heap (heap.newTagged value level flag).2 (heap.newTagged value level flag).1 := by
  have counted : (heap.newTagged value level flag).2.wrappers.size = heap.wrappers.size + 1 :=
    Array.size_push _
  refine ⟨rfl, counted ▸ Nat.le_succ _, rfl, rfl, fun anchored => ⟨?_, ?_⟩⟩
  · exact counted ▸ Nat.lt_succ_self _
  · exact anchored.mono fun cell present => counted ▸ Nat.lt_succ_of_lt present

/-- A tensor may be passed on without the tag of a layer. -/
theorem Untagged.passed {level : Level} (h : tensor.Untagged level other) (heap : Heap)
    : tensor.Passed heap heap other := by
  rcases h with rfl | ⟨cell, flag, rfl⟩
  · exact .refl heap _
  · exact ⟨rfl, Nat.le_refl _, rfl, rfl, And.right⟩

-----------------------------------------------------------------------------------------
-- Results on their way up
-----------------------------------------------------------------------------------------

/-- What a call that inserts dimension `dim` makes of a tensor: there is room for the dimension below
all batches, the result has one dimension more, and the tags around it are new.
-/
structure Lengthened (before : Heap) (tensor : Tensor) (dim : Int) (after : Heap) (result : Tensor)
    : Prop where
  counted : before.wrappers.size ≤ after.wrappers.size
  present : result.baseCell < after.storages.size
  rank : result.baseRank after = tensor.baseRank before + 1
  batches : result.batches = tensor.batches
  room : 0 ≤ dim ∧ dim + tensor.batches ≤ tensor.baseRank before
  fresh : result.TagsIn fun cell => before.wrappers.size ≤ cell ∧ cell < after.wrappers.size
  ranked : tensor.Anchored before → result.Ranked after

variable {dim : Int}

/-- A call on what was passed on lengthens the tensor that it was passed on for. -/
theorem Lengthened.of_passed (h : other.Lengthened middle dim after result)
    (passed : tensor.Passed before middle other)
    : tensor.Lengthened before dim after result where
  counted := Nat.le_trans passed.counted h.counted
  present := h.present
  rank := by rw [h.rank, passed.baseRank_eq]
  batches := h.batches.trans passed.batches
  room := by
    rw [← passed.batches, ← passed.baseRank_eq]
    exact h.room
  fresh := h.fresh.mono fun cell inside => ⟨Nat.le_trans passed.counted inside.1, inside.2⟩
  ranked anchored := h.ranked (passed.anchored anchored)

/-- Later changes that spare the new storages and the shapes that new tags remember are of no
account.
-/
theorem Lengthened.spared (h : tensor.Lengthened before dim after result)
    (counted : after.wrappers.size ≤ later.wrappers.size)
    (storages : later.storages = after.storages)
    (spared
      : ∀ cell,
          before.wrappers.size ≤ cell ∧ cell < after.wrappers.size
          → tensor.Anchored before
          → (later.wrapper cell).shape = (after.wrapper cell).shape)
    : tensor.Lengthened before dim later result := by
  have base : result.baseRank later = result.baseRank after := by
    rw [baseRank, baseRank, Heap.storage, Heap.storage, storages]
  refine ⟨Nat.le_trans h.counted counted, storages ▸ h.present, base.trans h.rank, h.batches, h.room,
    ?_, fun anchored => ?_⟩
  · exact h.fresh.mono fun cell inside => ⟨inside.1, Nat.lt_of_lt_of_le inside.2 counted⟩
  · exact (h.ranked anchored).kept base (h.fresh.mono fun cell inside => spared cell inside anchored)

/-- In particular later growth of the heap is, which changes nothing that there was. -/
theorem Lengthened.grows (h : tensor.Lengthened before dim after result) (grows : after.Grows later)
    (storages : later.storages = after.storages)
    (counted : after.wrappers.size ≤ later.wrappers.size)
    : tensor.Lengthened before dim later result :=
  h.spared counted storages fun cell inside _ => (grows.wrappers cell inside.2).2

/-- A new tag remembers the rank of what it is put around.
That it is right comes from the value inside, whose tags remember theirs right.
-/
theorem Lengthened.tagged (h : tensor.Lengthened before dim after result) (level : Level) (flag : Nat)
    : tensor.Lengthened before dim (after.newTagged result level flag).2
        (after.newTagged result level flag).1 := by
  have grown := h.grows (after.grows_newTagged result level flag) rfl
    (passed_newTagged after result level flag).counted
  have counted : (after.newTagged result level flag).2.wrappers.size = after.wrappers.size + 1 :=
    Array.size_push _
  refine ⟨grown.counted, grown.present, grown.rank, grown.batches, grown.room, ?_, fun anchored => ?_⟩
  · exact ⟨⟨h.counted, counted ▸ Nat.lt_succ_self _⟩, grown.fresh⟩
  · refine ⟨?_, grown.ranked anchored⟩
    have remembered
        : (after.newTagged result level flag).2.wrapper after.wrappers.size
          = { shape := result.shape after } := by
      simp [Heap.wrapper, Heap.newTagged]
    rw [remembered]
    exact (h.ranked anchored).rank_eq

/-- Looking again at the tag of the argument touches none of the new ones. -/
theorem Lengthened.refresh (h : tensor.Lengthened before dim after result)
    : tensor.Lengthened before dim (after.refresh tensor) result := by
  cases tensor with
  | dense cell => exact h
  | batched handle level value => exact h
  | tagged cell level flag value =>
      have counted : (after.refresh (.tagged cell level flag value)).wrappers.size
          = after.wrappers.size :=
        Array.size_setIfInBounds
      refine h.spared (Nat.le_of_eq counted.symm) rfl fun other inside anchored => ?_
      have apart : cell ≠ other := Nat.ne_of_lt (Nat.lt_of_lt_of_le anchored.1 inside.1)
      rw [Heap.refresh, Heap.wrapper_setWrapper_other _ _ apart]

/-- What is inserted behind a batch dimension is inserted into the value with its batch dimension.
The position is one larger inside, and one dimension more of the dense tensor is taken by the batch.
-/
theorem Lengthened.batched {handle : Nat} {level : Level}
    (h : value.Lengthened before (dim + 1) after result) (nonnegative : 0 ≤ dim)
    : (Tensor.batched handle level value).Lengthened before dim (after.newBatched result level).2
        (after.newBatched result level).1 := by
  have grown := h.grows (after.grows_newBatched result level) rfl (Nat.le_refl _)
  refine ⟨grown.counted, grown.present, grown.rank, congrArg (· + 1) grown.batches, ?_, grown.fresh,
    grown.ranked⟩
  have room := grown.room.2
  rw [baseRank] at room
  rw [Tensor.batches, baseRank, baseCell]
  push_cast
  omega

/-- The base operator inserts a dimension where there is one of that position. -/
theorem lengthened_newDense {cell : Nat} {storage : Storage} (nonnegative : 0 ≤ dim)
    (inserted : (heap.storage cell).shape.unsqueeze? dim.toNat = some storage.shape)
    : (Tensor.dense cell).Lengthened heap dim (heap.newDense storage).2 (heap.newDense storage).1 := by
  rw [Shape.unsqueeze?, Option.ite_none_right_eq_some, Option.some_inj] at inserted
  obtain ⟨inside, shape⟩ := inserted
  have made : (heap.newDense storage).2.storage heap.storages.size = storage := by
    simp [Heap.storage, Heap.newDense]
  refine ⟨Nat.le_refl _, ?_, ?_, rfl, ⟨nonnegative, ?_⟩, trivial, fun _ => trivial⟩
  · exact (Array.size_push storage).symm ▸ Nat.lt_succ_self _
  · change ((heap.newDense storage).2.storage heap.storages.size).shape.rank = _
    rw [made, ← shape]
    exact List.length_insertIdx_of_le_length inside _
  · rw [batches, baseRank, baseCell]
    omega

end Tensor

-----------------------------------------------------------------------------------------
-- The contract
-----------------------------------------------------------------------------------------

/-- A computation that puts a tensor with one dimension more in the place of a tensor and the position
of that dimension.
-/
def Run.Lengthens (body : Run Unit) (outer : List Value) (before : Heap) (tensor : Tensor) (dim : Int)
    (machine : Machine)
    : Prop :=
  body.Leaves machine
    (fun _ values memory =>
      ∃ result,
        values = outer ++ [.tensor result] ∧ tensor.Lengthened before dim memory.heap result)
    (fun _ _ => True)

/-- Calls that insert a dimension into a tensor lengthen it. -/
def Contract.lengthens : Contract :=
  fun _ _ op machine body =>
    op.name = "unsqueeze"
    → ∀ outer tensor dim,
        machine.values = outer ++ [.tensor tensor, .int dim]
        → body.Lengthens outer machine.heap tensor dim machine

section

variable {machine : Machine} {op : Schema} {layer : Layer} {below owners : List Layer}
  {budget : Nat} {outer : List Value} {tensor other result : Tensor} {dim : Int} {before : Heap}

/-- The operator that inserts dimensions is known by its name. -/
theorem Contract.eq_unsqueeze (member : op ∈ Base.schemas) (named : op.name = "unsqueeze")
    : op = Base.schemas[5] := by
  simp only [Base.schemas, List.mem_cons, List.not_mem_nil, or_false] at member
  rcases member with rfl | rfl | rfl | rfl | rfl | rfl | rfl | rfl | rfl | rfl <;>
    first | rfl | exact absurd named (by decide)

/-- A call that is known to lengthen its own argument lengthens what this was passed on for. -/
theorem Contract.Holds.lengthens (holds : Contract.lengthens.Holds budget)
    (calling : machine.Calling Base.schemas[5] owners)
    (values : machine.values = outer ++ [.tensor other, .int dim])
    (passed : tensor.Passed before machine.heap other)
    : (standard.dispatchWithin budget Base.schemas[5]).Lengthens outer before tensor dim machine := by
  refine Leaves.mono (holds calling rfl outer other dim values) ?_ fun _ _ => id
  rintro _ _ _ ⟨result, values, lengthened⟩
  exact ⟨result, values, lengthened.of_passed passed⟩

/-- What is passed on in the place of a tensor and a number. -/
theorem Value.RelatedAll.tensor_int {relation : Tensor → Tensor → Prop} {given : List Value}
    (related : Value.RelatedAll relation [.tensor tensor, .int dim] given)
    : ∃ other, given = [.tensor other, .int dim] ∧ relation tensor other := by
  obtain _ | ⟨head, tail⟩ := related
  obtain _ | ⟨second, none⟩ := tail
  cases none
  cases second
  cases head with
  | tensor related => exact ⟨_, rfl, related⟩
  | plain plain => cases plain

/-- Meanwhile no storage is made or written, and no tag is lost. -/
def Memory.Steadies (before after : Memory) : Prop :=
  after.heap.storages = before.heap.storages
  ∧ before.heap.wrappers.size ≤ after.heap.wrappers.size

/-- What has been passed on stays so while no storage changes and no tag is lost. -/
theorem Tensor.Passed.steadies {memory later : Memory}
    (h : tensor.Passed before memory.heap other) (steadies : memory.Steadies later)
    : tensor.Passed before later.heap other where
  storages := steadies.1.trans h.storages
  counted := Nat.le_trans h.counted steadies.2
  base := h.base
  batches := h.batches
  anchored present :=
    (h.anchored present).mono fun _ inside => Nat.lt_of_lt_of_le inside steadies.2

/-- Tensors are passed on one after another. -/
theorem Memory.persists_passed (before : Heap)
    : Memory.Persists Memory.Steadies fun memory tensor other =>
        Tensor.Passed before tensor memory.heap other where
  refl _ := ⟨rfl, Nat.le_refl _⟩
  trans first second := ⟨second.1.trans first.1, Nat.le_trans first.2 second.2⟩
  stable := Tensor.Passed.steadies

/-- What the entry interceptor makes of a tensor has been passed on: bare of dead tags, and maybe
tagged.
-/
theorem Machine.Received.passed {memory : Memory} (h : machine.Received layer tensor result memory)
    : tensor.Passed machine.heap memory.heap result := by
  have bare := Tensor.passed_unwrapDead machine.heap tensor
  cases h with
  | bare tagged => exact bare
  | tagged kind found => exact bare.trans (Tensor.passed_newTagged _ _ _ _)

-----------------------------------------------------------------------------------------
-- The kernels around layers
-----------------------------------------------------------------------------------------

/-- The entry interceptor lengthens the tensor that it has received the argument for.
Receiving goes through the two arguments; the number is received as it is.
-/
theorem lengthens_enter (holds : Contract.lengthens.Holds budget) (poses : machine.Poses op)
    (above : machine.Above layer below)
    : Contract.lengthens (budget + 1) (layer :: below) op machine
        (entryInterceptor.run (nested budget) op) := by
  intro named outer tensor dim values
  obtain rfl := Contract.eq_unsqueeze poses.member named
  refine .enter above.top fun logged resumes atLogged => ?_
  have memory : logged.memory = machine.memory := atLogged.memory
  have refuses := still_noting.refuseCapturedMutation Base.schemas[5] layer
  refine refuses.leaves_bind (fun _ => trivial) fun _ checked passed _ _ => ?_
  obtain rfl := refuseCapturedMutation_ok passed
  have persists := Memory.persists_passed machine.heap
  have values : checked.values = outer ++ [.tensor tensor, .int dim] := atLogged.values.trans values
  refine (Leaves.mapLast persists values ?_).bind ?_
  · intro given _ start _ _ steadies
    rw [memory] at steadies
    refine Leaves.mono (leaves_receive layer given fun _ => trivial) ?_ fun _ _ => id
    rintro received _ _ ⟨same, how⟩
    refine ⟨same, ⟨how.passed.storages, how.passed.counted⟩, ?_⟩
    exact ((Tensor.Passed.refl machine.heap given).steadies steadies).trans how.passed
  rintro _ received _ later ⟨given, values, -, related⟩
  obtain ⟨other, rfl, passed⟩ := related.tensor_int
  refine (quiet_read _).leaves_step rfl ?_
  refine .holding (moves_replaceOverlay _ received) fun held atHeld => ?_
  have above : received.Above layer below :=
    ⟨later.layers.trans (resumes.layers.trans above.top), above.grounded⟩
  refine holds.lengthens (above.enter poses.member atHeld.ambient) (atHeld.values.trans values) ?_
  rw [show held.heap = received.heap from atHeld.heap]
  exact passed

/-- Outside all layers a tensor is lengthened with its dead tags taken off. -/
theorem lengthens_outside (holds : Contract.lengthens.Holds budget) (poses : machine.Poses op)
    (atBase : machine.AtBase)
    : Contract.lengthens (budget + 1) [] op machine
        (deadWrapperFallback.run (nested budget) op) := by
  intro named outer tensor dim values
  obtain rfl := Contract.eq_unsqueeze poses.member named
  have persists := Memory.persists_passed machine.heap
  refine (Leaves.mapLast persists values ?_).bind ?_
  · intro given _ start _ _ steadies
    refine (quiet_read _).leaves_step rfl ?_
    have passed := (Tensor.Passed.refl machine.heap given).steadies steadies
    split
    · exact leaves_fault trivial trivial
    · exact leaves_pure ⟨rfl, persists.refl _, passed.trans (Tensor.passed_unwrapDead _ _)⟩
  rintro _ bared _ resumes ⟨given, values, -, related⟩
  obtain ⟨other, rfl, passed⟩ := related.tensor_int
  have calling : machine.Calling Base.schemas[5] [] :=
    .of_layers poses.member (.base atBase.layers atBase.overlay) atBase.layers
  exact holds.lengthens (calling.resumes resumes) values passed

/-- The body of a differentiation layer lengthens its argument by the call that it issues. Recording
which
operator made the result touches no shape that a tag remembers.
-/
theorem lengthens_differentiate (holds : Contract.lengthens.Holds budget) (poses : machine.Poses op)
    (within : machine.InBody layer below) (kind : layer.kind = .differentiation)
    : Contract.lengthens (budget + 1) (layer :: below) op machine
        (differentiationBody.run (nested budget) op) := by
  intro named outer tensor dim values
  obtain rfl := Contract.eq_unsqueeze poses.member named
  refine quiet_writing.currentLayer.leaves_step (currentLayer_apply within.top) ?_
  refine (quiet_read _).leaves_step rfl ?_
  have called
      : (Run.holding (Guard.hide TransformKind.differentiation.owned)
          ((nested budget).dispatch Base.schemas[5])).Lengthens outer machine.heap tensor dim
          machine := by
    refine .holding (moves_hide _ machine) fun held atHeld => ?_
    refine holds.lengthens (within.hideDifferentiation kind poses.member atHeld.ambient)
      (atHeld.values.trans values) ?_
    rw [show held.heap = machine.heap from atHeld.heap]
    exact .refl _ _
  refine Leaves.bind called ?_
  rintro _ returned _ _ ⟨result, values, lengthened⟩
  refine Leaves.mono (leaves_recordGradFns _ rfl values) ?_ fun _ _ => id
  rintro _ _ _ ⟨kept, grows, storages, counted⟩
  exact ⟨result, kept.trans values, lengthened.grows grows storages (Nat.le_of_eq counted.symm)⟩

/-- Below a layer what has been passed on is lengthened for the argument that it was passed on for.
The guards that are held meanwhile change the ambient state and leave values and heap.
-/
theorem Contract.Holds.lengthens_below (holds : Contract.lengthens.Holds budget)
    (above : machine.Above layer below)
    (values : machine.values = outer ++ [.tensor other, .int dim])
    (passed : tensor.Passed before machine.heap other)
    : (dispatchBelow (nested budget) Base.schemas[5] layer).Lengthens outer before tensor dim
        machine := by
  refine .dispatchBelow above.top above.grounded.levelled.1 (fun _ => trivial) fun held atHeld => ?_
  refine holds.lengthens (above.leave (by decide) atHeld.ambient) (atHeld.values.trans values) ?_
  rw [show held.heap = machine.heap from atHeld.heap]
  exact passed

/-- At the exit of a batching layer the call is handed down as it is. -/
theorem lengthens_leaveBatching (holds : Contract.lengthens.Holds budget)
    (poses : machine.Poses op)
    (above : machine.Above layer below) (kind : layer.kind = .batching)
    : Contract.lengthens (budget + 1) owners op machine
        (exitInterceptor.run (nested budget) op) := by
  intro named outer tensor dim values
  obtain rfl := Contract.eq_unsqueeze poses.member named
  refine quiet_writing.currentLayer.leaves_step (currentLayer_apply above.top) ?_
  simp only [kind]
  exact holds.lengthens_below above values (.refl _ _)

/-- At the exit of a differentiation layer an untagged copy is handed down. The result is tagged,
and the tag
of the argument looked at again, neither of which spoils the new tags.
-/
theorem lengthens_leaveDifferentiation (holds : Contract.lengthens.Holds budget)
    (poses : machine.Poses op)
    (above : machine.Above layer below) (kind : layer.kind = .differentiation)
    : Contract.lengthens (budget + 1) (layer :: below) op machine
        (exitInterceptor.run (nested budget) op) := by
  intro named outer tensor dim values
  obtain rfl := Contract.eq_unsqueeze poses.member named
  refine quiet_writing.currentLayer.leaves_step (currentLayer_apply above.top) ?_
  simp only [kind]
  refine (leaves_copyUntagged values rfl fun _ => trivial).bind ?_
  rintro _ copied _ resumes ⟨given, values, memory, related⟩
  obtain ⟨other, rfl, untagged⟩ := related.tensor_int
  have heap : copied.heap = machine.heap := congrArg Memory.heap memory
  have above : copied.Above layer below := ⟨resumes.layers.trans above.top, above.grounded⟩
  have passed : tensor.Passed machine.heap copied.heap other := by
    rw [heap]
    exact untagged.passed machine.heap
  refine (holds.lengthens_below above values passed).bind ?_
  rintro _ returned _ _ ⟨result, values, lengthened⟩
  refine Leaves.mono (leaves_tagResults values rfl rfl fun _ _ => trivial) ?_ fun _ _ => id
  rintro _ _ _ ⟨flag, -, rfl, rfl⟩
  exact ⟨_, rfl, (lengthened.tagged layer.level flag).refresh⟩

/-- The rule of a batching layer inserts behind the batch dimension of the physical value and wraps
the
result; a value that is not batched at the layer is handed on.
-/
theorem lengthens_unsqueeze (holds : Contract.lengthens.Holds budget) (poses : machine.Poses op)
    (within : machine.InBody layer below) (kind : layer.kind = .batching)
    : Contract.lengthens (budget + 1) (layer :: below) op machine
        (Batching.unsqueeze.run (nested budget) op) := by
  intro named outer tensor dim values
  obtain rfl := Contract.eq_unsqueeze poses.member named
  refine quiet_writing.currentLayer.leaves_step (currentLayer_apply within.top) ?_
  refine (quiet_writing.pop _).leaves_step (pop_append values) ?_
  refine (quiet_lift (Value.plain_tensorAt _ _ _).orderly).leaves_step (lift_ok_apply tensor _) ?_
  refine (quiet_lift (Value.plain_intAt _ _ _).orderly).leaves_step (lift_ok_apply dim _) ?_
  refine .holding (moves_hide _ _) fun held atHeld => ?_
  have calling (values : List Value) : { held with values }.Calling Base.schemas[5] below :=
    .of_name poses.member (within.hideBatched kind poses.member (by decide) atHeld.ambient).owning
      (by decide)
  have heap : held.heap = machine.heap := atHeld.heap
  have empty : held.values = outer := atHeld.values
  cases found : tensor.physicalAt? layer.level with
  | some physical =>
      obtain ⟨handle, rfl⟩ := Tensor.physicalAt?_eq_some found
      refine (quiet_read _).leaves_step rfl ?_
      dsimp only
      split
      · rename_i inside
        refine (quiet_writing.pushAll _).leaves_step rfl ?_
        have called
            : ((nested budget).dispatch Base.schemas[5]).Lengthens outer machine.heap physical (dim + 1)
                { held with values := held.values ++ [.tensor physical, .int (dim + 1)] } :=
          holds.lengthens (calling _) (congrArg (· ++ _) empty) (heap ▸ .refl _ _)
        refine Leaves.bind called ?_
        rintro _ returned _ _ ⟨result, values, lengthened⟩
        exact (quiet_writing.wrapResults _ _).leaves (wrapResults_apply values layer.level)
          ⟨_, rfl, lengthened.batched inside.1⟩
      · exact leaves_fail trivial
  | none =>
      refine (quiet_writing.pushAll _).leaves_step rfl ?_
      exact holds.lengthens (calling _) (congrArg (· ++ _) empty) (heap ▸ .refl _ _)

-----------------------------------------------------------------------------------------
-- The base
-----------------------------------------------------------------------------------------

/-- The base operator makes a dense tensor with one dimension more, or refuses the position. -/
theorem lengthens_base {kernel : Kernel} (poses : machine.Poses op)
    (found : baseKernel? op.name = some kernel)
    : Contract.lengthens (budget + 1) owners op machine (kernel.run (nested budget) op) := by
  intro named outer tensor dim values
  obtain rfl := Contract.eq_unsqueeze poses.member named
  cases found
  refine (quiet_writing.pop _).leaves_step (pop_append values) ?_
  refine (idle_reading.denseAt _ _ _).leaves_bind (fun _ => trivial) fun input inputAt => ?_
  obtain ⟨other, same, dense, rfl⟩ := Base.denseAt_ok inputAt
  cases same
  refine (quiet_lift (Value.plain_intAt _ _ _).orderly).leaves_step (lift_ok_apply dim _) ?_
  split
  · rename_i shape inserted
    rw [Option.ite_none_right_eq_some] at inserted
    refine (quiet_writing.pushDense _).leaves rfl ⟨_, rfl, ?_⟩
    cases tensor with
    | dense cell => exact Tensor.lengthened_newDense inserted.1 inserted.2
    | tagged cell level flag value => cases dense
    | batched handle level value => cases dense
  · exact leaves_fail trivial

/-- Every kernel keeps to it that insertions lengthen. Kernels for other operators are not asked.
-/
theorem Contract.lengthens_kept : Contract.lengthens.Kept where
  congr same inner := by
    intro named outer tensor dim values
    exact Leaves.congr same (inner named outer tensor dim values)
  unhandled ended unhandled := by
    intro _ outer tensor dim values
    exact leaves_ended ended unhandled.orderly trivial
  traced inner := by
    intro named outer tensor dim values
    exact Leaves.traced (inner named outer tensor dim values)
  base poses _ found _ := lengthens_base poses found
  outside holds poses atBase := lengthens_outside holds poses atBase
  enter holds poses above _ := lengthens_enter holds poses above
  differentiate holds poses within kind _ _ := lengthens_differentiate holds poses within kind
  leaveDifferentiation holds poses within kind _ :=
    lengthens_leaveDifferentiation holds poses within.toAbove kind
  leaveBatching holds poses within kind _ _ :=
    lengthens_leaveBatching holds poses within.toAbove kind
  pointwise _ _ _ _ _ _ named other := by
    rw [other] at named
    exact absurd named (by decide)
  unsqueeze holds poses within kind _ _ _ := lengthens_unsqueeze holds poses within kind
  addInPlace _ _ _ _ _ _ named other := by
    rw [named] at other
    exact absurd other (by decide)
  missingRule := by
    intro _ _ _ _ _ _ _ _ _
    exact (still_log _).leaves_bind (fun _ => trivial) fun _ _ _ _ _ => leaves_fail trivial
  random _ _ _ _ _ _ named other := by
    rw [named] at other
    exact absurd other (by decide)

end

end LayeredDispatch
