import LayeredDispatch.Proofs.Results.Batches

/-! What the tags around a tensor remember of the operators that produced it. A tag is new when a
result leaves the body of a differentiation layer, and the body of that layer writes to it next; all
that layers do afterwards is to put wrappers around it and to bring its shape up to date. Main
statements: none of this changes what the tags below remember.
-/

namespace LayeredDispatch

open Run Dispatcher

/-- The tags around a tensor, outermost first: the level, and the operator that is recorded. -/
def Tensor.history (heap : Heap) : Tensor → List (Level × Option String)
  | .dense _ => []
  | .tagged cell level _ value => (level, (heap.wrapper cell).gradFn) :: value.history heap
  | .batched _ _ value => value.history heap

/-- The tags around a tensor were made one after another, all of them before the cell `bound`. -/
def Tensor.Stacked : Tensor → (bound : Nat) → Prop
  | .dense _, _ => True
  | .tagged cell _ _ value, bound => cell < bound ∧ value.Stacked cell
  | .batched _ _ value, bound => value.Stacked bound

section

variable {heap other : Heap} {tensor value : Tensor} {bound cell flag : Nat} {level : Level}
  {arguments : List Value}

/-- What tags remember is decided by their own cells, which have all been made before the bound. -/
theorem Tensor.Stacked.history_congr (h : tensor.Stacked bound)
    (same : ∀ cell < bound, (other.wrapper cell).gradFn = (heap.wrapper cell).gradFn)
    : tensor.history other = tensor.history heap := by
  induction tensor generalizing bound with
  | dense cell => rfl
  | tagged cell level flag value ih =>
      have inner := ih h.2 fun lower less => same lower (Nat.lt_trans less h.1)
      rw [history, history, same cell h.1, inner]
  | batched handle level value ih => exact ih h same

/-- A new tag remembers nothing. -/
theorem Heap.gradFn_newTagged (heap : Heap) (value : Tensor) (level : Level) (flag : Nat)
    : ((heap.newTagged value level flag).2.wrapper heap.wrappers.size).gradFn = none := by
  simp [newTagged, wrapper]

/-- A new tag is made after those of the value, and remembers nothing, while these remember what
they did.
-/
theorem Tensor.Stacked.newTagged (h : value.Stacked heap.wrappers.size)
    : (heap.newTagged value level flag).1.Stacked (heap.newTagged value level flag).2.wrappers.size
      ∧ (heap.newTagged value level flag).1.history (heap.newTagged value level flag).2
        = (level, none) :: value.history heap := by
  refine ⟨⟨by simp [Heap.newTagged], h⟩, ?_⟩
  have kept : value.history (heap.newTagged value level flag).2 = value.history heap := by
    refine h.history_congr fun cell present => ?_
    simp [Heap.newTagged, Heap.wrapper, Array.getElem?_push_lt present, present]
  rw [← kept, ← heap.gradFn_newTagged value level flag]
  rfl

/-- Looking again at a shape changes no record. -/
theorem Heap.gradFn_refresh (heap : Heap) (tensor : Tensor) (cell : Nat)
    : ((heap.refresh tensor).wrapper cell).gradFn = (heap.wrapper cell).gradFn := by
  cases tensor with
  | dense own => rfl
  | batched handle level value => rfl
  | tagged own level flag value =>
      by_cases same : own = cell
      · subst same
        by_cases present : own < heap.wrappers.size
        · rw [refresh, heap.wrapper_setWrapper_same _ _ present]
        · simp [refresh, setWrapper, Array.setIfInBounds, present]
      · rw [heap.wrapper_refresh_other same]

theorem Heap.gradFn_refreshAll (heap : Heap) (tensors : List Tensor) (cell : Nat)
    : ((tensors.foldl refresh heap).wrapper cell).gradFn = (heap.wrapper cell).gradFn := by
  induction tensors generalizing heap with
  | nil => rfl
  | cons tensor tensors ih => rw [List.foldl_cons, ih, heap.gradFn_refresh]

/-- Looking again at shapes makes no tag. -/
theorem Heap.size_refreshAll (heap : Heap) (tensors : List Tensor)
    : (tensors.foldl refresh heap).wrappers.size = heap.wrappers.size := by
  induction tensors generalizing heap with
  | nil => rfl
  | cons tensor tensors ih =>
      rw [List.foldl_cons, ih]
      cases tensor <;> simp [refresh, setWrapper]

/-- Recording an operator changes the record of the outermost tag only. The tags below it are in
other cells, since they were made earlier.
-/
theorem Tensor.Stacked.recordGradFn {name : String}
    (h : (Tensor.tagged cell level flag value).Stacked heap.wrappers.size)
    : (Tensor.tagged cell level flag value).history
          (heap.recordGradFn name (.tagged cell level flag value))
        = (level, some name) :: value.history heap
      ∧ (heap.recordGradFn name (.tagged cell level flag value)).wrappers.size
        = heap.wrappers.size := by
  constructor
  · have kept
        : value.history (heap.recordGradFn name (.tagged cell level flag value))
          = value.history heap := by
      refine h.2.history_congr fun lower less => ?_
      exact congrArg Wrapper.gradFn (heap.wrapper_setWrapper_other _ (Nat.ne_of_gt less))
    rw [Tensor.history, kept, Heap.recordGradFn, heap.wrapper_setWrapper_same _ _ h.1]
  · simp [Heap.recordGradFn, Heap.setWrapper]

end

end LayeredDispatch
