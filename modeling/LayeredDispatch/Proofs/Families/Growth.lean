import LayeredDispatch.Proofs.Families.Requests
import LayeredDispatch.Proofs.Families.WellFormed
import LayeredDispatch.Proofs.Wrappers.Ownership

/-! Heaps that grow: what is there stays as it is, apart from what is remembered of how a value was
produced. Main statements: families do not change as the heap grows; an answer to a request of
operands that stand in for others is an answer to the request of these.
-/

namespace LayeredDispatch

/-- All storages, shapes and flags of a heap are still there in another one. -/
structure Heap.Grows (before after : Heap) : Prop where
  flags : after.flags = before.flags
  storages
    : ∀ cell < before.storages.size,
        cell < after.storages.size ∧ after.storage cell = before.storage cell
  wrappers
    : ∀ cell < before.wrappers.size,
        cell < after.wrappers.size
        ∧ (after.wrapper cell).shape = (before.wrapper cell).shape

namespace Heap

theorem Grows.refl (heap : Heap) : heap.Grows heap :=
  ⟨rfl, fun _ present => ⟨present, rfl⟩, fun _ present => ⟨present, rfl⟩⟩

/-- A heap that grows twice has grown. -/
theorem Grows.trans {before middle after : Heap} (first : before.Grows middle)
    (second : middle.Grows after)
    : before.Grows after := by
  refine ⟨second.flags.trans first.flags, fun cell present => ?_, fun cell present => ?_⟩
  · obtain ⟨inside, same⟩ := first.storages cell present
    obtain ⟨inside', same'⟩ := second.storages cell inside
    exact ⟨inside', same'.trans same⟩
  · obtain ⟨inside, same⟩ := first.wrappers cell present
    obtain ⟨inside', same'⟩ := second.wrappers cell inside
    exact ⟨inside', same'.trans same⟩

/-- A new storage is put behind the others. -/
theorem grows_newDense (heap : Heap) (storage : Storage) : heap.Grows (heap.newDense storage).2 := by
  refine ⟨rfl, fun cell present => ?_, fun cell present => ⟨present, rfl⟩⟩
  refine ⟨by simp only [newDense, Array.size_push]; omega, ?_⟩
  simp only [Heap.storage, newDense, Array.getD_eq_getD_getElem?, Array.getElem?_push,
    Nat.ne_of_lt present, if_false]

/-- A new tag has a cell of its own behind the others. -/
theorem grows_newTagged (heap : Heap) (value : Tensor) (level : Level) (flag : Nat)
    : heap.Grows (heap.newTagged value level flag).2 := by
  refine ⟨rfl, fun cell present => ⟨present, rfl⟩, fun cell present => ?_⟩
  refine ⟨by simp only [newTagged, Array.size_push]; omega, ?_⟩
  simp only [Heap.wrapper, newTagged, Array.getD_eq_getD_getElem?, Array.getElem?_push,
    Nat.ne_of_lt present, if_false]

/-- A new batch wrapper has no cell at all. -/
theorem grows_newBatched (heap : Heap) (value : Tensor) (level : Level)
    : heap.Grows (heap.newBatched value level).2 :=
  ⟨rfl, fun _ present => ⟨present, rfl⟩, fun _ present => ⟨present, rfl⟩⟩

/-- A wrapper may be rewritten if its remembered shape is kept. What it remembers of how the value
was produced is of no account to families.
-/
theorem grows_setWrapper {heap : Heap} {cell : Nat} {wrapper : Wrapper}
    (same : wrapper.shape = (heap.wrapper cell).shape)
    : heap.Grows (heap.setWrapper cell wrapper) := by
  refine ⟨rfl, fun other present => ⟨present, rfl⟩, fun other present => ?_⟩
  refine ⟨by simpa [setWrapper] using present, ?_⟩
  by_cases apart : cell = other
  · subst apart
    rw [wrapper_setWrapper_same heap cell wrapper present, same]
  · rw [wrapper_setWrapper_other heap wrapper apart]

/-- Recording an operator keeps the remembered shape. -/
theorem grows_recordGradFn (heap : Heap) (op : String) (tensor : Tensor)
    : heap.Grows (heap.recordGradFn op tensor) := by
  cases tensor with
  | tagged cell level flag value => exact grows_setWrapper rfl
  | dense cell => exact .refl heap
  | batched handle level value => exact .refl heap

/-- Looking again at a shape that was remembered accurately changes nothing. -/
theorem grows_refresh {heap : Heap} {layers : List Layer} {tensor : Tensor}
    (h : tensor.Fits heap layers)
    : heap.Grows (heap.refresh tensor) := by
  cases tensor with
  | tagged cell level flag value =>
      obtain ⟨-, -, -, accurate, -⟩ := h.suits
      exact grows_setWrapper accurate.symm
  | dense cell => exact .refl heap
  | batched handle level value => exact .refl heap

/-- Looking again at tags changes no storage and no flag. -/
theorem storages_refreshAll (heap : Heap) (tensors : List Tensor)
    : (tensors.foldl refresh heap).storages = heap.storages
      ∧ (tensors.foldl refresh heap).flags = heap.flags := by
  induction tensors generalizing heap with
  | nil => exact ⟨rfl, rfl⟩
  | cons tensor tensors ih =>
      obtain ⟨storages, flags⟩ := ih (heap.refresh tensor)
      cases tensor <;> exact ⟨storages, flags⟩

end Heap

/-- A tensor of a later heap that fits the layers and stands in for a tensor of an earlier heap: both
read as the same family.
-/
structure Tensor.StandsFor (layers : List Layer) (before : Heap) (tensor : Tensor) (after : Heap)
    (other : Tensor)
    : Prop where
  fits : other.Fits after layers
  shape : other.shape after = tensor.shape before
  member : ∀ index, other.member after index = tensor.member before index

namespace Tensor

variable {heap before after : Heap} {layers : List Layer} {tensor other : Tensor}

/-- Growth of the heap changes no family: what a tensor is made of is still there, and the flags are
the same.
-/
theorem Fits.grows (h : tensor.Fits before layers) (grows : before.Grows after)
    : Tensor.StandsFor layers before tensor after tensor := by
  induction h with
  | dense present sized =>
      obtain ⟨inside, same⟩ := grows.storages _ present
      refine ⟨.dense inside (by rwa [same]), ?_, fun index => same⟩
      rw [Tensor.shape, same]
      rfl
  | alone fits ih => exact ⟨.alone ih.fits, ih.shape, ih.member⟩
  | tagged kind alive present accurate fits ih =>
      obtain ⟨inside, same⟩ := grows.wrappers _ present
      have alive' := (Heap.isAlive_congr grows.flags _).trans alive
      refine ⟨.tagged kind alive' inside (by rw [same, accurate, ih.shape]) ih.fits, ?_, ih.member⟩
      rw [Tensor.shape, Tensor.shape, if_pos alive', if_pos alive, same]
  | batched batch outermost fits ih =>
      refine ⟨.batched batch (by rwa [ih.shape]) ih.fits, ?_, fun index => ?_⟩
      · rw [Tensor.shape, Tensor.shape, ih.shape]
      · rw [Tensor.member, Tensor.member, ih.member]

theorem Fits.standsFor (h : tensor.Fits heap layers) : Tensor.StandsFor layers heap tensor heap tensor :=
  ⟨h, rfl, fun _ => rfl⟩

/-- What stands in for a stand-in stands in for the tensor itself. -/
theorem StandsFor.trans {inner : List Layer} {middle : Heap} {between : Tensor}
    (first : Tensor.StandsFor inner before tensor middle between)
    (second : Tensor.StandsFor layers middle between after other)
    : Tensor.StandsFor layers before tensor after other :=
  ⟨second.fits, second.shape.trans first.shape,
    fun index => (second.member index).trans (first.member index)⟩

/-- A stand-in stays one as the heap grows. -/
theorem StandsFor.grows {later : Heap} (h : Tensor.StandsFor layers before tensor after other)
    (grows : after.Grows later)
    : Tensor.StandsFor layers before tensor later other :=
  h.trans (h.fits.grows grows)

end Tensor
end LayeredDispatch
