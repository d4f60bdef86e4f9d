import LayeredDispatch.Proofs.Dispatch.Leaves
import LayeredDispatch.Proofs.Families.Slices

/-! What calls do to the memory that they find. Shapes that tags remember may only be brought up to
date, and whether they are is a question about the dense storage below all tags. Main statements: a
tensor whose tags are up to date has the shape of its storage; bringing further tags up to date makes
none of them stale.
-/

namespace LayeredDispatch

/-- The shape of a tensor as its dense storage has it, whatever the tags around it remember. -/
def Tensor.actualShape (heap : Heap) : Tensor → Shape
  | .dense cell => (heap.storage cell).shape
  | .tagged _ _ _ value => value.actualShape heap
  | .batched _ _ value => (value.actualShape heap).dropLeading

/-- What is known of the tags that were there at some time: how many there were, and which values
they wrap, as far as handles tell.
-/
structure Census where
  count : Nat
  wraps : Nat → Tensor → Prop

namespace Tensor

/-- A tensor around which all tags that were there are known to wrap what they wrap in it. -/
def Known (census : Census) : Tensor → Prop
  | .dense _ => True
  | .tagged cell _ _ value =>
      (cell < census.count → census.wraps cell value) ∧ value.Known census
  | .batched _ _ value => value.Known census

/-- A tensor around which there are no tags but those that were there. -/
def Old (census : Census) : Tensor → Prop
  | .dense _ => True
  | .tagged cell _ _ value => cell < census.count ∧ value.Old census
  | .batched _ _ value => value.Old census

/-- A tensor around which the live tags that were there are up to date. -/
def Settled (census : Census) (heap : Heap) : Tensor → Prop
  | .dense _ => True
  | .tagged cell _ flag value =>
      (cell < census.count
        → heap.isAlive flag = true
        → (heap.wrapper cell).shape = value.actualShape heap)
      ∧ value.Settled census heap
  | .batched _ _ value => value.Settled census heap

end Tensor

/-- Known values have been there as well, and those of one tag do not differ in shape. -/
structure Census.Sound (census : Census) (heap : Heap) : Prop where
  counted : census.count ≤ heap.wrappers.size
  known : ∀ {cell value}, census.wraps cell value → value.Known census
  old : ∀ {cell value}, census.wraps cell value → value.Old census
  present : ∀ {cell value}, census.wraps cell value → value.baseCell < heap.storages.size
  single
    : ∀ {cell value other},
        census.wraps cell value
        → census.wraps cell other
        → value.actualShape heap = other.actualShape heap

/-- The tags that were there remember what they did, or what they should now. -/
def Census.Refreshed (census : Census) (before after : Heap) : Prop :=
  ∀ cell < census.count,
    (after.wrapper cell).shape = (before.wrapper cell).shape
    ∨ ∃ value,
        census.wraps cell value
        ∧ (after.wrapper cell).shape = value.actualShape after
        ∧ value.Settled census after

/-- A heap in which all storages of another one have the shapes, and the numbers of elements that
suit them, that they had. -/
def Heap.Holds (before after : Heap) : Prop :=
  ∀ cell < before.storages.size,
    cell < after.storages.size
    ∧ (after.storage cell).shape = (before.storage cell).shape
    ∧ ((before.storage cell).Sized → (after.storage cell).Sized)

section

variable {census : Census} {before middle after heap : Heap} {tensor value : Tensor}

theorem Heap.Holds.refl (heap : Heap) : heap.Holds heap :=
  fun _ present => ⟨present, rfl, id⟩

/-- Shapes that are held twice are held. -/
theorem Heap.Holds.trans (first : before.Holds middle) (second : middle.Holds after)
    : before.Holds after := by
  intro cell present
  obtain ⟨inside, same, sized⟩ := first cell present
  obtain ⟨inside', same', sized'⟩ := second cell inside
  exact ⟨inside', same'.trans same, fun whole => sized' (sized whole)⟩

namespace Tensor

/-- The actual shape of a tensor stays while the shapes of storages are held. -/
theorem actualShape_congr (holds : before.Holds after)
    (present : tensor.baseCell < before.storages.size)
    : tensor.actualShape after = tensor.actualShape before := by
  induction tensor with
  | dense cell => exact (holds cell present).2.1
  | tagged cell level flag value ih => exact ih present
  | batched handle level value ih => rw [actualShape, actualShape, ih present]

/-- Where all tags are up to date, the shape is that of the storage. The outermost tag remembers the
shape of its value, which is settled itself.
-/
theorem Settled.shape_eq (settled : tensor.Settled census heap) (old : tensor.Old census)
    : tensor.shape heap = tensor.actualShape heap := by
  induction tensor with
  | dense cell => rfl
  | tagged cell level flag value ih =>
      rw [shape, actualShape]
      split
      · rename_i alive
        exact settled.1 old.1 alive
      · exact ih settled.2 old.2
  | batched handle level value ih => rw [shape, actualShape, ih settled old]

/-- Taking dead tags off leaves a known tensor. -/
theorem Known.unwrapDead (h : tensor.Known census) : (tensor.unwrapDead heap).Known census := by
  induction tensor with
  | dense cell => trivial
  | tagged cell level flag value ih =>
      rw [Tensor.unwrapDead]
      split
      · exact h
      · exact ih h.2
  | batched handle level value ih => exact h

/-- Dead tags need not be up to date, since nobody looks at what they remember. -/
theorem Settled.of_unwrapDead (h : (tensor.unwrapDead heap).Settled census after)
    (flags : after.flags = heap.flags)
    : tensor.Settled census after := by
  induction tensor with
  | dense cell => trivial
  | tagged cell level flag value ih =>
      rw [Tensor.unwrapDead] at h
      split at h
      · exact h
      · rename_i dead
        refine ⟨fun _ alive => absurd ?_ dead, ih h⟩
        rwa [Heap.isAlive, ← flags]
  | batched handle level value ih => exact h

/-- Nor do they change which storage is at the bottom. -/
theorem baseCell_unwrapDead (heap : Heap) (tensor : Tensor)
    : (tensor.unwrapDead heap).baseCell = tensor.baseCell := by
  induction tensor with
  | dense cell => rfl
  | tagged cell level flag value ih =>
      rw [unwrapDead]
      split
      · rfl
      · exact ih
  | batched handle level value ih => rfl

end Tensor

theorem Census.Refreshed.refl (census : Census) (heap : Heap) : census.Refreshed heap heap :=
  fun _ _ => Or.inl rfl

/-- Tags that are up to date stay so while others are brought up to date. A tag that was looked at
again in between remembers what it should, by what is known of its value.
-/
theorem Tensor.Settled.later (h : tensor.Settled census before) (known : tensor.Known census)
    (sound : census.Sound before) (holds : before.Holds after)
    (flags : after.flags = before.flags) (refreshed : census.Refreshed before after)
    : tensor.Settled census after := by
  induction tensor with
  | dense cell => trivial
  | tagged cell level flag value ih =>
      refine ⟨fun there alive => ?_, ih h.2 known.2⟩
      have wraps := known.1 there
      have same := actualShape_congr holds (sound.present wraps)
      rw [Heap.isAlive, flags] at alive
      rcases refreshed cell there with kept | ⟨other, wraps', shape, -⟩
      · rw [kept, h.1 there alive, same]
      · rw [shape, actualShape_congr holds (sound.present wraps'), same, sound.single wraps' wraps]
  | batched handle level value ih => exact ih h known

/-- What is known of tags stays true as long as shapes are held and no wrapper is lost. -/
theorem Census.Sound.later (sound : census.Sound before) (holds : before.Holds after)
    (counted : before.wrappers.size ≤ after.wrappers.size)
    : census.Sound after where
  counted := Nat.le_trans sound.counted counted
  known := sound.known
  old := sound.old
  present wraps := (holds _ (sound.present wraps)).1
  single wraps wraps' := by
    rw [Tensor.actualShape_congr holds (sound.present wraps),
      Tensor.actualShape_congr holds (sound.present wraps'), sound.single wraps wraps']

/-- Tags that were brought up to date, and then others, are up to date. -/
theorem Census.Refreshed.trans (first : census.Refreshed before middle)
    (second : census.Refreshed middle after) (sound : census.Sound middle)
    (holds : middle.Holds after) (flags : after.flags = middle.flags)
    : census.Refreshed before after := by
  intro cell there
  rcases second cell there with kept | given
  · rcases first cell there with kept' | ⟨value, wraps, shape, settled⟩
    · exact Or.inl (kept.trans kept')
    · refine Or.inr ⟨value, wraps, ?_, settled.later (sound.known wraps) sound holds flags second⟩
      rw [kept, shape, Tensor.actualShape_congr holds (sound.present wraps)]
  · exact Or.inr given

/-- Where only tags that are not among those that were there change, these stay as they are. -/
theorem Census.Refreshed.of_eq
    (same : ∀ cell < census.count, (after.wrapper cell).shape = (before.wrapper cell).shape)
    : census.Refreshed before after :=
  fun cell there => Or.inl (same cell there)

theorem Heap.wrapper_refresh_other (heap : Heap) {cell other level flag : Nat}
    (apart : cell ≠ other)
    : (heap.refresh (.tagged cell level flag value)).wrapper other = heap.wrapper other :=
  Heap.wrapper_setWrapper_other heap _ apart

theorem Tensor.actualShape_of_storages (same : after.storages = before.storages)
    (tensor : Tensor)
    : tensor.actualShape after = tensor.actualShape before := by
  induction tensor with
  | dense cell => rw [actualShape, actualShape, Heap.storage, Heap.storage, same]
  | tagged cell level flag value ih => exact ih
  | batched handle level value ih => rw [actualShape, actualShape, ih]

/-- Looking again at the shape of a value that is settled brings its tag up to date. It may be a tag
that wraps another value elsewhere among the arguments; what is known says that both have the same
shape.
-/
theorem Census.Sound.refresh {cell level flag : Nat} (sound : census.Sound heap)
    (known : (Tensor.tagged cell level flag value).Known census)
    (settled : value.Settled census heap)
    : census.Refreshed heap (heap.refresh (.tagged cell level flag value))
      ∧ (Tensor.tagged cell level flag value).Settled census
          (heap.refresh (.tagged cell level flag value)) := by
  let later := heap.refresh (.tagged cell level flag value)
  have holds : heap.Holds later := fun _ present => ⟨present, rfl, id⟩
  have actual : ∀ tensor : Tensor, tensor.actualShape later = tensor.actualShape heap :=
    Tensor.actualShape_of_storages rfl
  by_cases there : cell < census.count
  · have wraps := known.1 there
    have inside : cell < heap.wrappers.size := Nat.lt_of_lt_of_le there sound.counted
    have written : (later.wrapper cell).shape = value.actualShape later := by
      rw [actual, ← settled.shape_eq (sound.old wraps)]
      exact congrArg Wrapper.shape (Heap.wrapper_setWrapper_same heap cell _ inside)
    -- The value is settled before and after: its own tags are written only with what they should be.
    have keeps (tensor : Tensor) (known : tensor.Known census) (settled : tensor.Settled census heap)
        : tensor.Settled census later := by
      induction tensor with
      | dense cell => trivial
      | tagged own level flag inner ih =>
          refine ⟨fun there' alive => ?_, ih known.2 settled.2⟩
          by_cases same : cell = own
          · subst same
            rw [written, actual, actual, sound.single wraps (known.1 there')]
          · rw [actual, Heap.wrapper_refresh_other heap same, settled.1 there' alive]
      | batched handle level inner ih => exact ih known settled
    have settled' := keeps value known.2 settled
    refine ⟨fun other there' => ?_, fun _ _ => written, settled'⟩
    by_cases same : cell = other
    · subst same
      exact Or.inr ⟨value, wraps, written, settled'⟩
    · exact Or.inl (congrArg Wrapper.shape (Heap.wrapper_refresh_other heap same))
  · have kept
        : ∀ other < census.count, (later.wrapper other).shape = (heap.wrapper other).shape := by
      intro other there'
      have apart : cell ≠ other := fun same => there (same ▸ there')
      exact congrArg Wrapper.shape (Heap.wrapper_refresh_other heap apart)
    have refreshed : census.Refreshed heap later := .of_eq kept
    refine ⟨refreshed, fun there' => absurd there' there, ?_⟩
    exact settled.later known.2 sound holds rfl refreshed

end

end LayeredDispatch
