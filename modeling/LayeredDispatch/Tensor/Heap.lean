import LayeredDispatch.Storage.Basic

/-! The store behind tensors: dense storages, the changeable parts of tagged wrappers, and liveness
flags. Every part is reached by a number that is given out once. -/

namespace LayeredDispatch

/-- The changeable parts of a tagged wrapper. -/
structure Wrapper where
  /-- The shape of the wrapped value when it was last looked at. -/
  shape : Shape
  /-- The operator that produced the value, if history was recorded. -/
  gradFn : Option String := none
  deriving DecidableEq, Inhabited

/-- Everything that tensors share and change. -/
structure Heap where
  /-- Contents of dense tensors. -/
  storages : Array Storage := #[]
  /-- Changeable parts of tagged wrappers. -/
  wrappers : Array Wrapper := #[]
  /-- Liveness flags. -/
  flags : Array Bool := #[]
  /-- The number of batched wrappers made so far. -/
  batchCount : Nat := 0
  deriving Inhabited

namespace Heap

/-- The storage with a given number. -/
def storage (heap : Heap) (cell : Nat) : Storage :=
  heap.storages.getD cell default

/-- Replaces a storage. -/
def setStorage (heap : Heap) (cell : Nat) (storage : Storage) : Heap :=
  { heap with storages := heap.storages.setIfInBounds cell storage }

/-- The wrapper parts with a given number. -/
def wrapper (heap : Heap) (cell : Nat) : Wrapper :=
  heap.wrappers.getD cell default

/-- Replaces wrapper parts. -/
def setWrapper (heap : Heap) (cell : Nat) (wrapper : Wrapper) : Heap :=
  { heap with wrappers := heap.wrappers.setIfInBounds cell wrapper }

/-- Whether a flag is still alive. -/
def isAlive (heap : Heap) (flag : Nat) : Bool :=
  heap.flags.getD flag false

/-- Adds a flag that is alive, and gives its number. -/
def addFlag (heap : Heap) : Nat × Heap :=
  (heap.flags.size, { heap with flags := heap.flags.push true })

/-- Kills a flag for good. -/
def killFlag (heap : Heap) (flag : Nat) : Heap :=
  { heap with flags := heap.flags.setIfInBounds flag false }

/-- The report text of a flag. -/
def renderFlag (heap : Heap) (flag : Nat) : String :=
  "LivenessHandle(" ++ (if heap.isAlive flag then "alive" else "dead") ++ ")"

-----------------------------------------------------------------------------------------
-- Reading after writing
-----------------------------------------------------------------------------------------

/-- A written storage reads back. -/
theorem storage_setStorage_same (heap : Heap) (cell : Nat) (storage : Storage)
    (present : cell < heap.storages.size)
    : (heap.setStorage cell storage).storage cell = storage := by
  simp [Heap.storage, setStorage, present]

/-- Writing a storage leaves the others as they are. -/
theorem storage_setStorage_other (heap : Heap) {cell other : Nat} (storage : Storage)
    (apart : cell ≠ other)
    : (heap.setStorage cell storage).storage other = heap.storage other := by
  simp [Heap.storage, setStorage, Array.getElem?_setIfInBounds_ne apart]

/-- Written wrapper parts read back. -/
theorem wrapper_setWrapper_same (heap : Heap) (cell : Nat) (wrapper : Wrapper)
    (present : cell < heap.wrappers.size)
    : (heap.setWrapper cell wrapper).wrapper cell = wrapper := by
  simp [Heap.wrapper, setWrapper, present]

/-- Writing wrapper parts leaves the others as they are. -/
theorem wrapper_setWrapper_other (heap : Heap) {cell other : Nat} (wrapper : Wrapper)
    (apart : cell ≠ other)
    : (heap.setWrapper cell wrapper).wrapper other = heap.wrapper other := by
  simp [Heap.wrapper, setWrapper, Array.getElem?_setIfInBounds_ne apart]

/-- A killed flag is dead. -/
theorem isAlive_killFlag_same (heap : Heap) (flag : Nat)
    : (heap.killFlag flag).isAlive flag = false := by
  by_cases present : flag < heap.flags.size <;> simp [isAlive, killFlag, present]

/-- Killing a flag leaves the others as they are. -/
theorem isAlive_killFlag_other (heap : Heap) {flag other : Nat} (apart : flag ≠ other)
    : (heap.killFlag flag).isAlive other = heap.isAlive other := by
  simp [isAlive, killFlag, Array.getElem?_setIfInBounds_ne apart]

end Heap
end LayeredDispatch
