import LayeredDispatch.Decimal
import LayeredDispatch.Tensor.Heap

/-! Tensors: handles to dense storage, to values tagged with the level that produced them, and to
values with a batch dimension. Copies of a handle share what it leads to. -/

namespace LayeredDispatch

/-- A handle. The numbers lead into a heap or merely tell handles apart. -/
inductive Tensor where
  /-- A dense tensor. -/
  | dense (cell : Nat)
  /-- A value tagged with `level`; `flag` tells whether that level is still active. -/
  | tagged (cell : Nat) (level : Level) (flag : Nat) (value : Tensor)
  /-- A value whose outermost dimension is the batch dimension of `level`. -/
  | batched (handle : Nat) (level : Level) (value : Tensor)
  deriving DecidableEq, Inhabited

namespace Heap

/-- Makes a dense tensor. -/
def newDense (heap : Heap) (storage : Storage) : Tensor × Heap :=
  (.dense heap.storages.size, { heap with storages := heap.storages.push storage })

end Heap

namespace Tensor

/-- The logical shape: the remembered one of a live tagged value, that of the wrapped value once
the tag is dead, and the shape of one entry of a batched value. -/
def shape (heap : Heap) : Tensor → Shape
  | .dense cell => (heap.storage cell).shape
  | .tagged cell _ flag value =>
      if heap.isAlive flag then (heap.wrapper cell).shape else value.shape heap
  | .batched _ _ value => (value.shape heap).dropLeading

/-- The hooks that a call with this argument can reach. -/
def capabilities (heap : Heap) : Tensor → CapabilitySet
  | .dense _ => .only .backend
  | .tagged _ _ flag _ =>
      if heap.isAlive flag then .ofList [.taggedWrapper, .differentiation, .inplaceOrView]
      else .only .taggedWrapper
  | .batched .. => .only .batched

/-- The number of the dense storage below all wrappers. -/
def baseCell : Tensor → Nat
  | .dense cell => cell
  | .tagged _ _ _ value => value.baseCell
  | .batched _ _ value => value.baseCell

/-- The elements below all wrappers. -/
def data (heap : Heap) (tensor : Tensor) : Array Float :=
  (heap.storage tensor.baseCell).data

/-- The value below the outermost wrapper, if there is one. -/
def underlying? : Tensor → Option Tensor
  | .dense _ => none
  | .tagged _ _ _ value => some value
  | .batched _ _ value => some value

/-- The level of a tag, if the outermost wrapper is one. -/
def taggedLevel? : Tensor → Option Level
  | .tagged _ level _ _ => some level
  | _ => none

/-- Whether no wrapper is left. -/
def isDense : Tensor → Bool
  | .dense _ => true
  | _ => false

/-- The size of the batch dimension of a wrapped value; a value without dimensions counts as one
entry. -/
def batchSize (heap : Heap) (value : Tensor) : Size :=
  (value.shape heap).dims.head?.getD 1

/-- The value with its batch dimension, if it is batched at `level`. -/
def physicalAt? (level : Level) : Tensor → Option Tensor
  | .batched _ own value => if own = level then some value else none
  | _ => none

/-- The value without the dead tags around it. -/
def unwrapDead (heap : Heap) : Tensor → Tensor
  | .tagged cell level flag value =>
      if heap.isAlive flag then .tagged cell level flag value else value.unwrapDead heap
  | tensor => tensor

/-- The report text. -/
def render (heap : Heap) : Tensor → String
  | .dense cell =>
      let storage := heap.storage cell
      "Dense(" ++ storage.shape.render ++ ", ["
        ++ String.intercalate ", " (storage.data.toList.map (Decimal.renderFloat .report)) ++ "])"
  | .tagged _ level flag value =>
      "Tagged(level=" ++ toString level ++ ", " ++ (if heap.isAlive flag then "alive" else "dead")
        ++ ", " ++ value.render heap ++ ")"
  | .batched _ level value =>
      "Batched(level=" ++ toString level ++ ", " ++ value.render heap ++ ")"

/-- Whether two handles lead to the same value. -/
def isSame : Tensor → Tensor → Bool
  | .dense cell, .dense other => cell == other
  | .tagged cell .., .tagged other .. => cell == other
  | .batched handle .., .batched other .. => handle == other
  | _, _ => false

end Tensor

namespace Heap

/-- Tags a value. The shape that it has now is remembered. -/
def newTagged (heap : Heap) (value : Tensor) (level : Level) (flag : Nat) : Tensor × Heap :=
  (.tagged heap.wrappers.size level flag value,
    { heap with wrappers := heap.wrappers.push { shape := value.shape heap } })

/-- Marks the outermost dimension of a value as a batch dimension. -/
def newBatched (heap : Heap) (value : Tensor) (level : Level) : Tensor × Heap :=
  (.batched heap.batchCount level value, { heap with batchCount := heap.batchCount + 1 })

/-- Looks again at the shape of the value below a tag. -/
def refresh (heap : Heap) : Tensor → Heap
  | .tagged cell _ _ value =>
      heap.setWrapper cell { heap.wrapper cell with shape := value.shape heap }
  | _ => heap

/-- Records the operator that produced a tagged value. -/
def recordGradFn (heap : Heap) (op : String) : Tensor → Heap
  | .tagged cell .. => heap.setWrapper cell { heap.wrapper cell with gradFn := some op }
  | _ => heap

end Heap
end LayeredDispatch
