import LayeredDispatch.Machine.Layers
import LayeredDispatch.Machine.Values

/-! Values that cross a layer boundary: tagging them, taking tags off, and making sure that none is
left where there must be none. -/

namespace LayeredDispatch
namespace Run

/-- A tensor without the dead tags around it. -/
def unwrapDead (tensor : Tensor) : Run Tensor :=
  read fun machine => tensor.unwrapDead machine.heap

/-- The logical shape of a tensor. -/
def shapeOf (tensor : Tensor) : Run Shape :=
  read fun machine => tensor.shape machine.heap

/-- Makes a dense tensor. -/
def newDense (storage : Storage) : Run Tensor :=
  allocate fun heap => heap.newDense storage

/-- Marks the outermost dimension of a value as the batch dimension of `level`. -/
def batchAt (value : Tensor) (level : Level) : Run Tensor :=
  allocate fun heap => heap.newBatched value level

/-- Tags a value with a registered level, whose flag it shares. -/
def tagAt (value : Tensor) (level : Level) : Run Tensor := do
  let flag ← levelFlag level
  allocate fun heap => heap.newTagged value level flag

/-- Makes sure that a value is tagged at `level`. One tagged at a higher level has escaped from the
layer that produced it. -/
def materializeAt (value : Tensor) (level : Level) : Run Tensor := do
  match value.taggedLevel? with
  | none => tagAt value level
  | some tagged =>
      if tagged = level then return value
      else if tagged < level then tagAt value level
      else fault (.escaped tagged level)

/-- Takes the tag off if it is one of `level`. No value tagged above the level may leave it. -/
def unwrapAt (value : Tensor) (level : Level) : Run Tensor := do
  match value with
  | .tagged _ tagged _ inner =>
      if level < tagged then fault (.stillWrapped tagged level)
      else if tagged = level then return inner
      else return value
  | other => return other

/-- Requires that no wrapper but dead tags is left around the tensors among the boxed values from
`start` up to `stop`; `op` is the operator about to reach the base. -/
def requireUnwrapped (op : String) (start stop : Nat) : Run Unit := do
  let values ← read Machine.values
  if start ≤ stop ∧ stop ≤ values.length then
    forTensors ((values.take stop).drop start) fun tensor => do
      let bare ← unwrapDead tensor
      if !bare.isDense then
        fault (.wrappedAtBase op (← read fun machine => bare.render machine.heap))
  else fault .outOfBounds

end Run
end LayeredDispatch
