import LayeredDispatch.Storage.Basic

/-! Element-wise arithmetic on dense storage, with right-aligned broadcasting. -/

namespace LayeredDispatch
namespace Storage

/-- The flat index into an operand that belongs to flat index `flat` of a result. Result sizes and
operand strides are listed innermost first; dimensions that the operand lacks add nothing. -/
def operandIndex : (sizes strides : List Size) → (flat : Nat) → Nat
  | size :: sizes, stride :: strides, flat =>
      flat % size * stride + operandIndex sizes strides (flat / size)
  | _, _, _ => 0

/-- A flat index is split by dividing by all sizes of the result, none of which may be zero. -/
def checkDivisors (sizes : List Size) : Outcome Unit :=
  if sizes.contains 0 then Outcome.fault .divisionByZero else .ok ()

/-- For every flat index of `result` the flat index that it reads of an operand of shape
`operand`. -/
def operandIndices (result operand : Shape) : Outcome (List Nat) := do
  let strides ← Outcome.orFault operand.broadcastStrides? .overflow
  let count ← Outcome.orFault result.numel? .overflow
  Outcome.checkCapacity count
  (List.range count).mapM fun flat => do
    checkDivisors result.dims
    return operandIndex result.dims.reverse strides.reverse flat

/-- The element at a flat index. -/
def read (storage : Storage) (index : Nat) : Outcome Float :=
  Outcome.orFault storage.data[index]? .outOfBounds

/-- Combines two operands element by element after broadcasting; `op` names the operator in a
refusal. -/
def broadcastBinary (op : String) (left right : Storage) (combine : Float → Float → Float)
    : Outcome Storage := do
  match left.shape.broadcast? right.shape with
  | none => Outcome.fail (.shapeMismatch op left.shape right.shape)
  | some shape =>
      let leftIndices ← operandIndices shape left.shape
      let rightIndices ← operandIndices shape right.shape
      let elements ← (leftIndices.zip rightIndices).mapM fun (i, j) => do
        return combine (← left.read i) (← right.read j)
      return ⟨shape, elements.toArray⟩

/-- Applies a function to every element. -/
def map (transform : Float → Float) (storage : Storage) : Storage :=
  { storage with data := storage.data.map transform }

/-- The sum of the elements in order. It starts from negative zero, the neutral element of
floating-point addition, so the sum of nothing is negative zero. -/
def sum (storage : Storage) : Float :=
  storage.data.foldl (· + ·) (-0.0)

end Storage
end LayeredDispatch
