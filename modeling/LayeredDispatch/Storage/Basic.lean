import LayeredDispatch.Outcome

/-! Dense storage: a shape and its elements in row-major order. -/

namespace LayeredDispatch

/-- The contents of a dense tensor. Whether the number of elements fits the shape is up to those
who build and change it. -/
structure Storage where
  /-- The shape of the elements. -/
  shape : Shape
  /-- The elements in row-major order. -/
  data : Array Float
  deriving Inhabited

namespace Storage

/-- Storage whose number of elements fits its shape. -/
def ofData (shape : Shape) (data : Array Float) : Outcome Storage := do
  let count ← Outcome.orFault shape.numel? .overflow
  if data.size = count then return ⟨shape, data⟩
  else Outcome.fault (.lengthMismatch data.size shape)

/-- A single element without dimensions. -/
def scalar (value : Float) : Storage :=
  ⟨.scalar, #[value]⟩

/-- Storage filled with zeros. -/
def zeros (shape : Shape) : Outcome Storage := do
  let count ← Outcome.orFault shape.numel? .overflow
  Outcome.checkCapacity count
  return ⟨shape, Array.replicate count 0⟩

/-- The storage with another shape: elements are dropped at the end, or zeros added. -/
def resize (storage : Storage) (shape : Shape) : Outcome Storage := do
  let count ← Outcome.orFault shape.numel? .overflow
  Outcome.checkCapacity count
  let kept := storage.data.take count
  return ⟨shape, kept ++ Array.replicate (count - kept.size) 0⟩

end Storage
end LayeredDispatch
