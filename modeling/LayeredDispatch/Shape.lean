/-! Shapes of dense tensors: dimension sizes, row-major strides and right-aligned broadcasting. Sizes are
unsigned 64-bit numbers: a product that does not fit is refused, and a buffer has fewer than `2 ^ 63`
bytes.
-/

namespace LayeredDispatch

-----------------------------------------------------------------------------------------
-- Sizes
-----------------------------------------------------------------------------------------

/-- A number of elements, a dimension or a level. -/
abbrev Size := Nat

namespace Size

/-- The least number too large to be a size. -/
def bound : Nat := UInt64.size

/-- The product of two sizes, if it is a size. -/
def mul? (left right : Size) : Option Size :=
  if left * right < bound then some (left * right) else none

/-- The difference of two sizes, if it is a size. -/
def sub? (left right : Size) : Option Size :=
  if right ≤ left then some (left - right) else none

/-- Whether a buffer can hold `count` numbers of eight bytes. -/
def fitsBuffer (count : Size) : Bool :=
  count * 8 < bound / 2

/-- The signed 64-bit number with the same bits. -/
def toSigned (size : Size) : Int :=
  Int.bmod size bound

/-- A product is a size exactly if it stays below the bound. -/
theorem mul?_eq_some_iff {left right product : Size}
    : mul? left right = some product ↔ left * right < bound ∧ left * right = product := by
  simp [mul?]

end Size

-----------------------------------------------------------------------------------------
-- Shapes
-----------------------------------------------------------------------------------------

/-- Dimension sizes, outermost first; a scalar has none. -/
structure Shape where
  /-- The sizes, outermost first. -/
  dims : List Size
  deriving DecidableEq, Inhabited

namespace Shape

/-- The shape without dimensions. -/
def scalar : Shape := ⟨[]⟩

/-- The number of dimensions. -/
def rank (shape : Shape) : Nat :=
  shape.dims.length

/-- The number of elements: the product of the dimensions, taken from the outermost one inwards.
There is none if a partial product is too large, even if a later dimension is zero. -/
def numel? (shape : Shape) : Option Size :=
  shape.dims.foldlM Size.mul? 1

/-- Row-major strides of `dims` together with the product of all of them, taken from the
innermost one outwards. A dimension of size one is never advanced along, so its stride is zero. -/
def stridesOf? : List Size → Option (List Size × Size)
  | [] => some ([], 1)
  | dim :: dims => do
      let (strides, inner) ← stridesOf? dims
      let outer ← Size.mul? inner dim
      return ((if dim = 1 then 0 else inner) :: strides, outer)

/-- Row-major strides under broadcasting. The outermost dimension is multiplied in as well, so
there are none where the product of all dimensions is too large. -/
def broadcastStrides? (shape : Shape) : Option (List Size) :=
  (stridesOf? shape.dims).map Prod.fst

/-- The shape without its outermost dimension. -/
def dropLeading (shape : Shape) : Shape :=
  ⟨shape.dims.drop 1⟩

/-- The shape with a new outermost dimension. -/
def withLeading (shape : Shape) (size : Size) : Shape :=
  ⟨size :: shape.dims⟩

/-- The shape with a dimension of size one inserted at position `dim`, if there is such a
position. -/
def unsqueeze? (shape : Shape) (dim : Nat) : Option Shape :=
  if dim ≤ shape.rank then some ⟨shape.dims.insertIdx dim 1⟩ else none

/-- The size to which two aligned dimensions broadcast: the common one, or the one that is not
one. -/
def joinDim? (left right : Size) : Option Size :=
  if left = right then some left
  else if left = 1 then some right
  else if right = 1 then some left
  else none

/-- Broadcasts dimension lists aligned at their heads; where one is longer, the other counts as
one. -/
def joinDims? : List Size → List Size → Option (List Size)
  | [], right => some right
  | left, [] => some left
  | dim :: left, other :: right => do
      let joined ← joinDim? dim other
      let rest ← joinDims? left right
      return joined :: rest

/-- The shape to which two shapes broadcast: dimensions are aligned at the innermost one, and
missing outer dimensions count as one. -/
def broadcast? (left right : Shape) : Option Shape :=
  (joinDims? left.dims.reverse right.dims.reverse).map fun dims => ⟨dims.reverse⟩

/-- The sizes between brackets, outermost first. -/
def render (shape : Shape) : String :=
  "[" ++ String.intercalate ", " (shape.dims.map toString) ++ "]"

end Shape
end LayeredDispatch
