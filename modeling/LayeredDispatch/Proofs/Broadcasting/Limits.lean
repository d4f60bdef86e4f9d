import LayeredDispatch.Proofs.Broadcasting.Alignment
import LayeredDispatch.Proofs.Families.Slices
import Mathlib.Algebra.BigOperators.Ring.List
import Mathlib.Algebra.GroupWithZero.Nat

/-! Which sizes element-wise operators compute on the way. Counting the elements of a shape multiplies its
dimensions from the outermost one inwards, finding its strides multiplies them from the innermost one
outwards, and a dimension of size zero on one side of the shape does not keep the products on the other
side small. Main statement: on storage that has been counted these products decide whether an element-wise
operator gives a result.
-/

namespace LayeredDispatch

namespace Shape

/-- The products of outermost dimensions are sizes. -/
def FitsInwards (shape : Shape) : Prop :=
  ∀ count, (shape.dims.take count).prod < Size.bound

/-- The products of innermost dimensions are sizes. -/
def FitsOutwards (shape : Shape) : Prop :=
  ∀ count, (shape.dims.drop count).prod < Size.bound

/-- A product that is taken step by step gives a size exactly if all products on the way are sizes.
The induction is on the factors, and the start is general since it collects them.
-/
theorem foldlM_mul?_eq_some_iff {dims : List Nat} {start total : Nat} (fits : start < Size.bound)
    : dims.foldlM Size.mul? start = some total
      ↔ (∀ count, start * (dims.take count).prod < Size.bound) ∧ start * dims.prod = total := by
  induction dims generalizing start with
  | nil => simp [fits]
  | cons dim dims ih =>
      rw [List.foldlM_cons, ← Nat.and_forall_add_one]
      simp only [Option.bind_eq_bind, Option.bind_eq_some_iff, Size.mul?_eq_some_iff, List.take_zero,
        List.take_succ_cons, List.prod_nil, List.prod_cons, ← Nat.mul_assoc]
      constructor
      · rintro ⟨_, ⟨less, rfl⟩, counted⟩
        exact ⟨⟨by simpa using fits, ((ih less).mp counted).1⟩, ((ih less).mp counted).2⟩
      · rintro ⟨⟨-, inner⟩, total⟩
        have less : start * dim < Size.bound := by simpa using inner 0
        exact ⟨_, ⟨less, rfl⟩, (ih less).mpr ⟨inner, total⟩⟩

/-- The elements of a shape can be counted exactly if the products on the way inwards are sizes. -/
theorem numel?_eq_some_iff {shape : Shape} {total : Nat}
    : shape.numel? = some total ↔ shape.FitsInwards ∧ shape.dims.prod = total := by
  simpa [FitsInwards, numel?] using @foldlM_mul?_eq_some_iff shape.dims 1 total (by decide)

/-- There are strides exactly if the products from the inside outwards are sizes. -/
theorem stridesOf?_isSome_iff {dims : List Nat}
    : (stridesOf? dims).isSome = true ↔ ∀ count, (dims.drop count).prod < Size.bound := by
  induction dims with
  | nil => simp [stridesOf?, (by decide : 1 < Size.bound)]
  | cons dim dims ih =>
      rw [← Nat.and_forall_add_one]
      simp only [List.drop_zero, List.drop_succ_cons, ← ih, List.prod_cons]
      constructor
      · intro found
        obtain ⟨_, found⟩ := Option.isSome_iff_exists.mp found
        obtain ⟨⟨strides, inner⟩, rest, found⟩ := Option.bind_eq_some_iff.mp found
        obtain ⟨outer, multiplied, -⟩ := Option.bind_eq_some_iff.mp found
        obtain ⟨less, -⟩ := Size.mul?_eq_some_iff.mp multiplied
        obtain ⟨-, rfl⟩ := Storage.stridesOf?_eq_some rest
        exact ⟨Nat.mul_comm _ _ ▸ less, Option.isSome_iff_exists.mpr ⟨_, rest⟩⟩
      · rintro ⟨less, found⟩
        obtain ⟨⟨strides, inner⟩, rest⟩ := Option.isSome_iff_exists.mp found
        obtain ⟨-, rfl⟩ := Storage.stridesOf?_eq_some rest
        have multiplied : Size.mul? dims.prod dim = some (dims.prod * dim) :=
          Size.mul?_eq_some_iff.mpr ⟨Nat.mul_comm _ _ ▸ less, rfl⟩
        simp [stridesOf?, rest, multiplied]

/-- A shape has strides exactly if the products on the way outwards are sizes. -/
theorem broadcastStrides?_isSome_iff {shape : Shape}
    : shape.broadcastStrides?.isSome = true ↔ shape.FitsOutwards := by
  rw [broadcastStrides?, Option.isSome_map, stridesOf?_isSome_iff]
  rfl

/-- The last product on the way inwards is the number of elements. -/
theorem FitsInwards.prod_lt {shape : Shape} (fits : shape.FitsInwards)
    : shape.dims.prod < Size.bound := by
  simpa using fits shape.dims.length

/-- Without a dimension of size zero it is enough that the number of elements is a size. -/
theorem fits_of_nonzero {shape : Shape} (nonzero : 0 ∉ shape.dims)
    (counted : shape.dims.prod < Size.bound)
    : shape.FitsInwards ∧ shape.FitsOutwards := by
  have positive : 0 < shape.dims.prod :=
    Nat.pos_of_ne_zero (List.prod_ne_zero nonzero)
  have small {part other : Nat} (split : part * other = shape.dims.prod) : part < Size.bound :=
    Nat.lt_of_le_of_lt (Nat.le_of_dvd positive (Dvd.intro _ split)) counted
  have parts (count : Nat)
      : (shape.dims.take count).prod * (shape.dims.drop count).prod = shape.dims.prod :=
    List.prod_take_mul_prod_drop shape.dims count
  exact ⟨fun count => small (parts count),
    fun count => small ((Nat.mul_comm _ _).trans (parts count))⟩

end Shape

namespace Storage

/-- No size is too large where operands of shapes `left` and `right` are combined to `result`. -/
structure SizesFit (left right result : Shape) : Prop where
  ofLeft : left.FitsOutwards
  ofRight : right.FitsOutwards
  counted : result.FitsInwards
  buffer : Size.fitsBuffer result.dims.prod = true

variable {op : String} {left right operand : Storage} {shape : Shape}
  {combine : Float → Float → Float}

/-- There is room for a result exactly if these three things are sizes. -/
theorem room_iff {result operand : Shape}
    : Room result operand
      ↔ operand.FitsOutwards
        ∧ result.FitsInwards
        ∧ Size.fitsBuffer result.dims.prod = true := by
  constructor
  · rintro ⟨strides, count, fits⟩
    exact ⟨Shape.broadcastStrides?_isSome_iff.mp strides, (Shape.numel?_eq_some_iff.mp count).1, fits⟩
  · rintro ⟨strides, count, fits⟩
    exact ⟨Shape.broadcastStrides?_isSome_iff.mpr strides, Shape.numel?_eq_some_iff.mpr ⟨count, rfl⟩,
      fits⟩

/-- Where shapes broadcast, the sizes decide whether there is a result. Nothing else can go wrong,
since the operands hold as many elements as their shapes say.
-/
theorem broadcastBinary_cases (leftSized : left.Sized) (rightSized : right.Sized)
    (found : left.shape.broadcast? right.shape = some shape)
    : SizesFit left.shape right.shape shape
        ∧ broadcastBinary op left right combine = .ok (combined combine shape left right)
      ∨ ¬ SizesFit left.shape right.shape shape
        ∧ ∃ exit, broadcastBinary op left right combine = .error exit ∧ exit.TooLarge := by
  by_cases fit : SizesFit left.shape right.shape shape
  · refine .inl ⟨fit, broadcastBinary_eq leftSized rightSized found ?_ ?_⟩
    · exact room_iff.mpr ⟨fit.ofLeft, fit.counted, fit.buffer⟩
    · exact room_iff.mpr ⟨fit.ofRight, fit.counted, fit.buffer⟩
  · cases ended : broadcastBinary op left right combine with
    | ok result =>
        obtain ⟨joined, same, ofLeft, ofRight, -⟩ := broadcastBinary_ok ended
        obtain rfl : joined = shape := Option.some.inj (same.symm.trans found)
        obtain ⟨strides, counted, buffer⟩ := room_iff.mp ofLeft
        exact absurd ⟨strides, (room_iff.mp ofRight).1, counted, buffer⟩ fit
    | error exit =>
        have apart := broadcastBinary_error leftSized rightSized ended
        rw [found] at apart
        exact .inr ⟨fit, exit, rfl, apart.resolve_left (Option.some_ne_none shape)⟩

/-- An index is added up from the innermost dimension outwards, so it only grows. What bounds the
index in the end bounds it on the way.
-/
theorem operandIndex_take_le (sizes strides : List Nat) (count flat : Nat)
    : operandIndex (sizes.take count) (strides.take count) flat ≤ operandIndex sizes strides flat := by
  induction sizes generalizing strides count flat with
  | nil => simp [operandIndex]
  | cons size sizes ih =>
      cases strides with
      | nil => simp [operandIndex]
      | cons stride strides =>
          cases count with
          | zero => simp [operandIndex]
          | succ count =>
              simp only [List.take_succ_cons, operandIndex]
              exact Nat.add_le_add_left (ih strides count (flat / size)) _

/-- However far an index into an operand has been added up, it is within the operand, whose number of
elements is a size.
-/
structure IndicesInside (result : Shape) (operand : Storage) : Prop where
  size : operand.data.size < Size.bound
  inside
    : ∀ strides,
        operand.shape.broadcastStrides? = some strides
        → ∀ flat < result.dims.prod, ∀ count,
            operandIndex (result.dims.reverse.take count) (strides.reverse.take count) flat
            < operand.data.size

/-- An operand that holds as many elements as its shape says has all indices inside, from the first
addition to the last.
-/
theorem Sized.indicesInside (sized : operand.Sized)
    (stretches : Stretches operand.shape.dims.reverse shape.dims.reverse)
    : IndicesInside shape operand := by
  obtain ⟨fits, size⟩ := Shape.numel?_eq_some_iff.mp sized
  refine ⟨?_, fun strides found flat bound count => ?_⟩
  · rw [← size]
    exact fits.prod_lt
  · calc
      operandIndex (shape.dims.reverse.take count) (strides.reverse.take count) flat
          ≤ operandIndex shape.dims.reverse strides.reverse flat := operandIndex_take_le _ _ _ _
      _ = gather shape.dims.reverse operand.shape.dims.reverse flat :=
        operandIndex_broadcastStrides found _ _
      _ < operand.shape.dims.reverse.prod := gather_lt stretches (by rwa [List.prod_reverse_nat])
      _ = operand.data.size := by rw [List.prod_reverse_nat, size]

/-- Storage that has been made of data has as many elements as its shape says. -/
theorem sized_of_ofData (accepted : ofData operand.shape operand.data = .ok operand)
    : operand.Sized := by
  obtain ⟨count, counted, accepted⟩ := Outcome.bind_ok accepted
  have counted := Outcome.orFault_ok counted
  by_cases same : operand.data.size = count
  · rw [Sized, same, counted]
  · rw [if_neg same] at accepted
    cases accepted

/-- An element-wise operator gives a result, and no index is too large on the way. -/
def CombinesSafely (op : String) (left right : Storage) (combine : Float → Float → Float) : Prop :=
  ∃ result,
    broadcastBinary op left right combine = .ok result
    ∧ IndicesInside result.shape left
    ∧ IndicesInside result.shape right

/-- Whether operands combine safely is decided by the sizes alone. -/
theorem combinesSafely_iff (leftSized : left.Sized) (rightSized : right.Sized)
    (found : left.shape.broadcast? right.shape = some shape)
    : CombinesSafely op left right combine ↔ SizesFit left.shape right.shape shape := by
  have ofLeft := stretches_of_broadcast? found
  have ofRight := stretches_of_broadcast? (Shape.broadcast?_comm _ _ ▸ found)
  rcases @broadcastBinary_cases op _ _ _ combine leftSized rightSized found with
    ⟨fit, ended⟩ | ⟨tooLarge, exit, ended, -⟩
  · exact iff_of_true
      ⟨_, ended, leftSized.indicesInside ofLeft, rightSized.indicesInside ofRight⟩ fit
  · refine iff_of_false (fun safe => ?_) tooLarge
    obtain ⟨result, ended', -⟩ := safe
    cases ended.symm.trans ended'

/-- Operands of a result without a dimension of size zero have none either. -/
theorem Sized.fitsOutwards {other : Shape} (sized : operand.Sized)
    (found : operand.shape.broadcast? other = some shape) (nonzero : 0 ∉ shape.dims)
    : operand.shape.FitsOutwards := by
  refine (Shape.fits_of_nonzero (fun zero => nonzero ?_)
    (Shape.numel?_eq_some_iff.mp sized).1.prod_lt).2
  obtain ⟨place, zero⟩ := Shape.zero_mem_dims_iff.mp zero
  have joined := (Shape.broadcast?_eq_some_iff.mp found).2 place
  rw [zero, Shape.joinDim?_eq_some_iff] at joined
  exact Shape.zero_mem_dims_iff.mpr ⟨place, by omega⟩

/-- Element-wise operators on storage made of data, where the shapes broadcast to one whose number of
elements is a size: there is a result exactly if the products of the innermost dimensions of both
operands and those of the outermost dimensions of the result are sizes and a buffer can hold the result,
and then no index into an operand is too large. Where no dimension of the result is zero, only the buffer
counts.
-/
theorem broadcastBinary_safe (acceptedLeft : ofData left.shape left.data = .ok left)
    (acceptedRight : ofData right.shape right.data = .ok right)
    (found : left.shape.broadcast? right.shape = some shape)
    (counted : shape.dims.prod < Size.bound)
    : (CombinesSafely op left right combine ↔ SizesFit left.shape right.shape shape)
      ∧ (0 ∉ shape.dims
        → (CombinesSafely op left right combine ↔ Size.fitsBuffer shape.dims.prod = true)) := by
  have leftSized := sized_of_ofData acceptedLeft
  have rightSized := sized_of_ofData acceptedRight
  have safe := @combinesSafely_iff op left right shape combine leftSized rightSized found
  refine ⟨safe, fun nonzero => safe.trans ⟨SizesFit.buffer, fun buffer => ?_⟩⟩
  exact {
    ofLeft := leftSized.fitsOutwards found nonzero
    ofRight := rightSized.fitsOutwards (Shape.broadcast?_comm _ _ ▸ found) nonzero
    counted := (Shape.fits_of_nonzero nonzero counted).1
    buffer }

/-- A column and a row, neither of which has a dimension of size zero. -/
theorem broadcastBinary_safe_column_row
    : ∃ left right : Storage,
        ofData left.shape left.data = .ok left
        ∧ ofData right.shape right.data = .ok right
        ∧ left.shape.broadcast? right.shape = some ⟨[2, 3]⟩
        ∧ CombinesSafely "add" left right (· + ·) := by
  let left : Storage := ⟨⟨[2, 1]⟩, #[1, 2]⟩
  let right : Storage := ⟨⟨[3]⟩, #[10, 20, 30]⟩
  have safe := @broadcastBinary_safe "add" left right ⟨[2, 3]⟩ (· + ·) rfl rfl rfl (by decide)
  exact ⟨left, right, rfl, rfl, rfl, (safe.2 (by decide)).mpr (by decide)⟩

/-- Operands without elements that have been made of data, and whose result has no elements, but whose
strides are no sizes.
-/
theorem not_combinesSafely_empty
    : ∃ (left right : Storage) (shape : Shape),
        ofData left.shape left.data = .ok left
        ∧ ofData right.shape right.data = .ok right
        ∧ left.shape.broadcast? right.shape = some shape
        ∧ shape.dims.prod < Size.bound
        ∧ ¬ CombinesSafely "add" left right (· + ·) := by
  let empty : Storage := ⟨⟨[0, 1099511627776, 1099511627776]⟩, #[]⟩
  refine ⟨empty, empty, empty.shape, rfl, rfl, rfl, by decide, ?_⟩
  rintro ⟨result, ended, -⟩
  have refused : broadcastBinary "add" empty empty (· + ·) = .error (.fault .overflow) := rfl
  cases refused.symm.trans ended

end Storage
end LayeredDispatch
