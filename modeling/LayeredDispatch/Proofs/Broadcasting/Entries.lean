import LayeredDispatch.Proofs.Broadcasting.Limits
import LayeredDispatch.Proofs.Broadcasting.Positions

/-! Element-wise operators multi-index by multi-index. Main statement: they are refused exactly where two
aligned sizes differ and neither is one; otherwise, where no size on the way is too large, they combine at
each multi-index the elements of the operands at that multi-index.
-/

namespace LayeredDispatch

namespace Shape

/-- Aligned at the innermost dimension, two sizes differ and neither is one. -/
def Clashes (left right : Shape) : Prop :=
  ∃ place,
    left.sizeAt place ≠ right.sizeAt place
    ∧ left.sizeAt place ≠ 1
    ∧ right.sizeAt place ≠ 1

/-- A shape has in each place the common size of two shapes, or that of their sizes that is not one. -/
structure Joins (left right joined : Shape) : Prop where
  rank : joined.rank = max left.rank right.rank
  sizes
    : ∀ place,
        left.sizeAt place = right.sizeAt place ∧ joined.sizeAt place = left.sizeAt place
        ∨ left.sizeAt place = 1 ∧ joined.sizeAt place = right.sizeAt place
        ∨ right.sizeAt place = 1 ∧ joined.sizeAt place = left.sizeAt place

variable {left right joined : Shape}

/-- Shapes that do not broadcast are those that clash. -/
theorem broadcast?_eq_none_iff_clashes : left.broadcast? right = none ↔ left.Clashes right := by
  simp only [broadcast?_eq_none_iff, joinDim?_eq_none_iff, Clashes]

/-- Shapes that broadcast have a join, which is what they broadcast to. -/
theorem broadcast?_eq_some_iff_joins : left.broadcast? right = some joined ↔ left.Joins right joined := by
  simp only [broadcast?_eq_some_iff, joinDim?_eq_some_iff]
  exact ⟨fun ⟨rank, sizes⟩ => ⟨rank, sizes⟩, fun ⟨rank, sizes⟩ => ⟨rank, sizes⟩⟩

end Shape

namespace Storage

/-- Storage holds as many elements as its shape says, and at each multi-index what is made of the elements
of the operands there, each read at the multi-index restricted to its own dimensions.
-/
structure CombinesEntries (combine : Float → Float → Float) (left right result : Storage) : Prop where
  size : result.data.size = result.shape.dims.prod
  entries
    : ∀ index,
        result.shape.Indexes index
        → ∃ first second,
            left.elementAt? (left.shape.restrict index) = some first
            ∧ right.elementAt? (right.shape.restrict index) = some second
            ∧ result.elementAt? index = some (combine first second)

variable {op : String} {left right operand : Storage} {shape : Shape}
  {combine : Float → Float → Float}

/-- What a result is made of at a flat index is the element of the operand at the multi-index,
restricted to the dimensions of the operand.
-/
theorem elementAt?_restrict (sized : operand.Sized) {index : List Nat} (inside : shape.Indexes index)
    (short : operand.shape.rank ≤ shape.rank)
    (stretches : Stretches operand.shape.dims.reverse shape.dims.reverse)
    : operand.elementAt? (operand.shape.restrict index)
      = some (operand.element shape.dims.reverse (shape.position index)) := by
  have bound : shape.position index < shape.dims.reverse.prod := by
    rw [List.prod_reverse_nat]
    exact Shape.positionIn_lt inside
  have within := gather_lt stretches bound
  rw [List.prod_reverse_nat, ← Shape.numel?_eq_some sized] at within
  rw [elementAt?, element, ← gather_position inside short]
  simp [within]

/-- What is made of two operands has at each multi-index what is made of their elements there. Both
sides of the result are read at the same flat index, one by its position and one by what is
gathered.
-/
theorem combined_entries (leftSized : left.Sized) (rightSized : right.Sized)
    (found : left.shape.broadcast? right.shape = some shape)
    : CombinesEntries combine left right (combined combine shape left right) := by
  obtain ⟨rank, -⟩ := Shape.broadcast?_eq_some_iff.mp found
  have shortLeft : left.shape.rank ≤ shape.rank := rank ▸ Nat.le_max_left _ _
  have shortRight : right.shape.rank ≤ shape.rank := rank ▸ Nat.le_max_right _ _
  have ofLeft := stretches_of_broadcast? found
  have ofRight := stretches_of_broadcast? (Shape.broadcast?_comm _ _ ▸ found)
  refine ⟨by simp [combined], fun index inside => ?_⟩
  refine ⟨_, _, elementAt?_restrict leftSized inside shortLeft ofLeft,
    elementAt?_restrict rightSized inside shortRight ofRight, ?_⟩
  have within : shape.position index < shape.dims.prod := Shape.positionIn_lt inside
  simp [elementAt?, combined, within]

/-- Element-wise operators broadcast as documented: shapes that clash are refused, and for others there is a
result of the joined shape whose elements are combined multi-index by multi-index.
-/
def Broadcasts (op : String) (left right : Storage) (combine : Float → Float → Float) : Prop :=
  (broadcastBinary op left right combine
      = .error (.error (.shapeMismatch op left.shape right.shape))
    ↔ left.shape.Clashes right.shape)
  ∧ (¬ left.shape.Clashes right.shape
    → ∃ result,
        broadcastBinary op left right combine = .ok result
        ∧ left.shape.Joins right.shape result.shape
        ∧ CombinesEntries combine left right result)

/-- Element-wise operators on storage with as many elements as its shape says. They refuse operands whose
shapes clash, and only those. For other operands the sizes on the way to the joined shape decide: if all
of them are sizes, there is a result of that shape, whose element at each multi-index is made of those of
the operands there; otherwise the computation ends for a size that is too large.
-/
theorem broadcastBinary_entries (leftSized : left.Sized) (rightSized : right.Sized)
    : (broadcastBinary op left right combine
          = .error (.error (.shapeMismatch op left.shape right.shape))
        ↔ left.shape.Clashes right.shape)
      ∧ (¬ left.shape.Clashes right.shape
        → ∃ shape,
            left.shape.Joins right.shape shape
            ∧ (SizesFit left.shape right.shape shape
                ∧ (∃ result,
                  broadcastBinary op left right combine = .ok result
                  ∧ result.shape = shape
                  ∧ CombinesEntries combine left right result)
              ∨ ¬ SizesFit left.shape right.shape shape
                ∧ ∃ exit, broadcastBinary op left right combine = .error exit ∧ exit.TooLarge)) := by
  cases found : left.shape.broadcast? right.shape with
  | none =>
      have clash := Shape.broadcast?_eq_none_iff_clashes.mp found
      refine ⟨iff_of_true ?_ clash, fun apart => absurd clash apart⟩
      simp only [broadcastBinary, found]
      rfl
  | some shape =>
      have apart : ¬ left.shape.Clashes right.shape := by
        rw [← Shape.broadcast?_eq_none_iff_clashes, found]
        simp
      have joins := Shape.broadcast?_eq_some_iff_joins.mp found
      rcases @broadcastBinary_cases op _ _ _ combine leftSized rightSized found with
        ⟨fit, ended⟩ | ⟨tooLarge, exit, ended, size⟩
      · refine ⟨iff_of_false (by simp [ended]) apart, fun _ => ⟨shape, joins, .inl ⟨fit, ?_⟩⟩⟩
        exact ⟨_, ended, rfl, combined_entries leftSized rightSized found⟩
      · refine ⟨iff_of_false ?_ apart, fun _ => ⟨shape, joins, .inr ⟨tooLarge, exit, ended, size⟩⟩⟩
        rw [ended]
        rintro ⟨⟩
        exact size

/-- A column and a row are combined to a matrix. -/
theorem broadcastBinary_entries_column_row
    : ∃ left right result : Storage,
        left.Sized
        ∧ right.Sized
        ∧ broadcastBinary "add" left right (· + ·) = .ok result
        ∧ left.shape.Joins right.shape ⟨[2, 3]⟩
        ∧ result.shape = ⟨[2, 3]⟩
        ∧ CombinesEntries (· + ·) left right result := by
  let left : Storage := ⟨⟨[2, 1]⟩, #[1, 2]⟩
  let right : Storage := ⟨⟨[3]⟩, #[10, 20, 30]⟩
  have found : left.shape.broadcast? right.shape = some ⟨[2, 3]⟩ := rfl
  obtain ⟨-, entries⟩ := @broadcastBinary_entries "add" left right (· + ·) rfl rfl
  obtain ⟨shape, joins, outcome⟩ := entries (by
    rw [← Shape.broadcast?_eq_none_iff_clashes, found]
    simp)
  obtain rfl : ⟨[2, 3]⟩ = shape :=
    Option.some.inj (found.symm.trans (Shape.broadcast?_eq_some_iff_joins.mpr joins))
  rcases outcome with ⟨-, result, ended, same, made⟩ | ⟨-, exit, ended, -⟩
  · exact ⟨left, right, result, rfl, rfl, ended, joins, same, made⟩
  · cases ended

/-- Operands without elements whose strides are sizes, as is the number of elements of the result, but for
whose result no elements can be counted.
-/
theorem not_broadcasts_empty
    : ∃ (left right : Storage) (shape : Shape),
        left.Sized
        ∧ right.Sized
        ∧ left.shape.FitsOutwards
        ∧ right.shape.FitsOutwards
        ∧ left.shape.Joins right.shape shape
        ∧ shape.dims.prod < Size.bound
        ∧ ¬ Broadcasts "add" left right (· + ·) := by
  let left : Storage := ⟨⟨[1099511627776, 1, 0]⟩, #[]⟩
  let right : Storage := ⟨⟨[1, 1099511627776, 0]⟩, #[]⟩
  have found
      : left.shape.broadcast? right.shape = some ⟨[1099511627776, 1099511627776, 0]⟩ := rfl
  refine ⟨left, right, _, rfl, rfl, Shape.broadcastStrides?_isSome_iff.mp rfl,
    Shape.broadcastStrides?_isSome_iff.mp rfl, Shape.broadcast?_eq_some_iff_joins.mp found,
    by decide, ?_⟩
  rintro ⟨-, broadcasts⟩
  obtain ⟨result, ended, -⟩ := broadcasts (by
    rw [← Shape.broadcast?_eq_none_iff_clashes, found]
    simp)
  have refused : broadcastBinary "add" left right (· + ·) = .error (.fault .overflow) := rfl
  cases refused.symm.trans ended

end Storage
end LayeredDispatch
