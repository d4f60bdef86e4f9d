import LayeredDispatch.Proofs.Families.Slices

/-! Multi-indices of dense storage, read in row-major order. Main statements: positions are within the
storage, and the element of an operand that belongs to a multi-index of a broadcast result is the one at
the multi-index restricted to the dimensions of the operand.
-/

namespace LayeredDispatch

namespace Shape

/-- The row-major position of a multi-index. Sizes and entries are listed outermost first. -/
def positionIn : (dims index : List Nat) → Nat
  | _ :: dims, entry :: index => entry * dims.prod + positionIn dims index
  | _, _ => 0

/-- Multi-indices of a shape: one entry for each dimension, below its size. -/
def Indexes (shape : Shape) (index : List Nat) : Prop :=
  List.Forall₂ (· < ·) index shape.dims

/-- The row-major position of a multi-index. -/
def position (shape : Shape) (index : List Nat) : Nat :=
  positionIn shape.dims index

/-- The multi-index that an operand of this shape is read at: leading entries for which it has no
dimension are dropped, and dimensions of size one are read at zero.
-/
def restrict (shape : Shape) (index : List Nat) : List Nat :=
  List.zipWith (fun dim entry => if dim = 1 then 0 else entry) shape.dims
    (index.drop (index.length - shape.rank))

/-- The position of a multi-index is within the storage, by induction on its entries. -/
theorem positionIn_lt {dims index : List Nat} (inside : List.Forall₂ (· < ·) index dims)
    : positionIn dims index < dims.prod := by
  induction inside with
  | nil => simp [positionIn]
  | @cons entry dim index dims less _ ih =>
      calc
        entry * dims.prod + positionIn dims index < (entry + 1) * dims.prod := by
          rw [Nat.succ_mul]
          exact Nat.add_lt_add_left ih _
        _ ≤ dim * dims.prod := Nat.mul_le_mul_right _ less
        _ = (dim :: dims).prod := List.prod_cons.symm

/-- A further innermost dimension multiplies the position and adds its entry. -/
theorem positionIn_append {dims index : List Nat} (aligned : dims.length = index.length)
    (dim entry : Nat)
    : positionIn (dims ++ [dim]) (index ++ [entry]) = entry + dim * positionIn dims index := by
  induction dims generalizing index with
  | nil =>
      obtain rfl := List.eq_nil_of_length_eq_zero aligned.symm
      simp [positionIn]
  | cons first dims ih =>
      cases index with
      | nil => cases aligned
      | cons outer index =>
          simp only [List.cons_append, positionIn, ih (Nat.succ.inj aligned), List.prod_append,
            List.prod_singleton]
          rw [Nat.mul_add, Nat.mul_left_comm dim, Nat.mul_comm dims.prod, Nat.add_left_comm]

/-- Aligned at their ends, entries are dropped where there is no further dimension. -/
theorem restrict_eq_reverse {shape : Shape} {index : List Nat} (short : shape.rank ≤ index.length)
    : shape.restrict index
      = (List.zipWith (fun dim entry => if dim = 1 then 0 else entry) shape.dims.reverse
          index.reverse).reverse := by
  have kept : min shape.dims.reverse.length index.reverse.length = shape.rank := by
    rw [List.length_reverse, List.length_reverse]
    exact Nat.min_eq_left short
  have dropped : index.length - (index.length - shape.rank) = shape.rank := by omega
  have size : shape.dims.length = (index.drop (index.length - shape.rank)).length := by
    rw [List.length_drop, dropped, rank]
  rw [List.zipWith_eq_zipWith_take_min, kept, List.take_of_length_le (by simp [rank]),
    restrict, ← List.reverse_reverse (List.zipWith _ shape.dims _), List.reverse_zipWith size,
    List.reverse_drop, dropped]

end Shape

namespace Storage

/-- The element at a multi-index. -/
def elementAt? (storage : Storage) (index : List Nat) : Option Float :=
  storage.data[storage.shape.position index]?

/-- Splitting a position by the sizes of a result gives back the entries of the multi-index. All
lists are innermost first here. The induction is on the multi-index; where the operand has no
further dimension the rest of the position is of no account.
-/
theorem gather_positionIn {sizes index : List Nat} (inside : List.Forall₂ (· < ·) index sizes)
    {dims : List Nat} (short : dims.length ≤ sizes.length)
    : gather sizes dims (Shape.positionIn sizes.reverse index.reverse)
      = Shape.positionIn dims.reverse
          (List.zipWith (fun dim entry => if dim = 1 then 0 else entry) dims index).reverse := by
  induction inside generalizing dims with
  | nil =>
      obtain rfl := List.eq_nil_of_length_eq_zero (Nat.le_zero.mp short)
      rfl
  | @cons entry size index sizes less inside ih =>
      cases dims with
      | nil => simp [Shape.positionIn]
      | cons dim dims =>
          have short : dims.length ≤ sizes.length := Nat.le_of_succ_le_succ short
          have aligned : sizes.length = index.length := inside.length_eq.symm
          -- The innermost entry is what remains of the position, the others are its quotient.
          rw [List.zipWith_cons_cons, List.reverse_cons, List.reverse_cons, List.reverse_cons,
            List.reverse_cons, Shape.positionIn_append (by simpa using aligned),
            Shape.positionIn_append (by simp; omega), gather, Nat.add_mul_mod_self_left,
            Nat.mod_eq_of_lt less, Nat.add_mul_div_left _ _ (Nat.zero_lt_of_lt less),
            Nat.div_eq_of_lt less, Nat.zero_add, ih short]

/-- The element of an operand that is gathered for a multi-index is the one at the restricted
multi-index.
-/
theorem gather_position {result operand : Shape} {index : List Nat} (inside : result.Indexes index)
    (short : operand.rank ≤ result.rank)
    : gather result.dims.reverse operand.dims.reverse (result.position index)
      = operand.position (operand.restrict index) := by
  have reversed := @gather_positionIn result.dims.reverse index.reverse
    (List.forall₂_reverse_iff.mpr inside) operand.dims.reverse (by simpa [Shape.rank] using short)
  rw [List.reverse_reverse, List.reverse_reverse, List.reverse_reverse] at reversed
  rw [Shape.position, reversed, Shape.position,
    Shape.restrict_eq_reverse (inside.length_eq ▸ short : operand.rank ≤ index.length)]

end Storage
end LayeredDispatch
