import LayeredDispatch.Proofs.Families.Gathering

/-! Element-wise operators in closed form, and one entry of a batch at a time. Main statement: what an
operator makes of batches is, entry by entry, what it makes of the entries, if the batches have been
padded to a common rank.
-/

namespace LayeredDispatch

namespace Shape

/-- Sizes broadcast alike in either order. -/
theorem joinDim?_comm (left right : Nat) : joinDim? left right = joinDim? right left := by
  unfold joinDim?
  grind

theorem joinDims?_nil_right (left : List Nat) : joinDims? left [] = some left := by
  cases left <;> rfl

/-- Lists of sizes broadcast alike in either order, entry by entry. -/
theorem joinDims?_comm (left right : List Nat) : joinDims? left right = joinDims? right left := by
  induction left generalizing right with
  | nil => exact (joinDims?_nil_right right).symm
  | cons dim left ih =>
      cases right with
      | nil => rfl
      | cons other right => simp only [joinDims?, joinDim?_comm dim other, ih right]

theorem joinDim?_eq_some {left right joined : Nat} (h : joinDim? left right = some joined)
    : left = 1 ∨ left = joined := by
  unfold joinDim? at h
  grind

/-- An operand can be stretched to what it broadcasts to, and the longer list gives the length. -/
theorem joinDims?_eq_some {left right sizes : List Nat} (h : joinDims? left right = some sizes)
    : Storage.Stretches left sizes ∧ sizes.length = max left.length right.length := by
  induction left generalizing right sizes with
  | nil =>
      cases h
      exact ⟨trivial, (Nat.zero_max _).symm⟩
  | cons dim left ih =>
      cases right with
      | nil =>
          cases h
          refine ⟨⟨Or.inr rfl, ?_⟩, (Nat.max_zero _).symm⟩
          exact (ih (joinDims?_nil_right left)).1
      | cons other right =>
          obtain ⟨joined, found, h⟩ := Option.bind_eq_some_iff.mp h
          obtain ⟨rest, later, h⟩ := Option.bind_eq_some_iff.mp h
          cases h
          obtain ⟨stretches, size⟩ := ih later
          refine ⟨⟨joinDim?_eq_some found, stretches⟩, ?_⟩
          simp only [List.length_cons, size, Nat.succ_max_succ]

/-- Ones that are as many as the sizes change nothing. -/
theorem joinDims?_ones (dims : List Nat)
    : joinDims? (List.replicate dims.length 1) dims = some dims := by
  induction dims with
  | nil => rfl
  | cons dim dims ih =>
      rw [List.length_cons, List.replicate_succ, joinDims?, ih]
      unfold joinDim?
      grind

/-- Dimensions of size one that bring an operand up to the rank of the other are of no account. The
induction is on the first operand; only one of the two is padded, which decides the case where one
list has ended.
-/
theorem joinDims?_pad {left right : List Nat} {ones others : Nat}
    (aligned : left.length + ones = right.length + others) (once : ones = 0 ∨ others = 0)
    : joinDims? (left ++ List.replicate ones 1) (right ++ List.replicate others 1)
      = joinDims? left right := by
  induction left generalizing right with
  | nil =>
      rw [List.length_nil, Nat.zero_add] at aligned
      rcases once with rfl | rfl
      · obtain rfl : right = [] := List.eq_nil_of_length_eq_zero (by omega)
        obtain rfl : others = 0 := by simpa using aligned.symm
        rfl
      · obtain rfl : ones = right.length := aligned
        simpa [joinDims?] using joinDims?_ones right
  | cons dim left ih =>
      cases right with
      | nil =>
          rw [List.length_nil, Nat.zero_add] at aligned
          rcases once with rfl | rfl
          · obtain rfl : (dim :: left).length = others := aligned
            rw [joinDims?_comm]
            simpa [joinDims?_nil_right] using joinDims?_ones (dim :: left)
          · simp at aligned
      | cons other right =>
          simp only [List.length_cons, Nat.add_right_comm _ 1] at aligned
          simp only [List.cons_append, joinDims?, ih (Nat.succ.inj aligned)]

/-- A batch dimension on the outside of both operands is on the outside of what they broadcast to,
if it is at the same place.
-/
theorem joinDims?_batch {left right : List Nat} (aligned : left.length = right.length)
    (batch : Nat)
    : joinDims? (left ++ [batch]) (right ++ [batch])
      = (joinDims? left right).map (· ++ [batch]) := by
  induction left generalizing right with
  | nil =>
      obtain rfl := List.eq_nil_of_length_eq_zero aligned.symm
      simp [joinDims?, joinDim?]
  | cons dim left ih =>
      cases right with
      | nil => cases aligned
      | cons other right =>
          simp only [List.cons_append, joinDims?, ih (Nat.succ.inj aligned)]
          cases joinDim? dim other <;> cases joinDims? left right <;> rfl

/-- The same if only the first operand has it, and the other one is not longer than its entries. -/
theorem joinDims?_batch_left {left right : List Nat} (short : right.length ≤ left.length)
    (batch : Nat)
    : joinDims? (left ++ [batch]) right = (joinDims? left right).map (· ++ [batch]) := by
  induction right generalizing left with
  | nil => simp [joinDims?_nil_right]
  | cons other right ih =>
      cases left with
      | nil => cases short
      | cons dim left =>
          simp only [List.cons_append, joinDims?, ih (Nat.le_of_succ_le_succ short)]
          cases joinDim? dim other <;> cases joinDims? left right <;> rfl

/-- The shape of an operand of a batched call and that of one entry of it: it is a batch, padded to
logical rank `rank` behind its batch dimension, or shared by all entries.
-/
inductive Entry (batch rank : Nat) : Shape → Shape → Prop where
  | batched (dims : List Nat) (ones : Nat) (padded : dims.length + ones = rank)
    : Entry batch rank ⟨batch :: (List.replicate ones 1 ++ dims)⟩ ⟨dims⟩
  | shared (shape : Shape) (short : shape.rank ≤ rank) : Entry batch rank shape shape

theorem broadcast?_comm (left right : Shape) : left.broadcast? right = right.broadcast? left := by
  rw [broadcast?, broadcast?, joinDims?_comm]

theorem reverse_batched (batch ones : Nat) (dims : List Nat)
    : (batch :: (List.replicate ones 1 ++ dims)).reverse
      = (dims.reverse ++ List.replicate ones 1) ++ [batch] := by
  rw [List.reverse_cons, List.reverse_append, List.reverse_replicate]

/-- A padded batch broadcasts with what is aligned to it as its entries do. The other operand is a
padded batch as well, or shared.
-/
theorem broadcast?_batched {batch rank ones : Nat} {dims : List Nat} {right other : Shape}
    (padded : dims.length + ones = rank) (entry : Entry batch rank right other)
    (full : rank = max dims.length other.rank)
    : broadcast? ⟨batch :: (List.replicate ones 1 ++ dims)⟩ right
      = (broadcast? ⟨dims⟩ other).map (·.withLeading batch) := by
  cases entry with
  | batched others zeros aligned =>
      have full : rank = max dims.length others.length := full
      have pad := @joinDims?_pad dims.reverse others.reverse ones zeros
        (by simp only [List.length_reverse]; omega) (by omega)
      have join := @joinDims?_batch (dims.reverse ++ List.replicate ones 1)
        (others.reverse ++ List.replicate zeros 1) (by simp; omega) batch
      simp only [broadcast?, reverse_batched, join, pad, Option.map_map]
      congr 1
      funext sizes
      simp [withLeading]
  | shared shape short =>
      have full : rank = max dims.length right.dims.length := full
      have short : right.dims.length ≤ rank := short
      have pad
          : joinDims? (dims.reverse ++ List.replicate ones 1) right.dims.reverse
            = joinDims? dims.reverse right.dims.reverse := by
        rcases Nat.eq_zero_or_pos ones with rfl | positive
        · simp
        · have aligned := @joinDims?_pad dims.reverse right.dims.reverse ones 0
            (by simp only [List.length_reverse]; omega) (Or.inr rfl)
          simpa using aligned
      have join := @joinDims?_batch_left (dims.reverse ++ List.replicate ones 1)
        right.dims.reverse (by simp; omega) batch
      simp only [broadcast?, reverse_batched, join, pad, Option.map_map]
      congr 1
      funext sizes
      simp [withLeading]

/-- Batches broadcast as their entries do, and their outermost dimension is the batch again. At
least one of the operands must be a batch, and both must have been padded to the same rank.
-/
theorem broadcast?_entry {batch rank : Nat} {left right first second : Shape}
    (ofLeft : Entry batch rank left first) (ofRight : Entry batch rank right second)
    (full : rank = max first.rank second.rank) (batched : rank < left.rank ∨ rank < right.rank)
    : left.broadcast? right = (first.broadcast? second).map (·.withLeading batch) := by
  cases ofLeft with
  | batched dims ones padded => exact broadcast?_batched padded ofRight full
  | shared _ short =>
      cases ofRight with
      | batched dims ones padded =>
          rw [broadcast?_comm, broadcast?_comm left]
          exact broadcast?_batched padded (.shared left short) (by rw [full, Nat.max_comm]; rfl)
      | shared _ short' => omega

end Shape
end LayeredDispatch
