import LayeredDispatch.Storage.Arithmetic
import Mathlib.Algebra.BigOperators.Group.List.Basic

/-! Which element of an operand an element of a broadcast result is made of. Sizes are listed
innermost first here. Main statement: with an outermost batch dimension, entry `i` of the result is
made of entry `i` of the operand, element by element as without the batch dimension.
-/

namespace LayeredDispatch

/-- A product that is taken step by step and gives a size is the product. -/
theorem Shape.foldlM_mul?_eq_some {dims : List Nat} {start count : Nat}
    (h : dims.foldlM Size.mul? start = some count)
    : count = start * dims.prod := by
  induction dims generalizing start with
  | nil =>
      cases h
      simp
  | cons dim dims ih =>
      rw [List.foldlM_cons] at h
      obtain ⟨product, multiplied, h⟩ := Option.bind_eq_some_iff.mp h
      obtain ⟨-, rfl⟩ := Size.mul?_eq_some_iff.mp multiplied
      rw [ih h, List.prod_cons, Nat.mul_assoc]

/-- The number of elements of a shape is the product of its sizes. -/
theorem Shape.numel?_eq_some {shape : Shape} {count : Nat} (h : shape.numel? = some count)
    : count = shape.dims.prod := by
  simpa using foldlM_mul?_eq_some h

/-- Smaller sizes fit where larger ones do, so a product from a smaller start does not run out
either.
-/
theorem Shape.foldlM_mul?_of_le {dims : List Nat} {start larger count : Nat} (le : start ≤ larger)
    (h : dims.foldlM Size.mul? larger = some count)
    : ∃ smaller, dims.foldlM Size.mul? start = some smaller := by
  induction dims generalizing start larger with
  | nil => exact ⟨start, rfl⟩
  | cons dim dims ih =>
      rw [List.foldlM_cons] at h ⊢
      obtain ⟨product, multiplied, h⟩ := Option.bind_eq_some_iff.mp h
      obtain ⟨fits, rfl⟩ := Size.mul?_eq_some_iff.mp multiplied
      have le : start * dim ≤ larger * dim := Nat.mul_le_mul_right dim le
      obtain ⟨smaller, found⟩ := ih le h
      refine ⟨smaller, Option.bind_eq_some_iff.mpr ⟨start * dim, ?_, found⟩⟩
      exact Size.mul?_eq_some_iff.mpr ⟨Nat.lt_of_le_of_lt le fits, rfl⟩

/-- One entry of a batch has a number of elements if the batch has one and is not empty. An empty
batch says nothing of its entries.
-/
theorem Shape.numel?_of_cons {batch count : Nat} {dims : List Nat} (positive : 0 < batch)
    (h : numel? ⟨batch :: dims⟩ = some count)
    : numel? ⟨dims⟩ = some dims.prod := by
  simp only [numel?, List.foldlM_cons] at h ⊢
  obtain ⟨product, multiplied, h⟩ := Option.bind_eq_some_iff.mp h
  obtain ⟨-, rfl⟩ := Size.mul?_eq_some_iff.mp multiplied
  obtain ⟨smaller, found⟩ := foldlM_mul?_of_le (by omega : 1 ≤ 1 * batch) h
  rw [found, numel?_eq_some found]

/-- A dimension of size one is of no account to the number of elements, wherever it is inserted. -/
theorem Shape.foldlM_mul?_insert {dims : List Nat} {start count : Nat} (fits : start < Size.bound)
    (position : Nat) (h : dims.foldlM Size.mul? start = some count)
    : (dims.insertIdx position 1).foldlM Size.mul? start = some count := by
  induction dims generalizing start position with
  | nil =>
      cases position with
      | zero =>
          cases h
          simp [Size.mul?, fits]
      | succ position => exact h
  | cons dim dims ih =>
      cases position with
      | zero =>
          rw [List.insertIdx_zero, List.foldlM_cons]
          simpa [Size.mul?, fits] using h
      | succ position =>
          rw [List.foldlM_cons] at h
          obtain ⟨product, multiplied, h⟩ := Option.bind_eq_some_iff.mp h
          rw [List.insertIdx_succ_cons, List.foldlM_cons, multiplied]
          obtain ⟨fits, rfl⟩ := Size.mul?_eq_some_iff.mp multiplied
          exact ih fits position h

theorem Shape.numel?_insert {shape inserted : Shape} {dim count : Nat}
    (h : shape.numel? = some count) (found : shape.unsqueeze? dim = some inserted)
    : inserted.numel? = some count := by
  unfold unsqueeze? at found
  split at found
  · cases found
    exact foldlM_mul?_insert (by decide) dim h
  · cases found

namespace Storage

/-- The flat index into an operand of sizes `dims` that belongs to flat index `flat` of a result of
sizes `sizes`. Along dimensions of size one, and where the operand has no dimension, the operand is
repeated.
-/
def gather : (sizes dims : List Nat) → (flat : Nat) → Nat
  | size :: sizes, dim :: dims, flat =>
      (if dim = 1 then 0 else flat % size) + dim * gather sizes dims (flat / size)
  | _, _, _ => 0

/-- Operand sizes that can be stretched to result sizes. -/
def Stretches : (dims sizes : List Nat) → Prop
  | [], _ => True
  | _ :: _, [] => False
  | dim :: dims, size :: sizes => (dim = 1 ∨ dim = size) ∧ Stretches dims sizes

@[simp] theorem gather_nil (sizes : List Nat) (flat : Nat) : gather sizes [] flat = 0 := by
  cases sizes <;> rfl

/-- Outer dimensions are advanced along once the inner ones are through: the flat index splits into
what is left of it within the inner sizes and the number of times they are passed.
-/
theorem gather_append {sizes dims : List Nat} (aligned : sizes.length = dims.length)
    (outer rest : List Nat) (flat : Nat)
    : gather (sizes ++ outer) (dims ++ rest) flat
      = gather sizes dims flat + dims.prod * gather outer rest (flat / sizes.prod) := by
  induction sizes generalizing dims flat with
  | nil =>
      obtain rfl := List.eq_nil_of_length_eq_zero aligned.symm
      simp
  | cons size sizes ih =>
      cases dims with
      | nil => cases aligned
      | cons dim dims =>
          simp only [List.cons_append, gather, ih (Nat.succ.inj aligned), List.prod_cons,
            Nat.div_div_eq_div_mul, Nat.mul_add, Nat.add_assoc, Nat.mul_assoc]

/-- Result dimensions outside those of the operand are of no account. -/
theorem gather_short {sizes dims : List Nat} (short : dims.length ≤ sizes.length)
    (outer : List Nat) (flat : Nat)
    : gather (sizes ++ outer) dims flat = gather sizes dims flat := by
  induction dims generalizing sizes flat with
  | nil => simp
  | cons dim dims ih =>
      cases sizes with
      | nil => cases short
      | cons size sizes =>
          simp only [List.cons_append, gather, ih (Nat.le_of_succ_le_succ short)]

/-- An operand whose dimensions are all one is read at its first element only. -/
theorem gather_ones (sizes : List Nat) (count flat : Nat)
    : gather sizes (List.replicate count 1) flat = 0 := by
  induction count generalizing sizes flat with
  | zero => simp
  | succ count ih =>
      cases sizes with
      | nil => rfl
      | cons size sizes => simp [List.replicate_succ, gather, ih]

/-- Outer operand dimensions of size one are of no account. -/
theorem gather_append_ones (sizes dims : List Nat) (count flat : Nat)
    : gather sizes (dims ++ List.replicate count 1) flat = gather sizes dims flat := by
  induction dims generalizing sizes flat with
  | nil => simp [gather_ones]
  | cons dim dims ih =>
      cases sizes with
      | nil => rfl
      | cons size sizes => simp only [List.cons_append, gather, ih]

/-- Advancing by whole entries leaves the index within an entry. -/
theorem gather_add_mul {sizes dims : List Nat} (short : dims.length ≤ sizes.length)
    (index flat : Nat)
    : gather sizes dims (index * sizes.prod + flat) = gather sizes dims flat := by
  induction dims generalizing sizes flat with
  | nil => simp
  | cons dim dims ih =>
      cases sizes with
      | nil => cases short
      | cons size sizes =>
          have split : index * (size * sizes.prod) = size * (index * sizes.prod) := by
            rw [Nat.mul_left_comm]
          simp only [gather, List.prod_cons, split, Nat.mul_add_mod]
          rcases Nat.eq_zero_or_pos size with rfl | positive
          · simp
          · rw [Nat.mul_add_div positive, ih (Nat.le_of_succ_le_succ short)]

/-- Where an operand can be stretched to a result, every index within the result leads to an element
of the operand. The induction is on the dimensions from the innermost one outwards.
-/
theorem gather_lt {sizes dims : List Nat} (stretches : Stretches dims sizes) {flat : Nat}
    (bound : flat < sizes.prod)
    : gather sizes dims flat < dims.prod := by
  induction dims generalizing sizes flat with
  | nil => simp
  | cons dim dims ih =>
      cases sizes with
      | nil => exact stretches.elim
      | cons size sizes =>
          obtain ⟨same, stretches⟩ := stretches
          rw [List.prod_cons] at bound
          have positive : 0 < size := Nat.pos_of_mul_pos_right (Nat.zero_lt_of_lt bound)
          have inner := ih stretches (Nat.div_lt_of_lt_mul bound)
          have step : dim * (gather sizes dims (flat / size) + 1) ≤ dim * dims.prod :=
            Nat.mul_le_mul_left dim inner
          rw [Nat.mul_add, Nat.mul_one] at step
          rw [gather, List.prod_cons]
          split
          · omega
          · rename_i wide
            obtain rfl := same.resolve_left wide
            have := Nat.mod_lt flat positive
            omega

/-- Entry `index` of a batch is made of entry `index` of a batched operand. The batch is the
outermost dimension of both, so the index splits into that of the entry and the one within it.
-/
theorem gather_batch {sizes dims : List Nat} {batch index flat : Nat}
    (aligned : sizes.length = dims.length) (inBatch : index < batch)
    (inEntry : flat < sizes.prod)
    : gather (sizes ++ [batch]) (dims ++ [batch]) (index * sizes.prod + flat)
      = index * dims.prod + gather sizes dims flat := by
  have entry : (index * sizes.prod + flat) / sizes.prod = index := by
    rw [Nat.mul_comm, Nat.mul_add_div (Nat.zero_lt_of_lt inEntry), Nat.div_eq_of_lt inEntry,
      Nat.add_zero]
  have along : gather [batch] [batch] index = index := by
    rw [gather, gather_nil, Nat.mul_zero, Nat.add_zero]
    split
    · omega
    · exact Nat.mod_eq_of_lt inBatch
  rw [gather_append aligned, gather_add_mul (Nat.le_of_eq aligned.symm), entry, along,
    Nat.add_comm, Nat.mul_comm]

/-- Strides under broadcasting if the elements of the innermost dimension are `inner` apart. -/
def stridesFrom (inner : Nat) : (dims : List Nat) → List Nat
  | [] => []
  | dim :: dims => (if dim = 1 then 0 else inner) :: stridesFrom (inner * dim) dims

/-- Strides of outer dimensions start where those of the inner ones leave off. -/
theorem stridesFrom_append (inner : Nat) (dims rest : List Nat)
    : stridesFrom inner (dims ++ rest)
      = stridesFrom inner dims ++ stridesFrom (inner * dims.prod) rest := by
  induction dims generalizing inner with
  | nil => simp [stridesFrom]
  | cons dim dims ih => simp [stridesFrom, ih, Nat.mul_assoc]

/-- Adding up strides is gathering, with every element `inner` apart. This is where the arithmetic
of the program and the recursion over dimensions meet.
-/
theorem operandIndex_stridesFrom (inner : Nat) (sizes dims : List Nat) (flat : Nat)
    : operandIndex sizes (stridesFrom inner dims) flat = inner * gather sizes dims flat := by
  induction dims generalizing inner sizes flat with
  | nil => cases sizes <;> rfl
  | cons dim dims ih =>
      cases sizes with
      | nil => rfl
      | cons size sizes =>
          simp only [stridesFrom, operandIndex, gather, ih, Nat.mul_add, Nat.mul_assoc]
          congr 1
          split
          · simp
          · rw [Nat.mul_comm]

/-- Strides that are found are the products of the inner sizes, and what is left over is the product
of all.
-/
theorem stridesOf?_eq_some {dims strides : List Nat} {outer : Nat}
    (h : Shape.stridesOf? dims = some (strides, outer))
    : strides.reverse = stridesFrom 1 dims.reverse ∧ outer = dims.prod := by
  induction dims generalizing strides outer with
  | nil =>
      cases h
      exact ⟨rfl, rfl⟩
  | cons dim dims ih =>
      obtain ⟨⟨inner, product⟩, found, h⟩ := Option.bind_eq_some_iff.mp h
      obtain ⟨total, multiplied, h⟩ := Option.bind_eq_some_iff.mp h
      obtain ⟨-, rfl⟩ := Size.mul?_eq_some_iff.mp multiplied
      cases h
      obtain ⟨reversed, rfl⟩ := ih found
      refine ⟨?_, by rw [List.prod_cons, Nat.mul_comm]⟩
      rw [List.reverse_cons, reversed, List.reverse_cons, stridesFrom_append,
        List.prod_reverse_nat, Nat.one_mul]
      rfl

/-- Strides of an operand lead to the elements that are gathered. -/
theorem operandIndex_broadcastStrides {operand : Shape} {strides : List Nat}
    (h : operand.broadcastStrides? = some strides) (sizes : List Nat) (flat : Nat)
    : operandIndex sizes strides.reverse flat = gather sizes operand.dims.reverse flat := by
  obtain ⟨⟨strides, outer⟩, found, rfl⟩ := Option.map_eq_some_iff.mp h
  rw [(stridesOf?_eq_some found).1, operandIndex_stridesFrom, Nat.one_mul]

/-- Where a shape has strides, so have its inner dimensions, as the products of these come first.
-/
theorem stridesOf?_of_append {outer dims : List Nat}
    (h : (Shape.stridesOf? (outer ++ dims)).isSome = true)
    : (Shape.stridesOf? dims).isSome = true := by
  induction outer with
  | nil => exact h
  | cons dim outer ih =>
      obtain ⟨result, h⟩ := Option.isSome_iff_exists.mp h
      obtain ⟨inner, found, _⟩ := Option.bind_eq_some_iff.mp h
      exact ih (Option.isSome_iff_exists.mpr ⟨inner, found⟩)

theorem broadcastStrides?_of_append {outer dims : List Nat}
    (h : (Shape.broadcastStrides? ⟨outer ++ dims⟩).isSome = true)
    : (Shape.broadcastStrides? ⟨dims⟩).isSome = true := by
  simp only [Shape.broadcastStrides?, Option.isSome_map] at h ⊢
  exact stridesOf?_of_append h

end Storage
end LayeredDispatch
