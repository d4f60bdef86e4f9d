import LayeredDispatch.Proofs.Families.Broadcasting
import Mathlib.Algebra.BigOperators.Group.List.Lemmas

/-! Element-wise operators on dense storage in closed form, and the entries of a batch. Main
statement: what an operator makes of batches is, entry by entry, what it makes of the entries.
-/

namespace LayeredDispatch

/-- Ways of ending that are due to sizes alone: a product is no size, or no buffer can hold so many
elements.
-/
def Exit.TooLarge : Exit → Prop
  | .fault .overflow => True
  | .fault .capacityOverflow => True
  | _ => False

namespace Outcome

theorem ok_bind (value : α) (next : α → Outcome β) : (Except.ok value >>= next) = next value :=
  rfl

/-- A sequence that gives a value has given one on the way. -/
theorem bind_ok {first : Outcome α} {next : α → Outcome β} {value : β}
    (h : (first >>= next) = .ok value)
    : ∃ between, first = .ok between ∧ next between = .ok value := by
  cases first with
  | ok between => exact ⟨between, rfl, h⟩
  | error exit => cases h

/-- A sequence that ends without a value has ended in its first part or in its second one. -/
theorem bind_error {first : Outcome α} {next : α → Outcome β} {exit : Exit}
    (h : (first >>= next) = .error exit)
    : first = .error exit ∨ ∃ between, first = .ok between ∧ next between = .error exit := by
  cases first with
  | ok between => exact Or.inr ⟨between, rfl, h⟩
  | error other =>
      cases h
      exact Or.inl rfl

/-- A value that was there is given. -/
theorem orFault_ok {value? : Option α} {fault : Fault} {value : α}
    (h : orFault value? fault = .ok value)
    : value? = some value := by
  cases value? <;> cases h
  rfl

theorem checkCapacity_ok {count : Size} (h : checkCapacity count = .ok ())
    : Size.fitsBuffer count = true := by
  unfold checkCapacity at h
  split at h
  · assumption
  · cases h

/-- Visits that can give one value only give that, if they all give one. -/
theorem mapM_ok {visit : α → Outcome β} {value : α → β}
    (h : ∀ item result, visit item = .ok result → result = value item) {items : List α}
    {results : List β} (ended : items.mapM visit = .ok results)
    : results = items.map value := by
  induction items generalizing results with
  | nil =>
      cases ended
      rfl
  | cons item items ih =>
      rw [List.mapM_cons] at ended
      obtain ⟨result, visited, ended⟩ := bind_ok ended
      obtain ⟨others, rest, ended⟩ := bind_ok ended
      cases ended
      rw [List.map_cons, h item result visited, ih rest]

/-- Visits that give values one by one give the list of them. -/
theorem mapM_of_ok {visit : α → Outcome β} {value : α → β} {items : List α}
    (h : ∀ item ∈ items, visit item = .ok (value item))
    : items.mapM visit = .ok (items.map value) := by
  induction items with
  | nil => rfl
  | cons item items ih =>
      rw [List.mapM_cons, h item List.mem_cons_self,
        ih fun other member => h other (List.mem_cons_of_mem _ member)]
      rfl

end Outcome

namespace Storage

open Outcome

/-- Storage whose number of elements is that of its shape. -/
def Sized (storage : Storage) : Prop :=
  storage.shape.numel? = some storage.data.size

/-- No size is too large where an operand is stretched to the shape of a result. -/
structure Room (result operand : Shape) : Prop where
  strides : operand.broadcastStrides?.isSome = true
  count : result.numel? = some result.dims.prod
  fits : Size.fitsBuffer result.dims.prod = true

/-- A shape with elements has no dimension of size zero, so no division by one is met at any of
them.
-/
theorem checkDivisors_eq_ok {dims : List Size} {flat : Nat} (inside : flat ∈ List.range dims.prod)
    : checkDivisors dims = .ok () := by
  have nonempty : dims.prod ≠ 0 := Nat.ne_zero_of_lt (List.mem_range.mp inside)
  refine if_neg fun zero => nonempty (Nat.eq_zero_of_zero_dvd ?_)
  exact List.dvd_prod (List.contains_iff_mem.mp zero)

/-- With room for a result the indices of an operand are the gathered ones, one for each element.
-/
theorem operandIndices_eq {result operand : Shape} (room : Room result operand)
    : operandIndices result operand
      = .ok ((List.range result.dims.prod).map
          (gather result.dims.reverse operand.dims.reverse)) := by
  obtain ⟨strides, found⟩ := Option.isSome_iff_exists.mp room.strides
  have capacity : checkCapacity result.dims.prod = .ok () := if_pos room.fits
  have same
      : operandIndex result.dims.reverse strides.reverse
        = gather result.dims.reverse operand.dims.reverse :=
    funext fun flat => operandIndex_broadcastStrides found _ flat
  have split
      : (List.range result.dims.prod).mapM
          (fun flat => do
            checkDivisors result.dims
            return gather result.dims.reverse operand.dims.reverse flat : _ → Outcome Nat)
        = .ok ((List.range result.dims.prod).map
          (gather result.dims.reverse operand.dims.reverse)) :=
    mapM_of_ok fun flat inside => by rw [checkDivisors_eq_ok inside]; rfl
  simp only [operandIndices, found, room.count, orFault, ok_bind, capacity, same, split]

/-- Indices that are found had room. -/
theorem operandIndices_ok {result operand : Shape} {indices : List Nat}
    (h : operandIndices result operand = .ok indices)
    : Room result operand := by
  obtain ⟨strides, found, h⟩ := bind_ok h
  obtain ⟨count, counted, h⟩ := bind_ok h
  obtain ⟨_, fits, _⟩ := bind_ok h
  have found := orFault_ok found
  have counted := orFault_ok counted
  obtain rfl := Shape.numel?_eq_some counted
  exact ⟨by rw [found]; rfl, counted, checkCapacity_ok fits⟩

/-- Indices that are not found lack room, and nothing else: there is no dimension of size zero to
divide by, since the loop has no rounds then.
-/
theorem operandIndices_error {result operand : Shape} {exit : Exit}
    (h : operandIndices result operand = .error exit)
    : exit.TooLarge := by
  have whole := h
  have overflow {β : Type} {value? : Option β} (h : orFault value? .overflow = .error exit)
      : exit.TooLarge := by
    cases value? <;> cases h
    trivial
  rcases bind_error h with h | ⟨strides, found, h⟩
  · exact overflow h
  rcases bind_error h with h | ⟨count, counted, h⟩
  · exact overflow h
  rcases bind_error h with h | ⟨_, fits, _⟩
  · unfold checkCapacity at h
    split at h <;> cases h
    trivial
  · -- Past these checks nothing is divided by zero.
    have counted := orFault_ok counted
    obtain rfl := Shape.numel?_eq_some counted
    have room : Room result operand :=
      ⟨by rw [orFault_ok found]; rfl, counted, checkCapacity_ok fits⟩
    rw [operandIndices_eq room] at whole
    cases whole

/-- The element of an operand that belongs to a flat index of a result, whose sizes are listed
innermost first.
-/
def element (storage : Storage) (sizes : List Nat) (flat : Nat) : Float :=
  storage.data.getD (gather sizes storage.shape.dims.reverse flat) 0

/-- What operands make if there is room for the result. -/
def combined (combine : Float → Float → Float) (shape : Shape) (left right : Storage)
    : Storage where
  shape := shape
  data :=
    ((List.range shape.dims.prod).map fun flat =>
      combine (left.element shape.dims.reverse flat)
        (right.element shape.dims.reverse flat)).toArray

theorem read_ok {storage : Storage} {index : Nat} {element : Float}
    (h : storage.read index = .ok element)
    : element = storage.data.getD index 0 := by
  simp [orFault_ok h]

theorem read_of_lt {storage : Storage} {index : Nat} (bound : index < storage.data.size)
    : storage.read index = .ok (storage.data.getD index 0) := by
  simp [read, orFault, bound]

variable {op : String} {left right : Storage} {combine : Float → Float → Float}

/-- An element-wise operator that gives a result had room for it on both sides, and the result is
what is combined element by element.
-/
theorem broadcastBinary_ok {result : Storage}
    (h : broadcastBinary op left right combine = .ok result)
    : ∃ shape,
        left.shape.broadcast? right.shape = some shape
        ∧ Room shape left.shape
        ∧ Room shape right.shape
        ∧ result = combined combine shape left right := by
  unfold broadcastBinary at h
  split at h
  · cases h
  · rename_i shape found
    obtain ⟨leftIndices, ofLeft, h⟩ := bind_ok h
    obtain ⟨rightIndices, ofRight, h⟩ := bind_ok h
    obtain ⟨elements, read, h⟩ := bind_ok h
    cases h
    have leftRoom := operandIndices_ok ofLeft
    have rightRoom := operandIndices_ok ofRight
    refine ⟨shape, found, leftRoom, rightRoom, ?_⟩
    rw [operandIndices_eq leftRoom] at ofLeft
    rw [operandIndices_eq rightRoom] at ofRight
    cases ofLeft
    cases ofRight
    have values := @mapM_ok (Nat × Nat) Float _
      (fun pair => combine (left.data.getD pair.1 0) (right.data.getD pair.2 0))
      (fun pair result visited => by
        obtain ⟨first, ofFirst, visited⟩ := bind_ok visited
        obtain ⟨second, ofSecond, visited⟩ := bind_ok visited
        cases visited
        rw [read_ok ofFirst, read_ok ofSecond]) _ _ read
    rw [List.zip_map', List.map_map] at values
    rw [values]
    rfl

/-- The number of elements of an operand is enough for all elements of a result. -/
theorem read_gathered {storage : Storage} {sizes : List Nat} {flat : Nat} (sized : storage.Sized)
    (stretches : Stretches storage.shape.dims.reverse sizes) (bound : flat < sizes.prod)
    : storage.read (gather sizes storage.shape.dims.reverse flat)
      = .ok (storage.element sizes flat) := by
  refine read_of_lt ?_
  rw [Shape.numel?_eq_some sized, ← List.prod_reverse_nat]
  exact gather_lt stretches bound

/-- An operand can be stretched to what it broadcasts to. -/
theorem stretches_of_broadcast? {left right shape : Shape}
    (h : left.broadcast? right = some shape)
    : Stretches left.dims.reverse shape.dims.reverse := by
  obtain ⟨sizes, joined, rfl⟩ := Option.map_eq_some_iff.mp h
  rw [List.reverse_reverse]
  exact (Shape.joinDims?_eq_some joined).1

/-- All elements of the operands that a result is made of can be read, since they are gathered
within the operands.
-/
theorem mapM_gathered {sizes : List Nat} (combine : Float → Float → Float)
    (leftSized : left.Sized) (rightSized : right.Sized)
    (ofLeft : Stretches left.shape.dims.reverse sizes.reverse)
    (ofRight : Stretches right.shape.dims.reverse sizes.reverse)
    : ((List.range sizes.prod).map fun flat =>
          (gather sizes.reverse left.shape.dims.reverse flat,
            gather sizes.reverse right.shape.dims.reverse flat)).mapM (fun (i, j) => do
          return combine (← left.read i) (← right.read j))
      = (Except.ok (((List.range sizes.prod).map fun flat =>
            (gather sizes.reverse left.shape.dims.reverse flat,
              gather sizes.reverse right.shape.dims.reverse flat)).map fun (i, j) =>
          combine (left.data.getD i 0) (right.data.getD j 0)) : Outcome (List Float)) := by
  refine mapM_of_ok ?_
  intro pair member
  obtain ⟨flat, inRange, rfl⟩ := List.mem_map.mp member
  have bound : flat < sizes.reverse.prod := by
    rw [List.prod_reverse_nat]
    exact List.mem_range.mp inRange
  simp only [read_gathered leftSized ofLeft bound, read_gathered rightSized ofRight bound]
  rfl

/-- With room for it there is a result, and it is what is combined element by element. -/
theorem broadcastBinary_eq {shape : Shape} (leftSized : left.Sized) (rightSized : right.Sized)
    (found : left.shape.broadcast? right.shape = some shape) (leftRoom : Room shape left.shape)
    (rightRoom : Room shape right.shape)
    : broadcastBinary op left right combine = .ok (combined combine shape left right) := by
  have ofLeft := stretches_of_broadcast? found
  have ofRight := stretches_of_broadcast? (by rwa [Shape.broadcast?_comm] at found)
  simp only [broadcastBinary, found, operandIndices_eq leftRoom, operandIndices_eq rightRoom,
    ok_bind, List.zip_map']
  rw [mapM_gathered combine leftSized rightSized ofLeft ofRight, List.map_map]
  rfl

/-- Without a result the shapes do not combine, or there is no room. The operands hold as many
elements as their shapes say, so reading them cannot fail.
-/
theorem broadcastBinary_error {exit : Exit} (leftSized : left.Sized) (rightSized : right.Sized)
    (h : broadcastBinary op left right combine = .error exit)
    : left.shape.broadcast? right.shape = none ∨ exit.TooLarge := by
  cases found : left.shape.broadcast? right.shape with
  | none => exact Or.inl rfl
  | some shape =>
      right
      cases ofLeft : operandIndices shape left.shape with
      | error other =>
          simp only [broadcastBinary, found, ofLeft] at h
          cases h
          exact operandIndices_error ofLeft
      | ok leftIndices =>
          cases ofRight : operandIndices shape right.shape with
          | error other =>
              simp only [broadcastBinary, found, ofLeft, ofRight] at h
              cases h
              exact operandIndices_error ofRight
          | ok rightIndices =>
              rw [broadcastBinary_eq leftSized rightSized found (operandIndices_ok ofLeft)
                (operandIndices_ok ofRight)] at h
              cases h

theorem sized_combined {shape operand : Shape} (room : Room shape operand)
    : (combined combine shape left right).Sized := by
  simp only [Sized, combined, room.count, List.size_toArray, List.length_map, List.length_range]

-----------------------------------------------------------------------------------------
-- Entries of batches
-----------------------------------------------------------------------------------------

/-- Entry `index` of storage whose outermost dimension is a batch dimension. -/
def slice (storage : Storage) (index : Nat) : Storage where
  shape := storage.shape.dropLeading
  data :=
    storage.data.extract (index * storage.shape.dropLeading.dims.prod)
      ((index + 1) * storage.shape.dropLeading.dims.prod)

/-- An entry of a batch holds as many elements as its shape says. -/
theorem Sized.slice {storage : Storage} {batch index : Nat} (h : storage.Sized)
    (outermost : storage.shape.dims.head? = some batch) (inBatch : index < batch)
    : (storage.slice index).Sized := by
  obtain ⟨⟨dims⟩, data⟩ := storage
  obtain ⟨inner, rfl⟩ := List.head?_eq_some_iff.mp outermost
  have count := Shape.numel?_eq_some h
  have upTo : (index + 1) * inner.prod ≤ data.size := by
    rw [count, List.prod_cons]
    exact Nat.mul_le_mul_right _ inBatch
  simp only [Sized, Storage.slice, Shape.dropLeading, List.drop_succ_cons, List.drop_zero,
    Array.size_extract]
  rw [Nat.min_eq_left upTo, Nat.add_mul, Nat.one_mul, Nat.add_sub_cancel_left]
  exact Shape.numel?_of_cons (Nat.zero_lt_of_lt inBatch) h

/-- An operand of a batched call and its part in entry `index`: it is a batch, padded to logical rank
`rank` behind its batch dimension, or shared by all entries.
-/
inductive Entry (batch index rank : Nat) : Storage → Storage → Prop where
  | batched (dims : List Nat) (ones : Nat) (data : Array Float)
    (padded : dims.length + ones = rank)
    : Entry batch index rank ⟨⟨batch :: (List.replicate ones 1 ++ dims)⟩, data⟩
        (slice ⟨⟨batch :: dims⟩, data⟩ index)
  | shared (storage : Storage) (short : storage.shape.rank ≤ rank)
    : Entry batch index rank storage storage

/-- The shapes of a batch and of its entries are related as the storages are. -/
theorem Entry.shape {batch index rank : Nat} {whole entry : Storage}
    (h : Entry batch index rank whole entry)
    : Shape.Entry batch rank whole.shape entry.shape := by
  cases h with
  | batched dims ones data padded => exact .batched dims ones padded
  | shared _ short => exact .shared _ short

/-- The elements of an entry are those of the batch behind the entries before it. -/
theorem getD_slice (batch index offset : Nat) (dims : List Nat) (data : Array Float)
    (bound : offset < dims.prod)
    : (slice ⟨⟨batch :: dims⟩, data⟩ index).data.getD offset 0
      = data.getD (index * dims.prod + offset) 0 := by
  simp only [slice, Shape.dropLeading, List.drop_succ_cons, List.drop_zero, Array.getD_eq_getD_getElem?,
    Array.getElem?_extract, Nat.add_mul, Nat.one_mul]
  split
  · rfl
  · rename_i outside
    rw [Array.getElem?_eq_none]
    omega

/-- Elements of an entry of a result are made of elements of the entries of its operands, for a
batch by the index of the entry and for a shared operand by the operand itself.
-/
theorem Entry.element {batch index rank flat : Nat} {whole entry : Storage} {sizes : List Nat}
    (h : Entry batch index rank whole entry) (full : sizes.length = rank)
    (stretches : Stretches entry.shape.dims.reverse sizes) (inBatch : index < batch)
    (inEntry : flat < sizes.prod)
    : whole.element (sizes ++ [batch]) (index * sizes.prod + flat)
      = entry.element sizes flat := by
  cases h with
  | batched dims ones data padded =>
      have aligned : sizes.length = (dims.reverse ++ List.replicate ones 1).length := by
        simp only [List.length_append, List.length_reverse, List.length_replicate, padded, full]
      have within : gather sizes dims.reverse flat < dims.prod := by
        rw [← List.prod_reverse_nat]
        exact gather_lt stretches inEntry
      have found := getD_slice batch index _ dims data within
      simp only [Storage.element, Shape.reverse_batched, gather_batch aligned inBatch inEntry,
        List.prod_append_nat, List.prod_replicate_nat, List.prod_reverse_nat, Nat.one_pow,
        Nat.mul_one, gather_append_ones]
      exact found.symm
  | shared _ short =>
      have short : whole.shape.dims.reverse.length ≤ sizes.length := by
        rw [List.length_reverse, full]
        exact short
      simp only [Storage.element, gather_short short, gather_add_mul short]

/-- An entry of what is combined is combined of the entries, if the elements are. -/
theorem slice_combined {batch index : Nat} {dims : List Nat} {left right first second : Storage}
    (inBatch : index < batch)
    (ofLeft
      : ∀ flat < dims.prod,
          left.element (dims.reverse ++ [batch]) (index * dims.prod + flat)
          = first.element dims.reverse flat)
    (ofRight
      : ∀ flat < dims.prod,
          right.element (dims.reverse ++ [batch]) (index * dims.prod + flat)
          = second.element dims.reverse flat)
    : (combined combine ⟨batch :: dims⟩ left right).slice index
      = combined combine ⟨dims⟩ first second := by
  have upTo : (index + 1) * dims.prod ≤ batch * dims.prod := Nat.mul_le_mul_right _ inBatch
  simp only [combined, slice, Shape.dropLeading, List.drop_succ_cons, List.drop_zero,
    List.prod_cons, List.reverse_cons, mk.injEq, true_and]
  apply Array.ext
  · simp only [Array.size_extract, List.size_toArray, List.length_map, List.length_range]
    rw [Nat.min_eq_left upTo, Nat.add_mul, Nat.one_mul, Nat.add_sub_cancel_left]
  · intro flat inSlice inEntry
    simp only [List.size_toArray, List.length_map, List.length_range] at inEntry
    simp only [Array.getElem_extract, List.getElem_toArray, List.getElem_map,
      List.getElem_range, ofLeft flat inEntry, ofRight flat inEntry]

/-- Where there is room for a batch there is room for each of its entries. -/
theorem Room.entry {batch index rank : Nat} {dims : List Nat} {whole entry : Storage}
    (h : Room ⟨batch :: dims⟩ whole.shape) (ofWhole : Entry batch index rank whole entry)
    (positive : 0 < batch)
    : Room ⟨dims⟩ entry.shape := by
  refine ⟨?_, Shape.numel?_of_cons positive h.count, ?_⟩
  · cases ofWhole with
    | batched inner ones data padded =>
        exact @broadcastStrides?_of_append (batch :: List.replicate ones 1) inner h.strides
    | shared _ short => exact h.strides
  · have le : dims.prod * 8 ≤ batch * dims.prod * 8 :=
      Nat.mul_le_mul_right 8 (Nat.le_mul_of_pos_left dims.prod positive)
    exact decide_eq_true (Nat.lt_of_le_of_lt le (of_decide_eq_true h.fits))

/-- What an operator makes of batches is, entry by entry, what it makes of the entries. The batch
has room for its result, so the entries have, and their elements are the same.
-/
theorem broadcastBinary_entry {batch index rank : Nat} {first second result : Storage}
    (ofLeft : Entry batch index rank left first) (ofRight : Entry batch index rank right second)
    (full : rank = max first.shape.rank second.shape.rank)
    (batched : rank < left.shape.rank ∨ rank < right.shape.rank) (inBatch : index < batch)
    (firstSized : first.Sized) (secondSized : second.Sized)
    (h : broadcastBinary op left right combine = .ok result)
    : broadcastBinary op first second combine = .ok (result.slice index) := by
  obtain ⟨shape, joined, leftRoom, rightRoom, rfl⟩ := broadcastBinary_ok h
  rw [Shape.broadcast?_entry ofLeft.shape ofRight.shape full batched] at joined
  obtain ⟨⟨dims⟩, found, rfl⟩ := Option.map_eq_some_iff.mp joined
  have size : dims.reverse.length = rank := by
    obtain ⟨sizes, merged, same⟩ := Option.map_eq_some_iff.mp found
    rw [← (Shape.mk.inj same), full, List.reverse_reverse, (Shape.joinDims?_eq_some merged).2,
      List.length_reverse, List.length_reverse]
    rfl
  have ofFirst := stretches_of_broadcast? found
  have ofSecond := stretches_of_broadcast? (by rwa [Shape.broadcast?_comm] at found)
  have positive : 0 < batch := Nat.zero_lt_of_lt inBatch
  rw [broadcastBinary_eq firstSized secondSized found (leftRoom.entry ofLeft positive)
    (rightRoom.entry ofRight positive)]
  congr 1
  refine (slice_combined inBatch (fun flat inEntry => ?_) fun flat inEntry => ?_).symm
  · have same := ofLeft.element size ofFirst inBatch (by rwa [List.prod_reverse_nat])
    rwa [List.prod_reverse_nat] at same
  · have same := ofRight.element size ofSecond inBatch (by rwa [List.prod_reverse_nat])
    rwa [List.prod_reverse_nat] at same

end Storage
end LayeredDispatch
