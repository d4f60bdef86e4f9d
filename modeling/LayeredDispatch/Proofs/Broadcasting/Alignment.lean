import LayeredDispatch.Proofs.Families.Broadcasting

/-! Broadcasting of shapes, place by place from the innermost dimension outwards. Main statements: two
shapes broadcast to the shape whose sizes are those to which their sizes broadcast, and this is the join
of an order on shapes in which some pairs have no upper bound.
-/

namespace LayeredDispatch
namespace Shape

-----------------------------------------------------------------------------------------
-- Two sizes
-----------------------------------------------------------------------------------------

@[simp] theorem joinDim?_self (size : Nat) : joinDim? size size = some size := by
  simp [joinDim?]

@[simp] theorem joinDim?_one_left (size : Nat) : joinDim? 1 size = some size := by
  unfold joinDim?
  grind

@[simp] theorem joinDim?_one_right (size : Nat) : joinDim? size 1 = some size := by
  rw [joinDim?_comm, joinDim?_one_left]

/-- Two sizes broadcast if they are the same or one of them is one, and this is the size that they
broadcast to.
-/
theorem joinDim?_eq_some_iff {left right joined : Nat}
    : joinDim? left right = some joined
      ↔ left = right ∧ joined = left ∨ left = 1 ∧ joined = right ∨ right = 1 ∧ joined = left := by
  unfold joinDim?
  grind

/-- Two sizes do not broadcast if they differ and neither is one. -/
theorem joinDim?_eq_none_iff {left right : Nat}
    : joinDim? left right = none ↔ left ≠ right ∧ left ≠ 1 ∧ right ≠ 1 := by
  unfold joinDim?
  grind

/-- Three sizes broadcast alike from either side, and fail alike too. If the first or the last one
is one it drops out; otherwise all that are not one must be the same.
-/
theorem joinDim?_assoc (first second third : Nat)
    : (joinDim? first second).bind (joinDim? · third)
      = (joinDim? second third).bind (joinDim? first) := by
  rcases eq_or_ne first 1 with rfl | wideFirst
  · have unit : joinDim? 1 = some := funext joinDim?_one_left
    rw [unit, Option.bind_some, Option.bind_fun_some]
  rcases eq_or_ne second 1 with rfl | wideSecond
  · simp
  rcases eq_or_ne third 1 with rfl | wideThird
  · simp
  · -- Sizes other than one only broadcast to themselves.
    rcases eq_or_ne first second with rfl | apart
    · rcases eq_or_ne first third with rfl | apart <;> simp [joinDim?, *]
    · rcases eq_or_ne second third with rfl | apart <;> simp [joinDim?, *]

-----------------------------------------------------------------------------------------
-- All sizes
-----------------------------------------------------------------------------------------

/-- Lists of sizes are the same if they are as long and have the same sizes in all places. -/
theorem eq_iff_getD {left right : List Nat}
    : left = right ↔ right.length = left.length ∧ ∀ place, left.getD place 1 = right.getD place 1 := by
  refine ⟨fun same => same ▸ ⟨rfl, fun _ => rfl⟩, fun ⟨length, same⟩ => ?_⟩
  refine List.ext_getElem length.symm fun place inLeft inRight => ?_
  simpa [inLeft, inRight] using same place

theorem joinDims?_cons_eq_some_iff {dim other size : Nat} {left right sizes : List Nat}
    : joinDims? (dim :: left) (other :: right) = some (size :: sizes)
      ↔ joinDim? dim other = some size ∧ joinDims? left right = some sizes := by
  simp [joinDims?, Option.bind_eq_some_iff]

/-- Two lists of sizes broadcast place by place, where a list that has ended counts as ones. The
induction is on the first list, with the second one general.
-/
theorem joinDims?_eq_some_iff {left right sizes : List Nat}
    : joinDims? left right = some sizes
      ↔ sizes.length = max left.length right.length
        ∧ ∀ place,
            joinDim? (left.getD place 1) (right.getD place 1) = some (sizes.getD place 1) := by
  induction left generalizing right sizes with
  | nil => simp [joinDims?, eq_iff_getD]
  | cons dim left ih =>
      cases right with
      | nil => simp [joinDims?, @eq_iff_getD (dim :: left)]
      | cons other right =>
          cases sizes with
          | nil => simp [joinDims?, Option.bind_eq_some_iff]
          | cons size sizes =>
              rw [← Nat.and_forall_add_one, joinDims?_cons_eq_some_iff, ih]
              simp only [List.length_cons, Nat.succ_max_succ, Nat.succ.injEq, List.getD_cons_zero,
                List.getD_cons_succ]
              exact and_left_comm

/-- They do not broadcast if some place does not. -/
theorem joinDims?_eq_none_iff {left right : List Nat}
    : joinDims? left right = none
      ↔ ∃ place, joinDim? (left.getD place 1) (right.getD place 1) = none := by
  induction left generalizing right with
  | nil => simp [joinDims?]
  | cons dim left ih =>
      cases right with
      | nil => simp [joinDims?]
      | cons other right =>
          rw [← Nat.or_exists_add_one]
          simp only [List.getD_cons_zero, List.getD_cons_succ, ← ih, joinDims?]
          cases joinDim? dim other <;> cases joinDims? left right <;> simp

/-- The size of a dimension, counted from the innermost one; a missing dimension counts as one. -/
def sizeAt (shape : Shape) (place : Nat) : Nat :=
  shape.dims.reverse.getD place 1

@[simp] theorem sizeAt_scalar (place : Nat) : scalar.sizeAt place = 1 := by
  simp [sizeAt, scalar]

/-- A dimension of size zero is found at some place, counted from the innermost one. -/
theorem zero_mem_dims_iff {shape : Shape} : 0 ∈ shape.dims ↔ ∃ place, shape.sizeAt place = 0 := by
  rw [← List.mem_reverse, List.mem_iff_getElem?]
  refine exists_congr fun place => ?_
  rw [sizeAt, List.getD_eq_getElem?_getD]
  cases shape.dims.reverse[place]? <;> simp

variable {left right joined first second third : Shape}

/-- Two shapes broadcast place by place to a shape of the greater rank. The sizes are listed
outermost first and aligned at the other end, so the lists are reversed on the way.
-/
theorem broadcast?_eq_some_iff
    : left.broadcast? right = some joined
      ↔ joined.rank = max left.rank right.rank
        ∧ ∀ place, joinDim? (left.sizeAt place) (right.sizeAt place) = some (joined.sizeAt place) := by
  have reversed
      : left.broadcast? right = some joined
        ↔ joinDims? left.dims.reverse right.dims.reverse = some joined.dims.reverse := by
    rw [broadcast?, Option.map_eq_some_iff]
    constructor
    · rintro ⟨sizes, found, rfl⟩
      rw [found, List.reverse_reverse]
    · exact fun found => ⟨_, found, by rw [List.reverse_reverse]⟩
  simp only [reversed, joinDims?_eq_some_iff, List.length_reverse, rank, sizeAt]

/-- Two shapes do not broadcast if some place does not. -/
theorem broadcast?_eq_none_iff
    : left.broadcast? right = none
      ↔ ∃ place, joinDim? (left.sizeAt place) (right.sizeAt place) = none := by
  rw [broadcast?, Option.map_eq_none_iff, joinDims?_eq_none_iff]
  rfl

-----------------------------------------------------------------------------------------
-- Joins
-----------------------------------------------------------------------------------------

/-- A shape broadcasts to itself. -/
theorem broadcast?_self (shape : Shape) : shape.broadcast? shape = some shape := by
  simp [broadcast?_eq_some_iff]

/-- The scalar shape changes no other one. -/
theorem broadcast?_scalar_left (shape : Shape) : scalar.broadcast? shape = some shape := by
  have rank : scalar.rank = 0 := rfl
  simp [broadcast?_eq_some_iff, rank]

/-- Three shapes broadcast place by place, too. So what is known of three sizes carries over to
three shapes.
-/
theorem bind_broadcast?_eq_some_iff
    : (first.broadcast? second).bind (·.broadcast? third) = some joined
      ↔ joined.rank = max (max first.rank second.rank) third.rank
        ∧ ∀ place,
            (joinDim? (first.sizeAt place) (second.sizeAt place)).bind
                (joinDim? · (third.sizeAt place))
              = some (joined.sizeAt place) := by
  constructor
  · intro found
    obtain ⟨between, inner, outer⟩ := Option.bind_eq_some_iff.mp found
    obtain ⟨innerRank, innerSizes⟩ := broadcast?_eq_some_iff.mp inner
    obtain ⟨outerRank, outerSizes⟩ := broadcast?_eq_some_iff.mp outer
    exact ⟨innerRank ▸ outerRank, fun place => by rw [innerSizes, Option.bind_some, outerSizes]⟩
  · rintro ⟨rank, sizes⟩
    cases inner : first.broadcast? second with
    | none =>
        obtain ⟨place, clash⟩ := broadcast?_eq_none_iff.mp inner
        have found := sizes place
        rw [clash] at found
        cases found
    | some between =>
        obtain ⟨innerRank, innerSizes⟩ := broadcast?_eq_some_iff.mp inner
        refine broadcast?_eq_some_iff.mpr ⟨innerRank ▸ rank, fun place => ?_⟩
        simpa [innerSizes] using sizes place

/-- Three shapes broadcast alike from either side, and fail alike too. -/
theorem broadcast?_assoc (first second third : Shape)
    : (first.broadcast? second).bind (·.broadcast? third)
      = (second.broadcast? third).bind first.broadcast? := by
  have turned
      : (second.broadcast? third).bind first.broadcast?
        = (second.broadcast? third).bind (·.broadcast? first) := by
    rw [funext (broadcast?_comm first)]
  have turnedAt (place : Nat)
      : (joinDim? (first.sizeAt place) (second.sizeAt place)).bind
            (joinDim? · (third.sizeAt place))
        = (joinDim? (second.sizeAt place) (third.sizeAt place)).bind
            (joinDim? · (first.sizeAt place)) := by
    rw [joinDim?_assoc, funext (joinDim?_comm (first.sizeAt place))]
  refine Option.ext fun joined => ?_
  simp only [turned, bind_broadcast?_eq_some_iff, turnedAt]
  rw [Nat.max_assoc, Nat.max_comm first.rank]

/-- Both of two shapes broadcast to what they broadcast to together, by associativity and since a
shape broadcasts to itself.
-/
theorem broadcast?_upper (found : left.broadcast? right = some joined)
    : left.broadcast? joined = some joined := by
  have again := broadcast?_assoc left left right
  simpa [broadcast?_self, found] using again.symm

/-- Where two shapes broadcast to a third one, what they broadcast to is the least such shape. -/
theorem broadcast?_least {bound : Shape} (ofLeft : left.broadcast? bound = some bound)
    (ofRight : right.broadcast? bound = some bound)
    : ∃ joined, left.broadcast? right = some joined ∧ joined.broadcast? bound = some bound := by
  have both := broadcast?_assoc left right bound
  rw [ofRight, Option.bind_some, ofLeft] at both
  exact Option.bind_eq_some_iff.mp both

/-- The laws of a join that not all shapes have. A shape is below another one if joined with it it makes
no difference to it.
-/
structure PartialJoin (join : Shape → Shape → Option Shape) (unit : Shape) : Prop where
  comm : ∀ left right, join left right = join right left
  self : ∀ shape, join shape shape = some shape
  unit_left : ∀ shape, join unit shape = some shape
  assoc
    : ∀ first second third,
        (join first second).bind (join · third) = (join second third).bind (join first)
  bounded
    : ∀ left right,
        (∃ bound, join left bound = some bound ∧ join right bound = some bound)
        ↔ (join left right).isSome = true
  least
    : ∀ left right joined,
        join left right = some joined
        → ∀ bound,
            join left bound = some bound
            → join right bound = some bound
            → join joined bound = some bound

/-- Broadcasting is a join of shapes in which some pairs have no upper bound. Being below another
shape is not defined apart from the join, so the laws follow from associativity.
-/
theorem broadcast?_partialJoin : PartialJoin broadcast? scalar where
  comm := broadcast?_comm
  self := broadcast?_self
  unit_left := broadcast?_scalar_left
  assoc := broadcast?_assoc
  bounded left right := by
    constructor
    · rintro ⟨bound, ofLeft, ofRight⟩
      obtain ⟨joined, found, -⟩ := broadcast?_least ofLeft ofRight
      rw [found, Option.isSome_some]
    · intro defined
      obtain ⟨joined, found⟩ := Option.isSome_iff_exists.mp defined
      exact ⟨joined, broadcast?_upper found, broadcast?_upper (broadcast?_comm left right ▸ found)⟩
  least left right joined found bound ofLeft ofRight := by
    obtain ⟨least, same, below⟩ := broadcast?_least ofLeft ofRight
    rw [found, Option.some_inj] at same
    rwa [same]

end Shape
end LayeredDispatch
