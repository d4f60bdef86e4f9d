import LayeredDispatch.Kernels.Base

/-! What makes an operator count as an in-place one.

The slots of one alias set share their storage, so that an operator returns the argument that it
writes where that argument and the return are of one set. The check on schemas asks for a written
argument and a written return, and for no other annotation on the arguments; it leaves the names of
the two sets aside.

Main statement: `Schema.isInPlace_iff`.
-/

namespace LayeredDispatch

namespace Slot

/-- The slot is written, through alias set `set`. -/
def Writes (slot : Slot) (set : Char) : Prop :=
  slot.alias? = some ⟨set, true⟩

/-- A slot is written exactly if it is written through some alias set. -/
theorem isWritten_iff {slot : Slot} : slot.isWritten = true ↔ ∃ set, slot.Writes set := by
  unfold isWritten Writes
  cases slot.alias? with
  | none => simp
  | some info =>
      cases info with
      | mk set written => simp

/-- A slot is written through one alias set only, the one of its annotation. -/
theorem Writes.unique {slot : Slot} {set set' : Char} (one : slot.Writes set)
    (other : slot.Writes set')
    : set = set' := by
  have same : some (Alias.mk set true) = some ⟨set', true⟩ := one.symm.trans other
  simpa using same

end Slot

namespace Schema

variable {schema : Schema} {set written returned : Char}

/-- The first argument is written, through alias set `set`, and no other argument is aliased. -/
def WritesFirst (schema : Schema) (set : Char) : Prop :=
  ∃ first others,
    schema.arguments = first :: others
    ∧ first.Writes set
    ∧ ∀ other ∈ others, other.alias? = none

/-- There is one return, and it is written through alias set `set`. -/
def ReturnsWritten (schema : Schema) (set : Char) : Prop :=
  ∃ result, schema.returns = [result] ∧ result.Writes set

/-- The operator returns the argument that it writes: its first argument alone is aliased, it is
written, and the one return is written through the same alias set. -/
def ReturnsTarget (schema : Schema) : Prop :=
  ∃ set, schema.WritesFirst set ∧ schema.ReturnsWritten set

/-- The check on the schema tells whether the operator returns the argument that it writes. -/
def ClassifiedRight (schema : Schema) : Prop :=
  schema.isInPlace = true ↔ schema.ReturnsTarget

/-- There is one first argument, so it is written through one alias set. -/
theorem WritesFirst.unique (one : schema.WritesFirst written) (other : schema.WritesFirst returned)
    : written = returned := by
  obtain ⟨first, others, arguments, writes, -⟩ := one
  obtain ⟨first', others', arguments', writes', -⟩ := other
  obtain ⟨rfl, rfl⟩ : first = first' ∧ others = others' := by
    simpa using arguments.symm.trans arguments'
  exact writes.unique writes'

/-- There is one return, so it is written through one alias set. -/
theorem ReturnsWritten.unique (one : schema.ReturnsWritten written)
    (other : schema.ReturnsWritten returned)
    : written = returned := by
  obtain ⟨result, returns, writes⟩ := one
  obtain ⟨result', returns', writes'⟩ := other
  obtain rfl : result = result' := by simpa using returns.symm.trans returns'
  exact writes.unique writes'

-----------------------------------------------------------------------------------------
-- The two halves of the check
-----------------------------------------------------------------------------------------

/-- What the check asks of the arguments: the first one is written, and no other one has an
annotation.
The list of the arguments is known, so the first one that is spoken of is the one in front.
-/
theorem exists_writesFirst_iff {first : Slot} {others : List Slot}
    (arguments : schema.arguments = first :: others)
    : (∃ set, schema.WritesFirst set)
        ↔ first.isWritten = true ∧ others.all (fun slot => slot.alias?.isNone) = true := by
  rw [Slot.isWritten_iff, List.all_eq_true]
  constructor
  · rintro ⟨set, first', others', arguments', writes, free⟩
    obtain ⟨rfl, rfl⟩ : first = first' ∧ others = others' := by
      simpa using arguments.symm.trans arguments'
    exact ⟨⟨set, writes⟩, fun other held => by simp [free other held]⟩
  · rintro ⟨⟨set, writes⟩, free⟩
    exact ⟨set, first, others, arguments, writes, fun other held => by simpa using free other held⟩

/-- What the check asks of the returns: the single one is written. -/
theorem exists_returnsWritten_iff {result : Slot} (returns : schema.returns = [result])
    : (∃ set, schema.ReturnsWritten set) ↔ result.isWritten = true := by
  rw [Slot.isWritten_iff]
  constructor
  · rintro ⟨set, result', returns', writes⟩
    obtain rfl : result = result' := by simpa using returns.symm.trans returns'
    exact ⟨set, writes⟩
  · rintro ⟨set, writes⟩
    exact ⟨set, result, returns, writes⟩

/-- The check asks for one written argument, in front, and one written return; their alias sets may
differ.
Where the lists have the lengths that it asks for, its two halves are those above; elsewhere it
fails,
and neither the argument nor the return can be found.
-/
theorem isInPlace_iff_exists
    : schema.isInPlace = true
        ↔ (∃ written, schema.WritesFirst written) ∧ ∃ returned, schema.ReturnsWritten returned := by
  unfold isInPlace
  split
  next first others result arguments returns =>
    rw [exists_writesFirst_iff arguments, exists_returnsWritten_iff returns, Bool.and_eq_true,
      Bool.and_eq_true]
  next other =>
    -- One of the two lists has the wrong length.
    simp only [Bool.false_eq_true, false_iff]
    rintro ⟨⟨_, first, others, arguments, -⟩, _, result, returns, -⟩
    exact other first others result arguments returns

-----------------------------------------------------------------------------------------
-- Where the check tells what is returned
-----------------------------------------------------------------------------------------

/-- An operator that returns the argument that it writes passes the check. -/
theorem ReturnsTarget.isInPlace (target : schema.ReturnsTarget) : schema.isInPlace = true := by
  obtain ⟨set, first, result⟩ := target
  exact isInPlace_iff_exists.mpr ⟨⟨set, first⟩, set, result⟩

/-- Where an argument and a return are written, the argument is returned exactly if their sets are
the same.
-/
theorem returnsTarget_iff (first : schema.WritesFirst written)
    (result : schema.ReturnsWritten returned)
    : schema.ReturnsTarget ↔ written = returned := by
  constructor
  · rintro ⟨set, first', result'⟩
    exact (first.unique first').trans (result'.unique result)
  · rintro rfl
    exact ⟨written, first, result⟩

/-- A schema passes the check exactly if its first argument is written, no other argument is
aliased, and its one return is written. It is classified right exactly if the argument and the
return, where both are written like that, are of one alias set. -/
theorem isInPlace_iff (schema : Schema)
    : (schema.isInPlace = true
        ↔ ∃ written returned, schema.WritesFirst written ∧ schema.ReturnsWritten returned)
      ∧ (schema.ClassifiedRight
        ↔ ∀ written returned,
            schema.WritesFirst written → schema.ReturnsWritten returned → written = returned) := by
  refine ⟨?_, ?_⟩
  · simp only [isInPlace_iff_exists, exists_and_left, exists_and_right]
  · constructor
    · intro right written returned first result
      have passes : schema.isInPlace = true :=
        isInPlace_iff_exists.mpr ⟨⟨written, first⟩, returned, result⟩
      exact (returnsTarget_iff first result).mp (right.mp passes)
    · intro alike
      refine ⟨fun passes => ?_, ReturnsTarget.isInPlace⟩
      obtain ⟨⟨written, first⟩, returned, result⟩ := isInPlace_iff_exists.mp passes
      exact (returnsTarget_iff first result).mpr (alike written returned first result)

/-- The schema of an operator that writes its argument through set `a` and returns through `b`. -/
def acrossSets : Schema where
  name := "swap_"
  arguments := [Slot.mutating ⟨"self", .tensor, none⟩ 'a']
  returns := [Slot.mutating ⟨"out", .tensor, none⟩ 'b']

/-- A written return of another alias set passes for the argument itself. -/
theorem not_classifiedRight_acrossSets : ¬acrossSets.ClassifiedRight := by
  intro right
  have first : acrossSets.WritesFirst 'a' := ⟨_, [], rfl, rfl, by simp⟩
  have result : acrossSets.ReturnsWritten 'b' := ⟨_, rfl, rfl⟩
  have alike := (returnsTarget_iff first result).mp (right.mp rfl)
  exact absurd alike (by decide)

/-- The base operators write and return through one set, so the check is right about them. -/
theorem classifiedRight_of_member (member : schema ∈ Base.schemas) : schema.ClassifiedRight := by
  refine ⟨fun passes => ?_, ReturnsTarget.isInPlace⟩
  simp only [Base.schemas, List.mem_cons, List.not_mem_nil, or_false] at member
  rcases member with rfl | rfl | rfl | rfl | rfl | rfl | rfl | rfl | rfl | rfl
  all_goals first
    | exact absurd passes (by decide)
    | exact ⟨'a', ⟨_, _, rfl, rfl, by simp [Base.tensorSlot]⟩, _, rfl, rfl⟩

end Schema
end LayeredDispatch
