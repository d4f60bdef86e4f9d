import LayeredDispatch.Machine.Basic
import Mathlib.Dynamics.PeriodicPts.Lemmas

/-! What is drawn in a row. Main statements: the numbers stand for the states that the generator passes
through, which are the iterates of one step; and no state comes back before all `2 ^ 64` have been passed,
so no two numbers that are drawn in a row stand for one state.
-/

namespace LayeredDispatch
namespace Generator

/-- The states that a generator passes through while `count` numbers are drawn, in order. The one that it
starts from is not among them.
-/
def states (generator : Generator) (count : Nat) : List UInt64 :=
  (List.range count).map fun index => step^[index + 1] generator.state

/-- The multiplier and the increment that take a state as far as `2 ^ doublings` steps do. -/
def leap : (doublings : Nat) → UInt64 × UInt64
  | 0 => (6364136223846793005, 1442695040888963407)
  | doublings + 1 =>
      let (factor, increment) := leap doublings
      (factor * factor, increment * factor + increment)

-----------------------------------------------------------------------------------------
-- Numbers and states
-----------------------------------------------------------------------------------------

/-- The number that a state stands for: its upper fifty-three bits, as a fraction of what they can count.
Shifting a state to the right divides it, and drops the remainder.
-/
theorem toUnit_eq (state : UInt64)
    : toUnit state = (state / .ofNat (2 ^ 11)).toFloat / (UInt64.ofNat (2 ^ 53)).toFloat := by
  have bits : state >>> 11 = state / .ofNat (2 ^ 11) := by
    rw [← UInt64.toNat_inj, UInt64.toNat_shiftRight, UInt64.toNat_div, Nat.shiftRight_eq_div_pow]
    rfl
  have scale : (1 : UInt64) <<< 53 = .ofNat (2 ^ 53) := by decide
  rw [toUnit, bits, scale]

/-- After a first step the states are those that the generator passes through from there.
The step goes inside the iterate, whose last step it otherwise is.
-/
theorem states_succ (generator : Generator) (count : Nat)
    : generator.states (count + 1)
      = step generator.state :: states ⟨step generator.state⟩ count := by
  have later (index : Nat)
      : step^[index + 1 + 1] generator.state = step^[index + 1] (step generator.state) :=
    Function.iterate_succ_apply step (index + 1) generator.state
  rw [states, List.range_succ_eq_map, List.map_cons, List.map_map]
  exact congrArg₂ List.cons (Function.iterate_succ_apply step 0 generator.state)
    (List.map_congr_left fun index _ => later index)

/-- Drawing numbers one by one gives what the states stand for, and leaves the generator in the last of
them. Induction on the count, with the state after the first draw as the start of the others.
-/
theorem draw_eq (count : Nat) (generator : Generator)
    : generator.draw count
      = ((generator.states count).map toUnit, ⟨step^[count] generator.state⟩) := by
  induction count generalizing generator with
  | zero => rfl
  | succ count ih =>
      rw [draw, ih, states_succ, List.map_cons, Function.iterate_succ_apply]

theorem length_draw (count : Nat) (generator : Generator)
    : (generator.draw count).1.length = count := by
  rw [draw_eq, List.length_map, states, List.length_map, List.length_range]

/-- A part of the numbers that are drawn at once. Cutting the list of states cuts the range of their
positions, which is counted from its own start.
-/
theorem draw_slice (start count rest : Nat) (generator : Generator)
    : ((generator.draw (start + count + rest)).1.drop start).take count
      = (List.range count).map fun index =>
          toUnit (step^[start + index + 1] generator.state) := by
  rw [draw_eq, states, List.map_map, ← List.map_drop, ← List.map_take]
  have positions
      : ((List.range (start + count + rest)).drop start).take count
        = (List.range count).map (start + ·) := by
    rw [Nat.add_assoc, List.range_add, List.drop_left' List.length_range, ← List.map_take,
      List.range_add, List.take_left' List.length_range]
  rw [positions, List.map_map]
  rfl

/-- The number at a place among those that are drawn at once. -/
theorem getElem_draw (generator : Generator) {count index : Nat}
    (inside : index < (generator.draw count).1.length)
    : (generator.draw count).1[index]
      = (step^[index + 1] generator.state / .ofNat (2 ^ 11)).toFloat
        / (UInt64.ofNat (2 ^ 53)).toFloat := by
  simp only [draw_eq, states, List.getElem_map, List.getElem_range, toUnit_eq]

/-- The share of one of several batch entries in the numbers that are drawn for all of them at once. The
entries before it and behind it have shares of the same size.
-/
theorem draw_entry (generator : Generator) {entries size entry : Nat} (inside : entry < entries)
    : ((generator.draw (entries * size)).1.drop (entry * size)).take size
      = (List.range size).map fun index =>
          toUnit (step^[entry * size + index + 1] generator.state) := by
  obtain ⟨rest, rfl⟩ := Nat.exists_eq_add_of_lt inside
  rw [Nat.add_right_comm, Nat.add_mul, Nat.add_one_mul, draw_slice]

-----------------------------------------------------------------------------------------
-- The period
-----------------------------------------------------------------------------------------

/-- Many steps at once are a product and a sum, as one step is. Each doubling composes the map with
itself.
-/
theorem iterate_two_pow (doublings : Nat) (state : UInt64)
    : step^[2 ^ doublings] state = state * (leap doublings).1 + (leap doublings).2 := by
  induction doublings generalizing state with
  | zero => rfl
  | succ doublings ih =>
      rw [Nat.pow_succ, Nat.mul_two, Function.iterate_add_apply, ih, ih, leap, UInt64.add_mul,
        UInt64.mul_assoc, UInt64.add_assoc]

/-- A generator returns to a state after `2 ^ 64` steps and not before. The period divides that number,
and half of it is not one, since so many steps flip the uppermost bit.
-/
theorem minimalPeriod_step (state : UInt64) : Function.minimalPeriod step state = 2 ^ 64 := by
  have half : leap 63 = (1, 2 ^ 63) := by decide +kernel
  have whole : leap 64 = (1, 0) := by decide +kernel
  have : Fact (Nat.Prime 2) := ⟨Nat.prime_two⟩
  apply Function.minimalPeriod_eq_prime_pow (k := 63)
  · intro returned
    have returned : step^[2 ^ 63] state = state := returned
    rw [iterate_two_pow, half, UInt64.mul_one, UInt64.add_eq_left] at returned
    exact absurd returned (by decide +kernel)
  · change step^[2 ^ 64] state = state
    rw [iterate_two_pow, whole, UInt64.mul_one, UInt64.add_zero]

/-- No state is passed twice while fewer numbers are drawn than there are states. -/
theorem nodup_states {count : Nat} (short : count < 2 ^ 64) (generator : Generator)
    : (generator.states count).Nodup := by
  refine List.Nodup.map_on ?_ List.nodup_range
  intro first inside second inside' same
  have below {index : Nat} (inside : index ∈ List.range count)
      : index + 1 < Function.minimalPeriod step generator.state := by
    rw [minimalPeriod_step]
    have := List.mem_range.mp inside
    omega
  have equal := (Function.iterate_eq_iterate_iff_of_lt_minimalPeriod (below inside)
    (below inside')).mp same
  exact Nat.succ.inj equal

end Generator
end LayeredDispatch
