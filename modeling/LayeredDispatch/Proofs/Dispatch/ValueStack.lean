import LayeredDispatch.Proofs.Dispatch.Ends
import LayeredDispatch.Value

/-! The last boxed values, which are the arguments or the results of a call. Main statements: looking at
them and taking them away leaves the values below them as they are, and the arguments that a kernel
reads are among them.
-/

namespace LayeredDispatch

/-- The last boxed values. -/
def Machine.lastValues (machine : Machine) (count : Nat) : List Value :=
  machine.values.drop (machine.values.length - count)

/-- The boxed values below the last ones. -/
def Machine.firstValues (machine : Machine) (count : Nat) : List Value :=
  machine.values.take (machine.values.length - count)

namespace Machine

variable {machine : Machine} {outer values : List Value} {count : Nat}

/-- If enough values are boxed, the last ones are as many as asked for. -/
theorem lastValues_length (enough : count ≤ machine.values.length)
    : (machine.lastValues count).length = count := by
  rw [lastValues, List.length_drop]
  omega

/-- Values that were boxed on top of others are the last ones. -/
theorem lastValues_append (h : machine.values = outer ++ values) (size : values.length = count)
    : machine.lastValues count = values := by
  simp [lastValues, h, ← size]

/-- The values below them are the ones that were there before. -/
theorem firstValues_append (h : machine.values = outer ++ values) (size : values.length = count)
    : machine.firstValues count = outer := by
  simp [firstValues, h, ← size]

end Machine

namespace Run

variable {machine reached : Machine} {count : Nat}

/-- The position where the last values start is found without a change, if there are enough of them.
-/
theorem lastStart_apply (enough : count ≤ machine.values.length)
    : lastStart count machine = .ok (machine.values.length - count) machine := by
  rw [lastStart, bind_apply]
  change (if count ≤ machine.values.length then pure _ else fault _ : Run Nat) machine = _
  rw [if_pos enough]
  rfl

/-- If the position is found, there are enough values, and the state is the same. -/
theorem lastStart_ok {start : Nat} (ended : lastStart count machine = .ok start reached)
    : reached = machine
      ∧ count ≤ machine.values.length
      ∧ start = machine.values.length - count := by
  obtain ⟨present, same, got, found⟩ := bind_ok ended
  cases got
  dsimp only at found
  split at found
  · rename_i enough
    cases found
    exact ⟨rfl, enough, rfl⟩
  · cases found

/-- Looking at the last values gives them and leaves the state alone. -/
theorem peek_apply (enough : count ≤ machine.values.length)
    : peek count machine = .ok (machine.lastValues count) machine := by
  rw [peek, bind_apply, lastStart_apply enough]
  rfl

/-- Values that were looked at are the last ones, and there were enough of them. -/
theorem peek_ok {values : List Value} (ended : peek count machine = .ok values reached)
    : reached = machine ∧ count ≤ machine.values.length ∧ values = machine.lastValues count := by
  obtain ⟨start, same, found, ended⟩ := bind_ok ended
  obtain ⟨rfl, enough, rfl⟩ := lastStart_ok found
  cases ended
  exact ⟨rfl, enough, rfl⟩

/-- Taking the last values off gives them and leaves the ones below. -/
theorem pop_apply (enough : count ≤ machine.values.length)
    : pop count machine
      = .ok (machine.lastValues count) { machine with values := machine.firstValues count } := by
  rw [pop, bind_apply, lastStart_apply enough]
  rfl

/-- Values that were taken off are the last ones, and the ones below are left as they were. -/
theorem pop_ok {values : List Value} (ended : pop count machine = .ok values reached)
    : reached = { machine with values := machine.firstValues count }
      ∧ count ≤ machine.values.length
      ∧ values = machine.lastValues count := by
  obtain ⟨start, same, found, ended⟩ := bind_ok ended
  obtain ⟨rfl, enough, rfl⟩ := lastStart_ok found
  cases ended
  exact ⟨rfl, enough, rfl⟩

section

variable {outer items : List Value}

theorem length_le_append (values : machine.values = outer ++ items)
    : items.length ≤ machine.values.length := by
  rw [values, List.length_append]
  exact Nat.le_add_left _ _

theorem lastStart_append (values : machine.values = outer ++ items)
    : lastStart items.length machine = .ok outer.length machine := by
  rw [lastStart_apply (length_le_append values), values, List.length_append, Nat.add_sub_cancel]

theorem peek_append (values : machine.values = outer ++ items)
    : peek items.length machine = .ok items machine := by
  rw [peek_apply (length_le_append values), Machine.lastValues_append values rfl]

/-- Taking off what was boxed on top of other values leaves just those. Calls rely on it on both
sides, for their arguments and for their results.
-/
theorem pop_append (values : machine.values = outer ++ items)
    : pop items.length machine = .ok items { machine with values := outer } := by
  rw [pop_apply (length_le_append values), Machine.lastValues_append values rfl,
    Machine.firstValues_append values rfl]

end

end Run

namespace Value

/-- A tensor that was read from the arguments is among them, at the position that was asked for. -/
theorem tensorAt_ok {arguments : List Value} {name : String} {index : Nat} {tensor : Tensor}
    (h : tensorAt arguments name index = .ok tensor)
    : arguments[index]? = some (.tensor tensor) := by
  unfold tensorAt at h
  split at h
  · rename_i found
    cases h
    exact found
  · cases h

/-- The same for a number. -/
theorem intAt_ok {arguments : List Value} {name : String} {index : Nat} {value : Int}
    (h : intAt arguments name index = .ok value)
    : arguments[index]? = some (.int value) := by
  unfold intAt at h
  split at h
  · rename_i found
    cases h
    exact found
  · cases h

/-- Sizes that were read come from a list of numbers at the position that was asked for. -/
theorem sizesAt_ok {arguments : List Value} {name : String} {index : Nat}
    {sizes : List Size} (h : sizesAt arguments name index = .ok sizes)
    : ∃ listed, arguments[index]? = some (.ints listed) := by
  unfold sizesAt at h
  split at h
  · rename_i listed found
    exact ⟨listed, found⟩
  · cases h

/-- The tensors of one of several values are among the tensors of them all. -/
theorem mem_tensorsAll {values : List Value} {value : Value} (present : value ∈ values)
    {tensor : Tensor} (member : tensor ∈ value.tensors)
    : tensor ∈ tensorsAll values := by
  induction values with
  | nil => cases present
  | cons first others ih =>
      rw [tensorsAll, List.mem_append]
      rcases List.mem_cons.mp present with rfl | later
      · exact .inl member
      · exact .inr (ih later)

theorem mem_tensorsAll_head {values : List Value} {tensor : Tensor}
    (first : values.head? = some (.tensor tensor))
    : tensor ∈ tensorsAll values :=
  mem_tensorsAll (List.mem_of_mem_head? first) List.mem_cons_self

/-- What holds of all tensors of several values holds of those of each of them. The tensors of
several values are those of the first followed by those of the others.
-/
theorem forall_tensorsAll {property : Tensor → Prop} {values : List Value}
    : (∀ tensor ∈ tensorsAll values, property tensor)
      ↔ ∀ value ∈ values, ∀ tensor ∈ value.tensors, property tensor := by
  induction values with
  | nil => simp [tensorsAll]
  | cons value values ih =>
      rw [tensorsAll, List.forall_mem_append, List.forall_mem_cons, ih]

/-- Tensors that are values by themselves are all tensors of these values. -/
theorem tensorsAll_map_tensor (tensors : List Tensor)
    : tensorsAll (tensors.map .tensor) = tensors := by
  induction tensors with
  | nil => rfl
  | cons tensor tensors ih =>
      rw [List.map_cons, tensorsAll, ih]
      rfl

/-- A single argument is what is found at the first position. -/
theorem eq_single {arguments : List Value} {only : Value} (size : arguments.length = 1)
    (at_zero : arguments[0]? = some only)
    : arguments = [only] := by
  obtain ⟨value, rfl⟩ := List.length_eq_one_iff.mp size
  cases at_zero
  rfl

/-- Two arguments are what is found at the first two positions. -/
theorem eq_pair {arguments : List Value} {first second : Value}
    (size : arguments.length = 2) (at_zero : arguments[0]? = some first)
    (at_one : arguments[1]? = some second)
    : arguments = [first, second] := by
  obtain ⟨value, rest, rfl⟩ := List.exists_cons_of_length_eq_add_one size
  obtain ⟨other, rfl⟩ := List.length_eq_one_iff.mp (Nat.succ.inj size)
  cases at_zero
  cases at_one
  rfl

end Value
end LayeredDispatch
