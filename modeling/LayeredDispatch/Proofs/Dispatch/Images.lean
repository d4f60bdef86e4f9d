import LayeredDispatch.Proofs.Dispatch.Meets

/-! Replacing the tensors among the last boxed values. Main statement: each of them is related to a tensor
among the values that take their place, and the values below stay.
-/

namespace LayeredDispatch
namespace Run

variable {machine reached : Machine} {count : Nat}

/-- A tensor and what a computation on it, started somewhere on the way, puts in its place. -/
def Replaced (replace : Tensor → Run Tensor) (machine : Machine) (tensor result : Tensor) : Prop :=
  ∃ start final, machine.Resumes start ∧ replace tensor start = .ok result final

/-- What is put in the place of a tensor from a later state is so from an earlier one. -/
theorem Replaced.resumes {replace : Tensor → Run Tensor} {middle : Machine}
    {tensor result : Tensor} (resumes : machine.Resumes middle)
    (h : Replaced replace middle tensor result)
    : Replaced replace machine tensor result := by
  obtain ⟨start, final, later, ended⟩ := h
  exact ⟨start, final, resumes.trans later, ended⟩

mutual
/-- Every tensor of a value has its place taken by a tensor of the value that comes out.
Structural recursion, together with the lists; each visit starts in a state that has been handed
back.
-/
theorem mapTensorsM_ok {replace : Tensor → Run Tensor} (quiet : ∀ tensor, Quiet (replace tensor))
    {value replaced : Value} {machine reached : Machine}
    (ended : value.mapTensorsM replace machine = .ok replaced reached)
    : ∀ tensor ∈ value.tensors, ∃ result ∈ replaced.tensors,
        Replaced replace machine tensor result := by
  cases value with
  | tensor handle =>
      obtain ⟨result, middle, ran, ended⟩ := bind_ok ended
      cases ended
      intro tensor member
      obtain rfl := List.mem_singleton.mp member
      exact ⟨result, List.mem_singleton_self result, machine, _, .refl machine, ran⟩
  | list items =>
      obtain ⟨results, middle, ran, ended⟩ := bind_ok ended
      cases ended
      exact (mapTensorsAllM_ok quiet ran).2
  | absent | bool _ | int _ | float _ | ints _ => exact List.forall_mem_nil _

/-- The same of several values, whose number stays. -/
theorem mapTensorsAllM_ok {replace : Tensor → Run Tensor}
    (quiet : ∀ tensor, Quiet (replace tensor)) {values replaced : List Value}
    {machine reached : Machine}
    (ended : Value.mapTensorsAllM replace values machine = .ok replaced reached)
    : replaced.length = values.length
      ∧ ∀ tensor ∈ Value.tensorsAll values, ∃ result ∈ Value.tensorsAll replaced,
          Replaced replace machine tensor result := by
  cases values with
  | nil =>
      cases ended
      exact ⟨rfl, List.forall_mem_nil _⟩
  | cons value values =>
      obtain ⟨first, middle, ran, ended⟩ := bind_ok ended
      obtain ⟨others, last, rest, ended⟩ := bind_ok ended
      cases ended
      have head := mapTensorsM_ok quiet ran
      obtain ⟨size, tail⟩ := mapTensorsAllM_ok quiet rest
      have resumes := (quiet_writing.mapTensorsM quiet value machine).resumes ran
      refine ⟨by simp [size], fun tensor member => ?_⟩
      simp only [Value.tensorsAll, List.mem_append] at member ⊢
      rcases member with member | member
      · obtain ⟨result, found, image⟩ := head tensor member
        exact ⟨result, Or.inl found, image⟩
      · obtain ⟨result, found, image⟩ := tail tensor member
        exact ⟨result, Or.inr found, image.resumes resumes⟩
end

/-- The last values are replaced, those below stay.
The range of the visits is found by counting from the end, and it is inside the values that there
are.
-/
theorem mapLast_ok {replace : Tensor → Run Tensor} (quiet : ∀ tensor, Quiet (replace tensor))
    (ended : mapLast count replace machine = .ok () reached)
    : ∃ replaced,
        reached.values = machine.firstValues count ++ replaced
        ∧ replaced.length = count
        ∧ ∀ tensor ∈ Value.tensorsAll (machine.lastValues count),
            ∃ result ∈ Value.tensorsAll replaced, Replaced replace machine tensor result := by
  obtain ⟨start, same, found, ended⟩ := bind_ok ended
  obtain ⟨rfl, enough, rfl⟩ := lastStart_ok found
  obtain ⟨values, same, read, ended⟩ := bind_ok ended
  cases read
  rw [Nat.sub_add_cancel enough] at ended
  split at ended
  · obtain ⟨replaced, middle, ran, ended⟩ := bind_ok ended
    cases ended
    rw [List.take_length] at ran
    obtain ⟨size, images⟩ := mapTensorsAllM_ok quiet ran
    refine ⟨replaced, ?_, ?_, images⟩
    · simp [Machine.firstValues]
    · rw [size]
      exact Machine.lastValues_length enough
  · cases ended

end Run
end LayeredDispatch
