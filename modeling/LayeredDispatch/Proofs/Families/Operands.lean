import LayeredDispatch.Proofs.Families.Answers

/-! The operands of a request among the boxed values. Main statements: operands that are replaced one
after another, each by a tensor that stands in for it, make a request that stands in for the first
one; the base kernels answer requests of dense tensors.
-/

namespace LayeredDispatch

open Run

section

variable {machine : Machine} {failed : Exit → Prop} {request : Request Tensor}
  {outer : List Value} {relation : Tensor → Heap → Tensor → Prop}

/-- Operands are replaced one after another. What holds of an operand that has been replaced must
hold as well when the heap has grown, as it does while the others are.
-/
theorem Run.Meets.traverse {visit : Tensor → Run Tensor}
    (each
      : ∀ tensor ∈ request.operands, ∀ start,
          machine.Resumes start
          → start.values = machine.values
          → machine.heap.Grows start.heap
          → (visit tensor).Meets start
              (fun result values heap =>
                values = start.values ∧ start.heap.Grows heap ∧ relation tensor heap result)
              failed)
    (stable
      : ∀ tensor result before after,
          relation tensor before result → before.Grows after → relation tensor after result)
    : (request.traverse visit).Meets machine
        (fun other values heap =>
          values = machine.values
          ∧ machine.heap.Grows heap
          ∧ request.Related (fun tensor => relation tensor heap) other)
        failed := by
  cases request with
  | binary op left right =>
      have ofLeft := each left (by simp [Request.operands]) machine (.refl machine) rfl (.refl _)
      refine ofLeft.bind ?_
      intro first middle _ resumes given
      rcases given with ⟨same, grows, firstStands⟩
      have ofRight := each right (by simp [Request.operands]) middle resumes same grows
      refine ofRight.bind ?_
      intro second reached _ _ given
      rcases given with ⟨same', grows', secondStands⟩
      exact meets_pure ⟨same'.trans same, grows.trans grows',
        .binary (stable _ _ _ _ firstStands grows') secondStands⟩
  | neg input =>
      have ofInput := each input (by simp [Request.operands]) machine (.refl machine) rfl (.refl _)
      refine ofInput.bind ?_
      intro result reached _ _ given
      rcases given with ⟨same, grows, stands⟩
      exact meets_pure ⟨same, grows, .neg stands⟩
  | unsqueeze input dim =>
      have ofInput := each input (by simp [Request.operands]) machine (.refl machine) rfl (.refl _)
      refine ofInput.bind ?_
      intro result reached _ _ given
      rcases given with ⟨same, grows, stands⟩
      exact meets_pure ⟨same, grows, .unsqueeze dim stands⟩

/-- Replacing the tensors of the arguments is replacing the operands, in order. -/
theorem mapTensorsAllM_arguments [Monad m] [LawfulMonad m] (replace : Tensor → m Tensor)
    (request : Request Tensor)
    : Value.mapTensorsAllM replace request.arguments
      = Request.arguments <$> request.traverse replace := by
  cases request <;>
    simp [Request.arguments, Request.traverse, Value.mapTensorsAllM, Value.mapTensorsM]

/-- Values at the end are replaced, those below them stay. The range is inside of the boxed values,
so its checks pass.
-/
theorem Run.Meets.mapRange {items : List Value} {replace : Tensor → Run Tensor}
    {ok : Unit → List Value → Heap → Prop} (values : machine.values = outer ++ items)
    (inner
      : (Value.mapTensorsAllM replace items).Meets machine
          (fun replaced _ heap => ok () (outer ++ replaced) heap) failed)
    : (Run.mapRange outer.length (outer.length + items.length) replace).Meets machine ok
        failed := by
  refine (quiet_read _).step rfl ?_
  have inside
      : outer.length ≤ outer.length + items.length
        ∧ outer.length + items.length ≤ machine.values.length := by
    rw [values, List.length_append]
    exact ⟨Nat.le_add_right _ _, Nat.le_refl _⟩
  have chosen
      : (machine.values.take (outer.length + items.length)).drop outer.length = items := by
    rw [values, ← List.length_append, List.take_length, List.drop_left]
  rw [if_pos inside, chosen]
  refine inner.bind ?_
  intro replaced reached _ _ left
  refine Quiet.meets ?_ rfl ?_
  · exact quiet_modify (fun _ => rfl) (fun _ => rfl) (fun _ => rfl)
  change ok () (machine.values.take _ ++ replaced ++ machine.values.drop _) reached.heap
  rw [values, ← List.length_append, List.drop_length, List.append_nil, List.take_left]
  exact left

/-- The operands of a request are replaced one after another, among the boxed values. -/
theorem Run.Meets.mapLast {replace : Tensor → Run Tensor}
    (values : machine.values = outer ++ request.arguments)
    (each
      : ∀ tensor ∈ request.operands, ∀ start,
          machine.Resumes start
          → start.values = machine.values
          → machine.heap.Grows start.heap
          → (replace tensor).Meets start
              (fun result values heap =>
                values = start.values ∧ start.heap.Grows heap ∧ relation tensor heap result)
              failed)
    (stable
      : ∀ tensor result before after,
          relation tensor before result → before.Grows after → relation tensor after result)
    : (Run.mapLast request.schema.arity replace).Meets machine
        (fun _ values heap =>
          ∃ other : Request Tensor,
            values = outer ++ other.arguments
            ∧ machine.heap.Grows heap
            ∧ request.Related (fun tensor => relation tensor heap) other)
        failed := by
  rw [← request.length_arguments]
  refine (quiet_writing.lastStart _).step (lastStart_append values) (Meets.mapRange values ?_)
  rw [mapTensorsAllM_arguments]
  refine Meets.map ((Meets.traverse each stable).mono ?_ fun _ => id)
  rintro other _ heap ⟨-, grows, related⟩
  exact ⟨other, rfl, grows, related⟩

end

/-- Operands that fit no layers are dense, so the request is one of cells of the heap. -/
theorem Request.eq_dense {request : Request Tensor} {heap : Heap}
    (fits : ∀ tensor ∈ request.operands, tensor.Fits heap [])
    : ∃ cells : Request Nat,
        request = cells.map Tensor.dense
        ∧ ∀ operand ∈ (cells.map heap.storage).operands, operand.Sized := by
  have dense {tensor : Tensor} (h : tensor.Fits heap [])
      : ∃ cell, tensor = .dense cell ∧ (heap.storage cell).Sized := by
    cases h with
    | dense present sized => exact ⟨_, rfl, sized⟩
  cases request with
  | binary op left right =>
      obtain ⟨first, rfl, ofFirst⟩ := dense (fits left (by simp [operands]))
      obtain ⟨second, rfl, ofSecond⟩ := dense (fits right (by simp [operands]))
      exact ⟨.binary op first second, rfl, by simp [map, operands, ofFirst, ofSecond]⟩
  | neg input =>
      obtain ⟨cell, rfl, sized⟩ := dense (fits input (by simp [operands]))
      exact ⟨.neg cell, rfl, by simp [map, operands, sized]⟩
  | unsqueeze input dim =>
      obtain ⟨cell, rfl, sized⟩ := dense (fits input (by simp [operands]))
      exact ⟨.unsqueeze cell dim, rfl, by simp [map, operands, sized]⟩

/-- The base kernels answer requests of dense tensors. What a kernel makes of them is a new storage
behind the others, so the heap has grown, and its refusals are those of the shapes or of the sizes.
-/
theorem answers_kernel {request : Request Tensor} {outer : List Value} {machine : Machine}
    (posed : request.Posed [] outer machine) (calls : Calls)
    : (request.kernel.run calls request.schema).Answers request [] outer machine := by
  obtain ⟨cells, rfl, sized⟩ := Request.eq_dense posed.fits
  have quiet : Quiet (cells.kernel.run calls cells.schema) :=
    Dispatcher.quiet_baseKernel cells.baseKernel?_schema calls cells.schema
  have same : (cells.map Tensor.dense).kernel = cells.kernel := by cases cells <;> rfl
  have ran := cells.kernel_run calls posed.values
  have shapes
      : (cells.map Tensor.dense).map (Tensor.shape machine.heap)
        = (cells.map machine.heap.storage).map Storage.shape := by
    rw [Request.map_map, Request.map_map]
    rfl
  rw [same, cells.schema_map]
  cases made : (cells.map machine.heap.storage).onDense with
  | ok result =>
      rw [made] at ran
      obtain ⟨shape, whole⟩ := Request.onDense_ok made sized
      have read := Heap.storage_newDense machine.heap result
      refine quiet.meets ran ⟨_, rfl, Heap.grows_newDense machine.heap result, ?_, ?_, ?_⟩
      · exact .dense (by simp [Heap.newDense]) (by rwa [read])
      · rw [shapes, shape]
        exact congrArg (fun storage => some storage.shape) read.symm
      · intro index _
        rw [Request.map_map]
        exact made.trans (congrArg Except.ok read.symm)
  | error exit =>
      rw [made] at ran
      refine quiet.meets_error ran ?_
      rw [Request.Refused, shapes]
      exact Request.onDense_error made sized

end LayeredDispatch
