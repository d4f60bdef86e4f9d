import LayeredDispatch.Proofs.Families.Interceptors

/-! Padding of batches. Main statement: the calls that insert dimensions into a batch end after as
many insertions as there are dimensions missing, and change neither the batch dimension nor any
element.
-/

namespace LayeredDispatch

open Run

/-- A state from which requests of tensors that fit the layers are answered. -/
structure Machine.Serves (machine : Machine) (layers : List Layer) (budget : Nat) : Prop where
  owners : machine.ambient.Owners layers
  registered : machine.Registered
  steps : machine.ambient.steps ≤ budget

section

variable {machine reached : Machine} {layers : List Layer} {budget : Nat} {calls : Calls}
  {request : Request Tensor} {outer : List Value}

/-- A state that is handed back serves the same calls. -/
theorem Machine.Serves.resumes (h : machine.Serves layers budget)
    (resumes : machine.Resumes reached)
    : reached.Serves layers budget :=
  ⟨h.owners.resumes resumes, h.registered.resumes resumes,
    (Ambient.steps_resumes resumes).trans_le h.steps⟩

/-- Boxed values are of no account. -/
theorem Machine.Serves.withValues (h : machine.Serves layers budget) (values : List Value)
    : Machine.Serves { machine with values } layers budget :=
  ⟨h.owners, h.registered, h.steps⟩

/-- Calls that answer requests do so from every state that serves them. -/
theorem Calls.Answering.answers (h : calls.Answering budget)
    (serves : machine.Serves layers budget)
    (values : machine.values = outer ++ request.arguments)
    (fits : ∀ tensor ∈ request.operands, tensor.Fits machine.heap layers)
    : (calls.dispatch request.schema).Answers request layers outer machine :=
  h.dispatch ⟨serves.owners, serves.registered, values, fits⟩ serves.steps

/-- A request that is called by name is answered by a single value, which is what `callTensor` asks
for.
-/
theorem Calls.Answering.call (h : calls.Answering budget) (serves : machine.Serves layers budget)
    (fits : ∀ tensor ∈ request.operands, tensor.Fits machine.heap layers)
    : (calls.call request.schema.name request.arguments).Meets machine
        (fun results values heap =>
          ∃ result,
            results = [.tensor result]
            ∧ values = machine.values
            ∧ machine.heap.Grows heap
            ∧ request.Answered layers machine.heap heap result)
        (request.Refused machine.heap) := by
  have known : calls.schema? request.schema.name = some request.schema := by
    rw [h.schema?, request.schema?_standard]
  refine Meets.call (fun error refused => ?_) fun op found count => ?_
  · exact absurd request.length_arguments (refused _ known)
  · rw [known] at found
    cases found
    have answers := h.answers (serves.withValues request.arguments) (List.nil_append _).symm fits
    refine Meets.mono answers ?_ fun _ => id
    rintro _ left heap ⟨result, same, grows, answered⟩
    exact ⟨result, same, rfl, grows, answered⟩

/-- So such a call gives the answer, or is refused for a reason. -/
theorem Calls.Answering.callTensor (h : calls.Answering budget)
    (serves : machine.Serves layers budget)
    (fits : ∀ tensor ∈ request.operands, tensor.Fits machine.heap layers)
    : (calls.callTensor request.schema.name request.arguments).Meets machine
        (fun result values heap =>
          values = machine.values
          ∧ machine.heap.Grows heap
          ∧ request.Answered layers machine.heap heap result)
        (request.Refused machine.heap) := by
  refine Meets.callTensor ((h.call serves fits).mono ?_ fun _ => id)
  rintro _ values heap ⟨result, rfl, same, grows, answered⟩
  exact ⟨same, grows, answered⟩

end

-----------------------------------------------------------------------------------------
-- Padded batches
-----------------------------------------------------------------------------------------

/-- A batch with `ones` dimensions of size one inserted behind its batch dimension. -/
structure Tensor.Padded (layers : List Layer) (size : Nat) (dims : List Nat) (before : Heap)
    (physical : Tensor) (ones : Nat) (after : Heap) (padded : Tensor)
    : Prop where
  fits : padded.Fits after layers
  shape : padded.shape after = ⟨size :: (List.replicate ones 1 ++ dims)⟩
  data
    : ∀ index, Layer.InBatches layers index →
        (padded.member after index).data = (physical.member before index).data

section

variable {machine : Machine} {layers : List Layer} {size ones rank budget : Nat}
  {dims : List Nat} {before after later : Heap} {physical padded other : Tensor} {calls : Calls}

/-- A batch that has not been padded is padded by no dimension. -/
theorem Tensor.Fits.unpadded (fits : physical.Fits before layers)
    (shape : physical.shape before = ⟨size :: dims⟩)
    : Tensor.Padded layers size dims before physical 0 before physical :=
  ⟨fits, shape, fun _ _ => rfl⟩

/-- The rank is that of the entries, with the batch dimension and the inserted ones. -/
theorem Tensor.Padded.rank_eq
    (h : Tensor.Padded layers size dims before physical ones after padded)
    : (padded.shape after).rank = dims.length + ones + 1 := by
  simp [h.shape, Shape.rank, Nat.add_comm]

/-- Behind the batch dimension there is always room for one more. -/
theorem Tensor.Padded.onShape
    (h : Tensor.Padded layers size dims before physical ones after padded)
    : ((Request.unsqueeze padded 1).map (Tensor.shape after)).onShape
      = some ⟨size :: (List.replicate (ones + 1) 1 ++ dims)⟩ := by
  rw [Request.map, h.shape]
  simp [Request.onShape, Shape.unsqueeze?, Shape.rank, List.replicate_succ]

/-- An answer to a request to insert a dimension is padded by one more. Inserting changes no
element, so the data of the members stay.
-/
theorem Tensor.Padded.insert
    (h : Tensor.Padded layers size dims before physical ones after padded)
    (answered : (Request.unsqueeze padded 1).Answered layers after later other)
    : Tensor.Padded layers size dims before physical (ones + 1) later other := by
  have shape := answered.shape
  rw [h.onShape] at shape
  refine ⟨answered.fits, (Option.some.inj shape).symm, fun index inBatches => ?_⟩
  have made := answered.member index inBatches
  simp only [Request.map, Request.onDense] at made
  split at made
  · rw [← Except.ok.inj made]
    exact h.data index inBatches
  · cases made

/-- Padding ends in time, and fails only if some size is too large. The induction is on the rounds;
a round is left for each dimension that is missing, and the last look at the rank ends the loop.
-/
theorem meets_pad (h : calls.Answering budget) (serves : machine.Serves layers budget)
    (padded : Tensor.Padded layers size dims before physical ones machine.heap other)
    (fuel : Nat) (within : dims.length + ones ≤ rank) (enough : rank ≤ dims.length + ones + fuel)
    : (Batching.pad calls rank fuel other).Meets machine
        (fun result values heap =>
          values = machine.values
          ∧ machine.heap.Grows heap
          ∧ Tensor.Padded layers size dims before physical (rank - dims.length) heap result)
        Exit.TooLarge := by
  induction fuel generalizing machine other ones with
  | zero =>
      have full : dims.length + ones = rank := Nat.le_antisymm within enough
      unfold Batching.pad
      refine (quiet_read _).step rfl ?_
      rw [padded.rank_eq, full, if_neg (Nat.lt_irrefl _)]
      refine meets_pure ⟨rfl, .refl _, ?_⟩
      rwa [← full, Nat.add_sub_cancel_left]
  | succ fuel ih =>
      unfold Batching.pad
      refine (quiet_read _).step rfl ?_
      rw [padded.rank_eq]
      split
      · rename_i short
        have called
            : (calls.callTensor "unsqueeze" [.tensor other, .int 1]).Meets machine
                (fun result values heap =>
                  values = machine.values
                  ∧ machine.heap.Grows heap
                  ∧ (Request.unsqueeze other 1).Answered layers machine.heap heap result)
                Exit.TooLarge := by
          refine (@Calls.Answering.callTensor machine layers budget calls (.unsqueeze other 1) h
            serves ?_).mono (fun _ _ _ => id) ?_
          · exact List.forall_mem_singleton.mpr padded.fits
          · rintro exit (unsuited | large)
            · rw [padded.onShape] at unsuited
              cases unsuited
            · exact large
        refine called.bind ?_
        intro inserted reached _ resumes left
        rcases left with ⟨same, grows, answered⟩
        refine (ih (serves.resumes resumes) (padded.insert answered) (by omega) (by omega)).mono
          ?_ fun _ => id
        rintro _ _ _ ⟨same', grows', result⟩
        exact ⟨same'.trans same, grows.trans grows', result⟩
      · have full : dims.length + ones = rank := by omega
        refine meets_pure ⟨rfl, .refl _, ?_⟩
        rwa [← full, Nat.add_sub_cancel_left]

end

end LayeredDispatch
