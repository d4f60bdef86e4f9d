import LayeredDispatch.Proofs.Families.Rules

/-! Stacked layers compute what the base operators say, member by member. Main statement: under every
built stack of layers a call of an element-wise operator, or of the one that inserts a dimension,
succeeds where the base operator does, and its result reads as the family that the base operator
makes of the families of the operands.
-/

namespace LayeredDispatch

open Run Dispatcher

section

variable {machine : Machine} {layer : Layer} {below layers : List Layer} {budget : Nat}
  {calls : Calls} {request : Request Tensor} {outer : List Value}

/-- The hooks that a request carries are those of its operands, apart from the base, which all
carry.
-/
theorem Request.carried_arguments (request : Request Tensor) (heap : Heap) {capability : Capability}
    (above : capability ≠ .backend)
    : (Value.carried heap request.arguments).contains capability
      = request.operands.any fun tensor => (tensor.capabilities heap).contains capability := by
  cases request <;>
    simp [Value.carried, Value.capabilities, Request.arguments, Request.operands,
      CapabilitySet.only, Ne.symm above]

/-- A tensor that carries no batch has no physical value at any level. -/
theorem Tensor.physicalAt?_of_carried {heap : Heap} {tensor : Tensor} (level : Level)
    (carried : (tensor.capabilities heap).contains .batched = false)
    : tensor.physicalAt? level = none := by
  cases tensor with
  | dense cell => rfl
  | tagged cell own flag value => rfl
  | batched handle own value => simp [Tensor.capabilities, CapabilitySet.only] at carried

theorem Request.name_ne_rand (request : Request Tensor) : request.schema.name ≠ "rand" := by
  cases request with
  | binary op left right =>
      cases op with
      | add => exact (by decide : "add" ≠ "rand")
      | mul => exact (by decide : "mul" ≠ "rand")
  | neg input => exact (by decide : "neg" ≠ "rand")
  | unsqueeze input dim => exact (by decide : "unsqueeze" ≠ "rand")

/-- A kernel that is selected for a call, and answers it. -/
def Request.Selects (request : Request Tensor) (layers : List Layer) (outer : List Value)
    (machine : Machine) (calls : Calls)
    : Prop :=
  ∃ capability kernel,
    standard.select request.schema
        (machine.thread.overlay.apply (Value.carried machine.heap request.arguments))
      = some (capability, kernel)
    ∧ (kernel.run calls request.schema).Answers request layers outer machine

/-- Below all layers the base kernel is selected. The operands are dense there, so they carry no
hooks.
-/
theorem selects_base (posed : request.Posed [] outer machine) (overlay : machine.thread.overlay = {})
    : request.Selects [] outer machine calls := by
  refine ⟨.backend, request.kernel, ?_, answers_kernel posed calls⟩
  have plain (capability : Capability) (above : capability ≠ .backend)
      : (machine.thread.overlay.apply
          (Value.carried machine.heap request.arguments)).contains capability = false := by
    simp only [overlay, Overlay.contains_apply, request.carried_arguments machine.heap above,
      CapabilitySet.contains_empty, Bool.or_false, Bool.not_false, Bool.and_true,
      Bool.or_eq_false_iff, List.any_eq_false, decide_eq_false_iff_not]
    refine ⟨fun tensor member => ?_, Ne.symm above⟩
    cases posed.fits tensor member with
    | dense present sized => simp [Tensor.capabilities, CapabilitySet.only, Ne.symm above]
  have base
      : (machine.thread.overlay.apply
          (Value.carried machine.heap request.arguments)).contains .backend = true := by
    simp
  rw [select_standard, plain .entryInterceptor (by decide), plain .batchMode (by decide),
    plain .batched (by decide), plain .differentiation (by decide),
    plain .taggedWrapper (by decide), plain .exitInterceptor (by decide), base,
    request.baseKernel?_schema]
  simp

/-- Under a batching layer operands are left to the layers below if none carries a batch. -/
theorem Request.fits_of_carried
    (fits : ∀ tensor ∈ request.operands, tensor.Fits machine.heap (layer :: below))
    (kind : layer.kind = .batching)
    (carried : (Value.carried machine.heap request.arguments).contains .batched = false)
    : ∀ tensor ∈ request.operands, tensor.Fits machine.heap below := by
  rw [request.carried_arguments machine.heap (by decide), List.any_eq_false] at carried
  intro tensor member
  refine (fits tensor member).of_shared kind ?_
  exact Tensor.physicalAt?_of_carried layer.level (Bool.eq_false_iff.mpr (carried tensor member))

/-- The rule of a batching layer for the operator of a request answers it, whichever operator it is.
-/
theorem answers_batchRule (h : calls.Answering budget)
    (posed : request.Posed (layer :: below) outer machine)
    (top : machine.thread.layers = layer :: below) (grounded : Layer.Grounded (layer :: below))
    (kind : layer.kind = .batching) (inBody : machine.thread.overlay.InBody .batching)
    (shown : machine.thread.overlay.excluded.contains .batched = false)
    (steps : machine.ambient.steps ≤ budget + 1)
    : ((batchRule request.schema.name).run calls request.schema).Answers request (layer :: below)
        outer machine := by
  obtain ⟨size, batch⟩ := Layer.exists_batchSize? kind
  cases request with
  | binary op left right =>
      cases op <;> exact answers_pointwise h posed top grounded batch inBody shown steps rfl
  | neg input => exact answers_pointwise h posed top grounded batch inBody shown steps rfl
  | unsqueeze input dim => exact answers_unsqueeze h posed top grounded batch inBody shown steps

/-- Wherever a request is posed, a kernel is selected that answers it. The places are those of
`Ambient.Owners`; in the body of a layer the hooks of the operands decide which of two it is.
-/
theorem selects (h : calls.Answering budget) (posed : request.Posed layers outer machine)
    (steps : machine.ambient.steps ≤ budget + 1)
    : request.Selects layers outer machine calls := by
  have owners := posed.owners
  generalize ambient : machine.ambient = present at owners
  cases owners with
  | base inactive overlay =>
      subst ambient
      exact selects_base posed overlay
  | front active grounded front =>
      subst ambient
      have front : machine.thread.overlay.forces .entryInterceptor := front
      refine ⟨_, _, select_front _ front, ?_⟩
      cases top : machine.ambient.layers with
      | nil => exact absurd top active
      | cons layer below =>
          rw [top] at grounded posed
          exact answers_entryInterceptor h posed top grounded front steps
  | body top grounded inBody shown =>
      rename_i layer below
      subst ambient
      have inBody : machine.thread.overlay.InBody layer.kind := inBody
      cases kind : layer.kind with
      | differentiation =>
          rw [kind] at inBody
          by_cases chosen
              : ((Value.carried machine.heap request.arguments).contains .differentiation
                && !machine.thread.overlay.excluded.contains .differentiation)
                = true
          · refine ⟨.differentiation, differentiationBody, ?_, ?_⟩
            · rw [select_differentiation _ inBody, if_pos chosen]
            · have shown := (Bool.and_eq_true_iff.mp chosen).2
              rw [Bool.not_eq_true'] at shown
              exact answers_differentiationBody h posed top grounded kind inBody shown steps
          · refine ⟨.exitInterceptor, exitInterceptor, ?_, ?_⟩
            · rw [select_differentiation _ inBody, if_neg chosen]
            · exact answers_exitInterceptor_differentiation h posed top grounded kind steps
      | batching =>
          rw [kind] at inBody
          have shown : machine.thread.overlay.excluded.contains .batched = false := shown kind
          have selected := @select_batching request.schema machine.thread.overlay
            (Value.carried machine.heap request.arguments) inBody
          rw [if_neg fun random => request.name_ne_rand random.2, shown, Bool.not_false,
            Bool.and_true] at selected
          cases carried : (Value.carried machine.heap request.arguments).contains .batched with
          | true =>
              rw [carried, if_pos rfl] at selected
              exact ⟨_, _, selected,
                answers_batchRule h posed top grounded kind inBody shown steps⟩
          | false =>
              rw [carried, if_neg Bool.false_ne_true] at selected
              refine ⟨_, _, selected, Answers.above ?_⟩
              exact answers_exitInterceptor_batching h posed.registered top grounded kind
                posed.values (request.fits_of_carried posed.fits kind carried) steps
  | leaving top grounded kind inBody hidden =>
      subst ambient
      have inBody : machine.thread.overlay.InBody .batching := inBody
      have hidden : machine.thread.overlay.excluded.contains .batched = true := hidden
      have selected := @select_batching request.schema machine.thread.overlay
        (Value.carried machine.heap request.arguments) inBody
      rw [if_neg fun random => request.name_ne_rand random.2, hidden, Bool.not_true,
        Bool.and_false, if_neg Bool.false_ne_true] at selected
      refine ⟨_, _, selected, ?_⟩
      exact answers_exitInterceptor_batching h posed.registered top grounded kind posed.values
        posed.fits steps

/-- The dispatch set of a posed request is found, and it is what the overlay makes of its hooks. -/
theorem Request.dispatchSet_apply {values : List Value}
    (h : machine.values = values ++ request.arguments)
    : dispatchSet request.schema machine
      = .ok
          (machine.thread.overlay.apply (Value.carried machine.heap request.arguments))
          machine := by
  have peeked := peek_append h
  rw [request.length_arguments] at peeked
  rw [dispatchSet, bind_apply, peeked]
  rfl

/-- Calls answer all requests from which there are few enough steps to the base. The induction is on
the room to nest, which is not less than the number of steps; each kernel issues its calls one step
nearer to the base at least.
-/
theorem answering_dispatchWithin (budget : Nat)
    : Calls.Answering ⟨standard.dispatchWithin budget, standard.schema?⟩ budget := by
  induction budget with
  | zero =>
      refine ⟨fun {request layers outer machine} posed steps => ?_, rfl⟩
      exact absurd machine.ambient.steps_pos (Nat.not_lt_of_le steps)
  | succ budget ih =>
      refine ⟨fun {request layers outer machine} posed steps => ?_, rfl⟩
      refine (quiet_dispatchSet _).step (request.dispatchSet_apply posed.values) ?_
      obtain ⟨capability, kernel, selected, -⟩ := selects ih posed steps
      rw [selected]
      -- The kernel runs with its trace node open, which is of no account to the choice.
      have spanned
          : request.Posed layers outer (machine.inSpan request.schema.name capability) :=
        ⟨posed.owners, posed.registered, posed.values, posed.fits⟩
      obtain ⟨chosen, other, again, answers⟩ := selects ih spanned steps
      cases selected.symm.trans again
      exact Meets.traced answers

/-- Three calls a layer are within the allowance of any dispatcher. -/
theorem Dispatcher.steps_le_budget (dispatcher : Dispatcher) (layers : Nat)
    : 3 * layers + 1 ≤ dispatcher.budget layers := by
  have each : 40 ≤ 40 * (dispatcher.operators.length + 1) :=
    Nat.le_mul_of_pos_right 40 (Nat.succ_pos _)
  calc 3 * layers + 1 ≤ (layers + 2) * 40 := by omega
    _ ≤ dispatcher.budget layers := Nat.mul_le_mul_left _ each

/-- Under a built stack of layers a call answers its request, since the allowance of calls by name
is enough for all the steps to the base.
-/
theorem meets_call (built : machine.Built)
    (wellFormed
      : ∀ tensor ∈ request.operands, tensor.WellFormed machine.heap machine.thread.layers)
    : (standard.call request.schema.name request.arguments).Meets machine
        (fun results _ heap =>
          ∃ result,
            results = [.tensor result]
            ∧ request.Answered machine.thread.layers machine.heap heap result)
        (request.Refused machine.heap) := by
  have founded := built.founded
  have serves
      : machine.Serves machine.thread.layers
          (standard.budget machine.thread.layers.length) :=
    ⟨founded.owners, founded.registered,
      Nat.le_trans machine.ambient.steps_le (standard.steps_le_budget _)⟩
  have answering := answering_dispatchWithin (standard.budget machine.thread.layers.length)
  refine (quiet_read _).step rfl ((answering.call serves fun tensor member =>
    (Tensor.wellFormed_iff_fits founded.levelled).mp (wellFormed tensor member)).mono ?_
      fun _ => id)
  rintro _ _ heap ⟨result, same, -, -, answered⟩
  exact ⟨result, same, answered⟩

end

-----------------------------------------------------------------------------------------
-- Correctness of stacked layers
-----------------------------------------------------------------------------------------

/-- Dense operands of the logical shapes of those of a request, with as many elements as these say.
-/
structure Request.ShapedAs (inputs : Request Storage) (request : Request Tensor) (heap : Heap)
    : Prop where
  shapes : inputs.map Storage.shape = request.map (Tensor.shape heap)
  sized : ∀ input ∈ inputs.operands, input.Sized

/-- A well-formed tensor that reads as the family that the base operator makes of the families of the
operands: at all batch indices its member is the result on the members of these.
-/
structure Request.Computes (request : Request Tensor) (layers : List Layer) (before after : Heap)
    (result : Tensor)
    : Prop where
  wellFormed : result.WellFormed after layers
  shape
    : ∀ (inputs : Request Storage) (output : Storage),
        inputs.ShapedAs request before
        → inputs.atBase = .ok output
        → result.shape after = output.shape
  member
    : ∀ index,
        Layer.InBatches layers index
        → (request.map (Tensor.member before index)).atBase = .ok (result.member after index)

section

variable {machine : Machine} {layers : List Layer} {before after : Heap} {result : Tensor}
  {request : Request Tensor} {inputs : Request Storage} {output : Storage} {exit : Exit}

/-- Where the base makes something of dense operands of the logical shapes, it has the shape that
these shapes suit.
-/
theorem Request.ShapedAs.onShape (h : inputs.ShapedAs request before)
    (made : inputs.atBase = .ok output)
    : (request.map (Tensor.shape before)).onShape = some output.shape := by
  rw [inputs.atBase_eq] at made
  rw [← h.shapes]
  exact (Request.onDense_ok made h.sized).1

/-- Where it makes nothing of them, a call of the request may be refused. -/
theorem Request.ShapedAs.refused (h : inputs.ShapedAs request before)
    (ended : inputs.atBase = .error exit)
    : request.Refused before exit := by
  rw [inputs.atBase_eq] at ended
  rw [Request.Refused, ← h.shapes]
  exact Request.onDense_error ended h.sized

/-- An answer is what the base computes, member by member. -/
theorem Request.Answered.computes (h : request.Answered layers before after result)
    (levelled : Layer.Levelled layers)
    : request.Computes layers before after result where
  wellFormed := (Tensor.wellFormed_iff_fits levelled).mpr h.fits
  shape inputs output shaped made :=
    Option.some.inj (h.shape.symm.trans (shaped.onShape made))
  member index inBatches := by
    rw [Request.atBase_eq]
    exact h.member index inBatches

/-- Layers of both kinds, stacked in any order and to any depth, compute what the base operators say.
If no size becomes too large, a call succeeds exactly where the base operator does on tensors of the
logical shapes of the operands, and its result reads as the family that the base operator makes of
the families of the operands.
-/
theorem Dispatcher.call_families (built : machine.Built)
    (wellFormed
      : ∀ tensor ∈ request.operands, tensor.WellFormed machine.heap machine.thread.layers)
    : (∀ inputs : Request Storage,
        inputs.ShapedAs request machine.heap
        → (∀ exit, inputs.atBase = .error exit → ¬exit.TooLarge)
        → (∀ exit reached,
            standard.call request.schema.name request.arguments machine = .error exit reached
            → ¬exit.TooLarge)
        → ((∃ results reached,
              standard.call request.schema.name request.arguments machine
              = .ok results reached)
            ↔ ∃ output, inputs.atBase = .ok output))
      ∧ ∀ results reached,
          standard.call request.schema.name request.arguments machine = .ok results reached
          → ∃ result,
              results = [.tensor result]
              ∧ request.Computes machine.thread.layers machine.heap reached.heap result := by
  have meets := meets_call built wellFormed
  refine ⟨fun inputs shaped based called => ⟨?_, ?_⟩, fun results reached ended => ?_⟩
  · rintro ⟨results, reached, ended⟩
    obtain ⟨-, result, -, answered⟩ := Ends.of_ok meets ended
    cases made : inputs.atBase with
    | ok output => exact ⟨output, rfl⟩
    | error exit =>
        rcases shaped.refused made with unsuited | large
        · rw [answered.shape] at unsuited
          cases unsuited
        · exact absurd large (based exit made)
  · rintro ⟨output, made⟩
    cases ended : standard.call request.schema.name request.arguments machine with
    | ok results reached => exact ⟨results, reached, rfl⟩
    | error exit reached =>
        obtain ⟨-, -, unsuited | large⟩ := Ends.of_error meets ended
        · rw [shaped.onShape made] at unsuited
          cases unsuited
        · exact absurd large (called exit reached ended)
  · obtain ⟨-, result, rfl, answered⟩ := Ends.of_ok meets ended
    exact ⟨result, rfl, answered.computes built.founded.levelled⟩

/-- Witness: a batch of tagged values plus a plain value, under two layers. -/
theorem Dispatcher.call_families_two_layers
    : ∃ (machine reached : Machine) (request : Request Tensor) (inputs : Request Storage)
        (result : Tensor) (output : Storage),
        machine.Built
        ∧ (∀ tensor ∈ request.operands, tensor.WellFormed machine.heap machine.thread.layers)
        ∧ inputs.ShapedAs request machine.heap
        ∧ inputs.atBase = .ok output
        ∧ standard.call request.schema.name request.arguments machine
          = .ok [.tensor result] reached
        ∧ request.Computes machine.thread.layers machine.heap reached.heap result := by
  let fresh : Machine :=
    { heap :=
        { storages := #[⟨⟨[2, 3]⟩, #[1, 2, 3, 4, 5, 6]⟩, ⟨⟨[3]⟩, #[10, 20, 30]⟩]
          wrappers := #[{ shape := ⟨[2, 3]⟩ }] } }
  let request : Request Tensor :=
    .binary .add (.batched 0 2 (.tagged 0 1 0 (.dense 0))) (.dense 1)
  let inputs : Request Storage := .binary .add ⟨⟨[3]⟩, #[1, 2, 3]⟩ ⟨⟨[3]⟩, #[10, 20, 30]⟩
  have opened := Machine.Built.opened
    (.opened (@Machine.Built.fresh fresh rfl rfl)
      (rfl : openLayer (.differentiation (some false) none) fresh = .ok 1 _))
    (rfl : openLayer (.batching 2 .error) _ = .ok 2 _)
  obtain ⟨machine, built, wellFormed, shapes, succeeds⟩
      : ∃ machine : Machine,
          machine.Built
          ∧ (∀ tensor ∈ request.operands,
              tensor.WellFormed machine.heap machine.thread.layers)
          ∧ inputs.map Storage.shape = request.map (Tensor.shape machine.heap)
          ∧ (standard.call request.schema.name request.arguments).succeeds machine = true := by
    refine ⟨_, opened, ?_, rfl, by decide +kernel⟩
    simp only [request, Request.operands, List.forall_mem_cons]
    refine ⟨⟨by decide, ⟨_, List.mem_cons_self, rfl, 2, rfl, rfl⟩, ?_⟩, ⟨by decide, ?_⟩,
      List.forall_mem_nil _⟩
    · exact ⟨⟨_, List.mem_cons_of_mem _ List.mem_cons_self, rfl, rfl⟩, rfl, by decide, rfl,
        by decide, rfl⟩
    · exact ⟨by decide, rfl⟩
  have shaped : inputs.ShapedAs request machine.heap := by
    refine ⟨shapes, ?_⟩
    simp only [inputs, Request.operands, List.forall_mem_cons]
    exact ⟨rfl, rfl, List.forall_mem_nil _⟩
  obtain ⟨results, reached, ended⟩ := succeeds_iff.mp succeeds
  have families := call_families built wellFormed
  obtain ⟨output, made⟩ := (families.1 inputs shaped
    (fun exit refused => by
      have based : inputs.atBase.isOk = true := by decide +kernel
      rw [refused] at based
      cases based)
    fun exit other refused => by
      rw [ended] at refused
      cases refused).mp ⟨results, reached, ended⟩
  obtain ⟨result, rfl, computes⟩ := families.2 results reached ended
  exact ⟨machine, reached, request, inputs, result, output, built, wellFormed, shaped, made, ended,
    computes⟩

end

end LayeredDispatch
