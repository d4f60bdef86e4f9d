import LayeredDispatch.Proofs.Twins.Interceptors

/-! The kernels that handle the calls of two runs. Where a call is under the active layers is the same
in both runs, and so are the hooks that its arguments carry there. Main statement: what holds of the
kernels that handle the calls at one place, wherever it is, holds of the calls.
-/

namespace LayeredDispatch

open Run Dispatcher

/-- Where calls of two operators are under the active layers, and the kernels that handle them. -/
inductive Machine.Handles (machine : Machine) (op op' : Schema)
    : List Layer → Kernel → Kernel → Prop where
  | enter {layer : Layer} {below : List Layer} (above : machine.Above layer below)
    (front : machine.thread.overlay.forces .entryInterceptor)
    : Handles machine op op' (layer :: below) entryInterceptor entryInterceptor
  | differentiate {layer : Layer} {below : List Layer} (within : machine.InBody layer below)
    (kind : layer.kind = .differentiation)
    (shown : machine.thread.overlay.excluded.contains .differentiation = false)
    : Handles machine op op' (layer :: below) differentiationBody differentiationBody
  | leaveDifferentiation {layer : Layer} {below : List Layer} (within : machine.InBody layer below)
    (kind : layer.kind = .differentiation)
    : Handles machine op op' (layer :: below) exitInterceptor exitInterceptor
  | random {layer : Layer} {below : List Layer} (within : machine.InBody layer below)
    (kind : layer.kind = .batching) (forced : machine.thread.overlay.forces .batchMode)
    (shown : machine.thread.overlay.excluded.contains .batched = false) (named : op.name = "rand")
    : Handles machine op op' (layer :: below) Batching.random Batching.random
  | rule {layer : Layer} {below : List Layer} (within : machine.InBody layer below)
    (kind : layer.kind = .batching)
    (shown : machine.thread.overlay.excluded.contains .batched = false)
    : Handles machine op op' (layer :: below) (batchRule op.name) (batchRule op'.name)
  | leaveBatching {layer : Layer} {below owners : List Layer} (within : machine.InBody layer below)
    (kind : layer.kind = .batching)
    (unbatched
      : owners = below
        ∨ (owners = layer :: below
          ∧ (Value.carried machine.heap (machine.lastValues op.arity)).contains .batched = false))
    : Handles machine op op' owners exitInterceptor exitInterceptor

/-- Calls in two states are handled at the same place, by kernels that are selected alike. -/
def Machine.Selected (machine twin : Machine) (op op' : Schema) (owners : List Layer)
    (arguments arguments' : List Value)
    : Prop :=
  ∃ capability kernel kernel',
    machine.Handles op op' owners kernel kernel'
    ∧ standard.select op (machine.thread.overlay.apply (Value.carried machine.heap arguments))
      = some (capability, kernel)
    ∧ standard.select op' (twin.thread.overlay.apply (Value.carried twin.heap arguments'))
      = some (capability, kernel')

section

variable {pairing : Pairing} {strict exempt : Prop} {machine twin : Machine}
  {failed : Exit → Exit → Prop} {op op' : Schema} {layer : Layer} {below owners : List Layer}
  {outer outer' arguments arguments' : List Value} {budget : Nat}
  {ok : Unit → List Value → Memory → Unit → List Value → Memory → Prop}

/-- Trace nodes are of no account. -/
theorem Machine.Handles.inSpan {kernel kernel' : Kernel} {name : String} {capability : Capability}
    (h : machine.Handles op op' owners kernel kernel')
    : (machine.inSpan name capability).Handles op op' owners kernel kernel' := by
  have moved {layer : Layer} {below : List Layer} (within : machine.InBody layer below)
      : (machine.inSpan name capability).InBody layer below :=
    ⟨⟨within.top, within.grounded⟩, within.inBody⟩
  cases h with
  | enter above front => exact .enter ⟨above.top, above.grounded⟩ front
  | differentiate within kind shown => exact .differentiate (moved within) kind shown
  | leaveDifferentiation within kind => exact .leaveDifferentiation (moved within) kind
  | random within kind forced shown named => exact .random (moved within) kind forced shown named
  | rule within kind shown => exact .rule (moved within) kind shown
  | leaveBatching within kind unbatched => exact .leaveBatching (moved within) kind unbatched

/-- Where the entry interceptor is not hidden under an active layer, it is forced on. -/
theorem Ambient.Owners.front_of_shown {ambient : Ambient} (h : ambient.Owners owners)
    (active : ambient.layers ≠ [])
    (shown : ambient.overlay.excluded.contains .entryInterceptor = false)
    : ambient.overlay.forces .entryInterceptor := by
  cases h with
  | base layers overlay => exact absurd layers active
  | front active grounded front => exact front
  | body top grounded inBody _ =>
      rw [inBody.entry] at shown
      cases shown
  | leaving top grounded kind inBody hidden =>
      rw [inBody.entry] at shown
      cases shown

/-- A call on as many values as it takes is handled by the kernel that these select. -/
theorem dispatch_apply {capability : Capability} {kernel : Kernel}
    (values : machine.values = outer ++ arguments) (size : arguments.length = op.arity)
    (selected
      : standard.select op
          (machine.thread.overlay.apply (Value.carried machine.heap arguments))
        = some (capability, kernel))
    : (nested (budget + 1)).dispatch op machine
      = Run.traced op.name capability (kernel.run (nested budget) op) machine := by
  have unfolded := Contract.dispatchWithin_apply (size ▸ length_le_append values) budget
  rw [Machine.lastValues_append values size, selected] at unfolded
  exact unfolded

/-- The hooks that call for random numbers are selected in both runs or in neither. -/
theorem Pairing.Posed.draws_iff
    (posed
      : pairing.Posed exempt (budget + 1) op op' owners machine twin outer outer' arguments
          arguments')
    (drawn : op'.name = "rand" ↔ op.name = "rand")
    : ((twin.thread.overlay.apply (Value.carried twin.heap arguments')).contains .batchMode = true
        ∧ op'.name = "rand")
      ↔ (machine.thread.overlay.apply
            (Value.carried machine.heap arguments)).contains .batchMode = true
        ∧ op.name = "rand" := by
  rw [Contract.apply_batchMode, Contract.apply_batchMode, posed.twins.forces_batchMode, drawn]

/-- In the body of a differentiation layer both runs select its body or the exit interceptor, by the
hooks of their arguments, which are the same.
-/
theorem Pairing.Posed.selected_differentiation
    (posed
      : pairing.Posed exempt (budget + 1) op op' (layer :: below) machine twin outer outer' arguments
          arguments')
    (within : machine.InBody layer below) (kind : layer.kind = .differentiation)
    : machine.Selected twin op op' (layer :: below) arguments arguments' := by
  have faces := posed.faced within.inBody.entry within.top.symm
  have inBody : machine.thread.overlay.InBody .differentiation := kind ▸ within.inBody
  have inBody' : twin.thread.overlay.InBody .differentiation :=
    kind ▸ (within.other posed.calling' posed.twins).inBody
  have selected := @select_differentiation op _ (Value.carried machine.heap arguments) inBody
  have selected' := @select_differentiation op' _ (Value.carried twin.heap arguments') inBody'
  rw [posed.twins.excluded, Pairing.carried_eq faces posed.twins.alike] at selected'
  unfold Machine.Selected
  rw [Pairing.carried_eq faces posed.twins.alike]
  split at selected
  · rename_i reachable
    rw [if_pos reachable] at selected'
    refine ⟨_, _, _, .differentiate within kind ?_, selected, selected'⟩
    simpa using (Bool.and_eq_true_iff.mp reachable).2
  · rename_i unreachable
    rw [if_neg unreachable] at selected'
    exact ⟨_, _, _, .leaveDifferentiation within kind, selected, selected'⟩

/-- In the body of a batching layer whose rules are not hidden, both runs select a rule if an
argument is a batch, and the exit interceptor otherwise.
-/
theorem Pairing.Posed.selected_batching
    (posed
      : pairing.Posed exempt (budget + 1) op op' (layer :: below) machine twin outer outer' arguments
          arguments')
    (drawn : op'.name = "rand" ↔ op.name = "rand") (within : machine.InBody layer below)
    (kind : layer.kind = .batching)
    (shown : machine.thread.overlay.excluded.contains .batched = false)
    : machine.Selected twin op op' (layer :: below) arguments arguments' := by
  have faces := posed.faced within.inBody.entry within.top.symm
  have random := posed.draws_iff drawn
  have inBody : machine.thread.overlay.InBody .batching := kind ▸ within.inBody
  have inBody' : twin.thread.overlay.InBody .batching :=
    kind ▸ (within.other posed.calling' posed.twins).inBody
  have selected := @select_batching op _ (Value.carried machine.heap arguments) inBody
  have selected' := @select_batching op' _ (Value.carried twin.heap arguments') inBody'
  rw [Pairing.carried_eq faces posed.twins.alike] at random selected'
  rw [posed.twins.excluded] at selected'
  unfold Machine.Selected
  rw [Pairing.carried_eq faces posed.twins.alike]
  split at selected
  · rename_i draws
    rw [if_pos (random.mpr draws)] at selected'
    exact ⟨_, _, _,
      .random within kind (Contract.apply_batchMode.mp draws.1) shown draws.2, selected, selected'⟩
  rename_i undrawn
  rw [if_neg fun draws => undrawn (random.mp draws)] at selected'
  split at selected
  · rename_i batched
    rw [if_pos batched] at selected'
    exact ⟨_, _, _, .rule within kind shown, selected, selected'⟩
  · rename_i absent
    rw [if_neg absent] at selected'
    refine ⟨_, _, _, .leaveBatching within kind (Or.inr ⟨rfl, ?_⟩), selected, selected'⟩
    rw [Machine.lastValues_append posed.values posed.size]
    simpa [shown] using absent

/-- On the way out of a batching layer, whose rules are hidden, both runs select the exit
interceptor, or the rule for random numbers.
-/
theorem Pairing.Posed.selected_leaving
    (posed
      : pairing.Posed exempt (budget + 1) op op' owners machine twin outer outer' arguments
          arguments')
    (drawn : op'.name = "rand" ↔ op.name = "rand") (within : machine.InBody layer owners)
    (kind : layer.kind = .batching)
    (hidden : machine.thread.overlay.excluded.contains .batched = true)
    : machine.Selected twin op op' owners arguments arguments' := by
  have inBody : machine.thread.overlay.InBody .batching := kind ▸ within.inBody
  have inBody' : twin.thread.overlay.InBody .batching :=
    kind ▸ (within.other posed.calling' posed.twins).inBody
  have undrawn
      : ¬((machine.thread.overlay.apply
              (Value.carried machine.heap arguments)).contains .batchMode = true
          ∧ op.name = "rand") := by
    intro random
    have shown := (Contract.apply_batchMode.mp random.1).2
    rcases posed.calling.drawn random.2 with same | hides
    · rw [within.top] at same
      exact absurd same List.ne_cons_self
    · rw [shown] at hides
      cases hides
  have undrawn' := fun random' => undrawn ((posed.draws_iff drawn).mp random')
  have selected := @select_batching op _ (Value.carried machine.heap arguments) inBody
  have selected' := @select_batching op' _ (Value.carried twin.heap arguments') inBody'
  rw [if_neg undrawn, hidden, Bool.not_true, Bool.and_false, if_neg Bool.false_ne_true] at selected
  rw [if_neg undrawn', posed.twins.excluded, hidden, Bool.not_true, Bool.and_false,
    if_neg Bool.false_ne_true] at selected'
  exact ⟨_, _, _, .leaveBatching within kind (Or.inl rfl), selected, selected'⟩

/-- Under active layers the calls of both runs are handled at the same place. The cases are those of
where a call may be on its way to the base.
-/
theorem Pairing.Posed.selected
    (posed
      : pairing.Posed exempt (budget + 1) op op' owners machine twin outer outer' arguments
          arguments')
    (active : machine.thread.layers ≠ []) (drawn : op'.name = "rand" ↔ op.name = "rand")
    : machine.Selected twin op op' owners arguments arguments' := by
  have active' : twin.ambient.layers ≠ [] :=
    fun inactive => active (posed.twins.layers.symm.trans inactive)
  have owning := posed.calling.owning
  generalize ambient : machine.ambient = present at owning
  cases owning with
  | base layers overlay =>
      subst ambient
      exact absurd layers active
  | front active grounded front =>
      subst ambient
      have front : machine.thread.overlay.forces .entryInterceptor := front
      let hides (set : CapabilitySet) : Bool := set.contains .entryInterceptor
      have front' : twin.thread.overlay.forces .entryInterceptor :=
        posed.calling'.owning.front_of_shown active'
          ((congrArg hides posed.twins.excluded).trans front.2)
      cases layers : machine.ambient.layers with
      | nil => exact absurd layers active
      | cons layer below =>
          rw [layers] at grounded
          exact ⟨_, _, _, .enter ⟨layers, grounded⟩ front, select_front _ front,
            select_front _ front'⟩
  | body top grounded inBody shown =>
      rename_i layer below
      subst ambient
      have within : machine.InBody layer below := ⟨⟨top, grounded⟩, inBody⟩
      cases kind : layer.kind with
      | differentiation => exact posed.selected_differentiation within kind
      | batching => exact posed.selected_batching drawn within kind (shown kind)
  | leaving top grounded kind inBody hidden =>
      subst ambient
      exact posed.selected_leaving drawn ⟨⟨top, grounded⟩, by rwa [kind]⟩ kind hidden

/-- What holds of the kernels that handle the calls of both runs, holds of the calls. -/
theorem Run.Beside.dispatch
    (posed
      : pairing.Posed exempt (budget + 1) op op' owners machine twin outer outer' arguments
          arguments')
    (active : machine.thread.layers ≠ []) (drawn : op'.name = "rand" ↔ op.name = "rand")
    (each
      : ∀ capability kernel kernel',
          pairing.Posed exempt (budget + 1) op op' owners (machine.inSpan op.name capability)
            (twin.inSpan op'.name capability) outer outer' arguments arguments'
          → (machine.inSpan op.name capability).Handles op op' owners kernel kernel'
          → Beside strict (kernel.run (nested budget) op) (kernel'.run (nested budget) op')
              (machine.inSpan op.name capability) (twin.inSpan op'.name capability) ok failed)
    : Beside strict ((nested (budget + 1)).dispatch op) ((nested (budget + 1)).dispatch op') machine
        twin ok failed := by
  obtain ⟨capability, kernel, kernel', handles, selected, selected'⟩ := posed.selected active drawn
  refine .congr (dispatch_apply posed.values posed.size selected)
    (dispatch_apply posed.values' posed.size' selected') (.traced_left (.traced_right ?_))
  exact each capability kernel kernel' posed.inSpan handles.inSpan

end

end LayeredDispatch
