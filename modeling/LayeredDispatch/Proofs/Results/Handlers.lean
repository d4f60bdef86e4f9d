import LayeredDispatch.Proofs.Results.Handing
import LayeredDispatch.Proofs.Twins.Outside

/-! The kernels that calls come to whose arguments fit the layers. Main statement: such a call of an
operator that is not random is handled by one of six kernels, and where it is called says by which; so
what these leave the call leaves.
-/

namespace LayeredDispatch

open Run Dispatcher

/-- The kernels that calls of operators that are not random come to, each with where that is. Under a
batching layer the exit interceptor is for calls that the layer has to do with no more, or has had
nothing to do with.
-/
inductive Machine.HandledBy (machine : Machine) (op : Schema) (arguments : List Value)
    : List Layer → Kernel → Prop where
  | base {kernel : Kernel} (atBase : machine.AtBase) (found : baseKernel? op.name = some kernel)
    : HandledBy machine op arguments [] kernel
  | enter {layer : Layer} {below : List Layer} (above : machine.Above layer below)
    (front : machine.thread.overlay.forces .entryInterceptor)
    : HandledBy machine op arguments (layer :: below) entryInterceptor
  | differentiate {layer : Layer} {below : List Layer} (within : machine.InBody layer below)
    (kind : layer.kind = .differentiation)
    (shown : machine.thread.overlay.excluded.contains .differentiation = false)
    : HandledBy machine op arguments (layer :: below) differentiationBody
  | leaveDifferentiation {layer : Layer} {below : List Layer} (within : machine.InBody layer below)
    (kind : layer.kind = .differentiation)
    : HandledBy machine op arguments (layer :: below) exitInterceptor
  | rule {layer : Layer} {below : List Layer} (within : machine.InBody layer below)
    (kind : layer.kind = .batching)
    (shown : machine.thread.overlay.excluded.contains .batched = false)
    (carries : (Value.carried machine.heap arguments).contains .batched = true)
    : HandledBy machine op arguments (layer :: below) (batchRule op.name)
  | leaveBatching {layer : Layer} {below owners : List Layer} (within : machine.InBody layer below)
    (kind : layer.kind = .batching)
    (owned
      : owners = below
        ∨ (owners = layer :: below
          ∧ (Value.carried machine.heap (machine.lastValues op.arity)).contains .batched = false))
    : HandledBy machine op arguments owners exitInterceptor

section

variable {machine : Machine} {op : Schema} {owners : List Layer} {arguments outer : List Value}
  {budget : Nat} {ok : Unit → List Value → Memory → Prop} {failed : Exit → Memory → Prop}

/-- Below all layers there are no wrappers around the arguments, because a tensor that fits no
layers is dense.
-/
theorem Machine.Supplied.dense (supplied : machine.Supplied budget op [] outer arguments)
    : ∀ tensor ∈ Value.tensorsAll arguments, tensor.isDense = true := by
  intro tensor member
  obtain ⟨cell, rfl, -⟩ := (supplied.fits tensor member).eq_dense
  rfl

/-- A call is handled by the kernel that is there for where it is called. The cases are those of
where a call may be on its way to the base; in the body of a layer it matters too what is hidden and
whether some argument carries the hook of batches.
-/
theorem Machine.Supplied.handledBy (supplied : machine.Supplied budget op owners outer arguments)
    (drawless : op.name ≠ "rand")
    : ∃ capability kernel,
        standard.select op (machine.thread.overlay.apply (Value.carried machine.heap arguments))
          = some (capability, kernel)
        ∧ machine.HandledBy op arguments owners kernel := by
  have owning := supplied.owning
  generalize ambient : machine.ambient = present at owning
  cases owning with
  | base inactive overlay =>
      subst ambient
      have atBase : machine.AtBase := ⟨inactive, overlay⟩
      obtain ⟨kernel, found, selected⟩ := select_dense atBase supplied.member supplied.dense
      exact ⟨_, kernel, selected, .base atBase found⟩
  | front active grounded front =>
      subst ambient
      cases top : machine.ambient.layers with
      | nil => exact absurd top active
      | cons layer below =>
          rw [top] at grounded
          exact ⟨_, _, select_front _ front, .enter ⟨top, grounded⟩ front⟩
  | body top grounded inBody shown =>
      rename_i layer below
      subst ambient
      have within : machine.InBody layer below := ⟨⟨top, grounded⟩, inBody⟩
      have inBody : machine.thread.overlay.InBody layer.kind := inBody
      cases kind : layer.kind with
      | differentiation =>
          rw [kind] at inBody
          have selected := @select_differentiation op machine.thread.overlay
            (Value.carried machine.heap arguments) inBody
          split at selected
          · rename_i reachable
            have shown := (Bool.and_eq_true_iff.mp reachable).2
            rw [Bool.not_eq_true'] at shown
            exact ⟨_, _, selected, .differentiate within kind shown⟩
          · exact ⟨_, _, selected, .leaveDifferentiation within kind⟩
      | batching =>
          rw [kind] at inBody
          have shown : machine.thread.overlay.excluded.contains .batched = false := shown kind
          have selected := @select_batching op machine.thread.overlay
            (Value.carried machine.heap arguments) inBody
          rw [if_neg fun random => drawless random.2, shown, Bool.not_false, Bool.and_true]
            at selected
          split at selected
          · rename_i carries
            exact ⟨_, _, selected, .rule within kind shown carries⟩
          · rename_i absent
            have absent := Bool.eq_false_iff.mpr absent
            rw [← Machine.lastValues_append supplied.values supplied.size] at absent
            exact ⟨_, _, selected, .leaveBatching within kind (.inr ⟨rfl, absent⟩)⟩
  | leaving top grounded kind inBody hidden =>
      rename_i layer
      subst ambient
      have within : machine.InBody layer owners := ⟨⟨top, grounded⟩, by rwa [kind]⟩
      have inBody : machine.thread.overlay.InBody .batching := inBody
      have hidden : machine.thread.overlay.excluded.contains .batched = true := hidden
      have selected := @select_batching op machine.thread.overlay
        (Value.carried machine.heap arguments) inBody
      rw [if_neg fun random => drawless random.2, hidden, Bool.not_true, Bool.and_false,
        if_neg Bool.false_ne_true] at selected
      exact ⟨_, _, selected, .leaveBatching within kind (.inl rfl)⟩

/-- What the kernels leave that a call can come to, the call leaves. -/
theorem Machine.Supplied.leaves_dispatch
    (supplied : machine.Supplied (budget + 1) op owners outer arguments) (drawless : op.name ≠ "rand")
    (handled
      : ∀ capability kernel,
          (machine.inSpan op.name capability).HandledBy op arguments owners kernel
          → (kernel.run (nested budget) op).Leaves (machine.inSpan op.name capability) ok failed)
    : ((nested (budget + 1)).dispatch op).Leaves machine ok failed := by
  obtain ⟨capability, kernel, selected, -⟩ := supplied.handledBy drawless
  -- The kernel runs with its trace node open, which is of no account to where the call is.
  obtain ⟨_, _, again, handledBy⟩ := (supplied.inSpan capability).handledBy drawless
  cases selected.symm.trans again
  exact .congr (dispatch_apply supplied.values supplied.size selected)
    (.traced (handled capability kernel handledBy))

end
end LayeredDispatch
