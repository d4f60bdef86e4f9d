import LayeredDispatch.Proofs.Dispatch.Agreement
import LayeredDispatch.Proofs.Dispatch.Meets
import LayeredDispatch.Proofs.Dispatch.Selection

/-! Calls of the standard dispatcher hand the state back, from all ambient states of a regime: a
set of ambient states that a call never leaves. Main statement: this holds of a call if it holds of
the base kernels where they run; and base kernels may be exchanged for others that do the same
there.
-/

namespace LayeredDispatch

open Run

/-- A set of ambient states that no computation leaves which hands the state back. -/
structure Ambients where
  admits : Ambient → Prop
  intercepting
    : ∀ {ambient}, admits ambient → ambient.layers ≠ [] → admits ambient.intercepting

/-- Ambient states from which calls are issued. The set is closed under all that kernels do to the
ambient state before they issue a call.
-/
structure Regime extends Ambients where
  levelled : ∀ {ambient}, admits ambient → Layer.Levelled ambient.layers
  hide
    : ∀ {ambient} {set : CapabilitySet},
        admits ambient
        → ambient.layers ≠ []
        → set.contains .entryInterceptor = false
        → set.contains .exitInterceptor = false
        → admits (ambient.hide set)
  enter
    : ∀ {ambient layer below},
        admits ambient → ambient.layers = layer :: below → admits (ambient.enter layer.kind)
  leave
    : ∀ {ambient layer below},
        admits ambient → ambient.layers = layer :: below → admits (ambient.leave layer below)

namespace Ambients

/-- A state that a computation resumes in belongs to the set if the state belongs to it in which the
computation started. The interceptors may have been included in between, which the set is closed
under while a layer is active.
-/
theorem resumes (ambients : Ambients) {start reached : Machine}
    (admitted : ambients.admits start.ambient) (h : start.Resumes reached)
    : ambients.admits reached.ambient := by
  rcases h.ambient with same | ⟨active, included⟩
  · rwa [same]
  · rw [included]
    exact ambients.intercepting admitted active

/-- Computations that agree from every state of the set. -/
def Agree (ambients : Ambients) (body other : Run α) : Prop :=
  ∀ machine, ambients.admits machine.ambient → Run.Agree machine body other

/-- Two sources of calls that agree on every call from a state of the set. -/
structure CallsAgree (ambients : Ambients) (calls other : Calls) : Prop where
  dispatch : ∀ op, ambients.Agree (calls.dispatch op) (other.dispatch op)
  schema? : other.schema? = calls.schema?

variable {ambients : Ambients}

/-- Sequences of agreeing computations agree. The second parts start where the first one resumes,
which is a state of the set again.
-/
theorem Agree.bind {first first' : Run α} {next next' : α → Run β}
    (head : ambients.Agree first first') (tail : ∀ value, ambients.Agree (next value) (next' value))
    : ambients.Agree (first >>= next) (first' >>= next') := by
  intro machine admitted
  refine (head machine admitted).bind ?_
  intro value reached _ resumes
  exact tail value reached (ambients.resumes admitted resumes)

/-- A computation that hands every state back agrees with itself. -/
theorem Agree.of_quiet {body : Run α} (h : Quiet body) : ambients.Agree body body :=
  fun machine _ => h.agree machine

/-- Branches that are decided alike agree if their sides do. -/
theorem Agree.ite {condition : Prop} [Decidable condition] {first first' second second' : Run α}
    (yes : ambients.Agree first first') (no : ambients.Agree second second')
    : ambients.Agree (if condition then first else second)
        (if condition then first' else second') :=
  fun machine admitted => .ite (fun _ => yes machine admitted) (fun _ => no machine admitted)

/-- Loops over the same items agree if their bodies agree on every item. -/
theorem Agree.mapM {visit visit' : α → Run β} (h : ∀ item, ambients.Agree (visit item) (visit' item))
    (items : List α)
    : ambients.Agree (items.mapM visit) (items.mapM visit') := by
  induction items with
  | nil => exact .of_quiet (quiet_pure [])
  | cons item items ih =>
      rw [List.mapM_cons, List.mapM_cons]
      exact (h item).bind fun _ => ih.bind fun _ => .of_quiet (quiet_pure _)

/-- Calls by name agree if the dispatches do: the operator is found by the same name, and the
results are taken off by quiet computations.
-/
theorem CallsAgree.call {calls other : Calls} (h : ambients.CallsAgree calls other) (name : String)
    (arguments : List Value)
    : ambients.Agree (calls.call name arguments) (other.call name arguments) := by
  have require : other.require = calls.require := by
    funext name
    simp only [Calls.require, h.schema?]
  unfold Calls.call
  rw [require]
  refine .bind (.of_quiet (quiet_lift ?_)) fun op => .ite ?_ (.of_quiet (quiet_fail _))
  · intro exit ended
    unfold Calls.require at ended
    cases found : calls.schema? name with
    | some op => simp [found] at ended
    | none =>
        simp only [found, Outcome.fail, Except.error.injEq] at ended
        rw [← ended]
        trivial
  · refine .bind (fun machine admitted => .onValues (h.dispatch op _ admitted)) ?_
    intro result
    exact .of_quiet (quiet_pure _)

/-- The same for calls that must give one tensor. What refuses other results is quiet. -/
theorem CallsAgree.callTensor {calls other : Calls} (h : ambients.CallsAgree calls other)
    (name : String) (arguments : List Value)
    : ambients.Agree (calls.callTensor name arguments) (other.callTensor name arguments) := by
  refine (h.call name arguments).bind ?_
  intro results
  split
  · exact .of_quiet (quiet_pure _)
  · exact .of_quiet (quiet_fail _)

/-- Padding agrees with itself under agreeing calls. The induction is on the number of rounds that
the loop may make, each of which issues one call.
-/
theorem agree_pad {calls other : Calls} (h : ambients.CallsAgree calls other)
    (rank budget : Nat) (physical : Tensor)
    : ambients.Agree (Batching.pad calls rank budget physical)
        (Batching.pad other rank budget physical) := by
  induction budget generalizing physical with
  | zero =>
      unfold Batching.pad
      refine .bind (.of_quiet (quiet_read _)) fun shape => .ite ?_ (.of_quiet (quiet_pure _))
      exact .of_quiet (quiet_fault trivial)
  | succ budget ih =>
      unfold Batching.pad
      refine .bind (.of_quiet (quiet_read _)) fun shape => .ite ?_ (.of_quiet (quiet_pure _))
      exact (h.callTensor _ _).bind fun padded => ih padded

end Ambients

namespace Regime

variable {regime : Regime}

/-- The states of a regime with an active layer. -/
def active (regime : Regime) : Ambients where
  admits ambient := regime.admits ambient ∧ ambient.layers ≠ []
  intercepting admitted _ := ⟨regime.intercepting admitted.1 admitted.2, admitted.2⟩

/-- Calls that agree in all states of a regime agree in those with an active layer. -/
theorem callsAgree_active {calls other : Calls} (h : regime.CallsAgree calls other)
    : regime.active.CallsAgree calls other :=
  ⟨fun op machine admitted => h.dispatch op machine admitted.1, h.schema?⟩

/-- Hooks of layer bodies may be hidden while a layer is active. The guard changes the overlay to
one that the regime admits, so the computation under it starts in a state of the set, and the
release undoes the change.
-/
theorem agree_hide {set : CapabilitySet} {body body' : Run α}
    (entry : set.contains .entryInterceptor = false)
    (exit : set.contains .exitInterceptor = false) (inner : regime.active.Agree body body')
    : regime.active.Agree (holding (Guard.hide set) body)
        (holding (Guard.hide set) body') := by
  intro machine admitted
  refine .holding (moves_hide set machine) fun held atHeld => inner held ?_
  rw [atHeld.ambient]
  exact ⟨regime.hide admitted.1 admitted.2 entry exit, admitted.2⟩

/-- A computation on the top layer is one on the layer that is there; without a layer both sides
fault before they do anything.
-/
theorem agree_top {machine : Machine} {next next' : Layer → Run α}
    (inner
      : ∀ layer below,
          machine.thread.layers = layer :: below
          → Run.Agree machine (next layer) (next' layer))
    : Run.Agree machine (currentLayer >>= next) (currentLayer >>= next') := by
  refine (quiet_writing.currentLayer.agree machine).bind ?_
  intro layer reached ended _
  cases layers : machine.thread.layers with
  | nil =>
      simp [Run.currentLayer, topLayer?, bind_apply, read_apply, layers, fault_apply] at ended
  | cons top below =>
      obtain ⟨rfl, rfl⟩ : top = layer ∧ machine = reached := by
        simpa [Run.currentLayer, topLayer?, bind_apply, read_apply, layers, pure_apply]
          using ended
      exact inner top below layers

/-- Bodies of layers run while a layer is active, so they may use the states with an active layer
alone.
-/
theorem agree_body {next next' : Layer → Run α}
    (inner : ∀ layer, regime.active.Agree (next layer) (next' layer))
    : regime.Agree (currentLayer >>= next) (currentLayer >>= next') := by
  refine fun machine admitted => agree_top fun layer below layers => inner layer machine ?_
  refine ⟨admitted, ?_⟩
  rw [Machine.ambient, layers]
  exact List.cons_ne_nil layer below

/-- A kernel that makes agreeing calls into agreeing computations. -/
def Steady (regime : Regime) (kernel : Kernel) : Prop :=
  ∀ calls other op, regime.CallsAgree calls other →
    regime.Agree (kernel.run calls op) (kernel.run other op)

/-- The rule for pointwise operators issues two kinds of calls, those that pad its arguments and the
one on the padded values. All of them run under a guard that hides the hook of batches.
-/
theorem steady_pointwise : regime.Steady Batching.pointwise := by
  intro calls other op h
  replace h := callsAgree_active h
  refine agree_body ?_
  intro layer
  refine .bind (.of_quiet (quiet_writing.pop _)) ?_
  intro arguments
  refine .bind (.of_quiet (quiet_read _)) fun rank => agree_hide rfl rfl ?_
  refine .bind (.mapM (fun argument => ?_) arguments) fun padded => ?_
  · split
    · exact .of_quiet (quiet_pure _)
    · exact (Ambients.agree_pad h _ _ _).bind fun _ => .of_quiet (quiet_pure _)
  · refine .bind (.of_quiet (quiet_writing.pushAll _)) fun _ => (h.dispatch op).bind ?_
    intro _
    exact .of_quiet (quiet_writing.ite (quiet_writing.wrapResults _ _) (quiet_pure _))

/-- The rule for a new dimension issues one call, on the value below the batch and with the moved
position.
-/
theorem steady_unsqueeze : regime.Steady Batching.unsqueeze := by
  intro calls other op h
  replace h := callsAgree_active h
  refine agree_body ?_
  intro layer
  refine .bind (.of_quiet (quiet_writing.pop _)) ?_
  intro arguments
  refine .bind (.of_quiet (quiet_lift (Value.plain_tensorAt _ _ _).orderly)) ?_
  intro input
  refine .bind (.of_quiet (quiet_lift (Value.plain_intAt _ _ _).orderly)) fun dim =>
    agree_hide rfl rfl ?_
  split
  · refine .bind (.of_quiet (quiet_read _)) fun shape => .ite ?_ (.of_quiet (quiet_fail _))
    refine .bind (.of_quiet (quiet_writing.pushAll _)) fun _ => (h.dispatch op).bind ?_
    intro _
    exact .of_quiet (quiet_writing.wrapResults _ _)
  · exact .bind (.of_quiet (quiet_writing.pushAll _)) fun _ => h.dispatch op

/-- The rule for sums in place pads the addend, if it is a batch, and issues the sum on the values
below the batches. Its own refusals come before any call and are quiet.
-/
theorem steady_addInPlace : regime.Steady Batching.addInPlace := by
  intro calls other op h
  replace h := callsAgree_active h
  refine agree_body ?_
  intro layer
  refine .bind (.of_quiet (quiet_writing.pop _)) ?_
  intro arguments
  refine .bind (.of_quiet (quiet_lift (Value.plain_tensorAt _ _ _).orderly)) ?_
  intro target
  refine .bind (.of_quiet (quiet_lift (Value.plain_tensorAt _ _ _).orderly)) fun addend =>
    agree_hide rfl rfl ?_
  split
  · exact .of_quiet (quiet_fail _)
  · exact .bind (.of_quiet (quiet_writing.pushAll _)) fun _ => h.dispatch op
  · refine .bind (.of_quiet (quiet_read _)) ?_
    intro shape
    split
    · refine (Ambients.agree_pad h _ _ _).bind fun padded =>
        .bind (.of_quiet (quiet_writing.pushAll _)) ?_
      intro _
      exact (h.dispatch op).bind fun _ => .of_quiet (quiet_writing.replaceLast _)
    · refine .bind (.of_quiet (quiet_pure _)) fun _ => .bind (.of_quiet (quiet_writing.pushAll _)) ?_
      intro _
      exact (h.dispatch op).bind fun _ => .of_quiet (quiet_writing.replaceLast _)

/-- The kernel for operators without a rule issues no calls at all. -/
theorem steady_missingRule : regime.Steady Batching.missingRule := by
  intro calls other op _
  exact .of_quiet ((quiet_log _).bind fun _ => quiet_fail _)

/-- Every rule of batching layers makes agreeing calls into agreeing computations. The cases are
those of `batchRule`, where three operators share the pointwise rule.
-/
theorem steady_batchRule (name : String) : regime.Steady (Dispatcher.batchRule name) := by
  unfold Dispatcher.batchRule
  split
  · exact steady_pointwise
  · exact steady_pointwise
  · exact steady_pointwise
  · exact steady_unsqueeze
  · exact steady_addInPlace
  · exact steady_missingRule

/-- The rule for random operators issues its call with a larger first argument, under a guard that
hides the mode of batching.
-/
theorem steady_random : regime.Steady Batching.random := by
  intro calls other op h
  replace h := callsAgree_active h
  refine agree_body fun layer => agree_hide rfl rfl ?_
  split
  · exact .of_quiet (quiet_fault trivial)
  · exact .of_quiet (quiet_fail _)
  · exact h.dispatch op
  · refine .bind (.of_quiet (quiet_writing.pop _)) ?_
    intro arguments
    refine .bind (.of_quiet (quiet_lift (Value.plain_sizesAt _ _ _).orderly)) ?_
    intro sizes
    refine .bind (.of_quiet (quiet_writing.push _)) fun _ => (h.dispatch op).bind ?_
    intro _
    exact .of_quiet (quiet_writing.wrapResults _ _)

/-- The body of differentiation layers issues the call again on the untagged arguments and tags the
results. All that it does beside the call is quiet.
-/
theorem steady_differentiationBody : regime.Steady differentiationBody := by
  intro calls other op h
  replace h := callsAgree_active h
  refine agree_body ?_
  intro layer
  refine .bind (.of_quiet (quiet_read _)) ?_
  intro recording
  exact .bind (agree_hide rfl rfl (h.dispatch op)) fun _ =>
    .of_quiet (quiet_writing.recordGradFns op layer.level recording)

/-- The kernel for dead tags takes them off and issues the call again, in the ambient state in which
it was itself called.
-/
theorem steady_deadWrapperFallback : regime.Steady deadWrapperFallback := by
  intro calls other op h
  exact .bind (.of_quiet (quiet_writing.mapLast (quiet_writing.unwrapOutside op.name) _)) fun _ =>
    h.dispatch op

/-- The entry interceptor issues its call from the ambient state of the body of the top layer, which
the regime admits by `enter`. Without an active layer it faults before the call.
-/
theorem steady_entryInterceptor : regime.Steady entryInterceptor := by
  intro calls other op h machine admitted
  refine ((quiet_read _).agree machine).bind ?_
  intro top? start found _
  obtain ⟨rfl, rfl⟩ : machine.thread.layers.head? = top? ∧ machine = start := by
    simpa [read_apply] using found
  cases layers : machine.thread.layers with
  | nil =>
      have orderly : (Exit.fault (.entryWithoutLayer op.name)).Orderly := trivial
      exact (quiet_fault orderly).agree machine
  | cons layer below =>
      refine (Quiet.agree quiet_writing.renderLayers machine).bind ?_
      intro shown rendered _ resumes
      refine ((quiet_writing.logDispatch _).agree rendered).bind ?_
      intro _ logged _ later
      replace resumes := resumes.trans later
      refine ((quiet_writing.refuseCapturedMutation op layer).agree logged).bind ?_
      intro _ checked _ later
      replace resumes := resumes.trans later
      refine ((quiet_writing.mapLast (quiet_writing.receive layer) _).agree checked).bind ?_
      intro _ received _ later
      replace resumes := resumes.trans later
      have admitted' := regime.resumes admitted resumes
      refine ((quiet_read _).agree received).bind ?_
      intro overlay same ended _
      obtain ⟨rfl, rfl⟩ : received.thread.overlay = overlay ∧ received = same := by
        simpa [read_apply] using ended
      refine .holding (moves_replaceOverlay _ _) fun held atHeld => h.dispatch op held ?_
      rw [atHeld.ambient]
      exact regime.enter admitted' (resumes.layers.trans layers)

/-- The exit interceptor issues its call from the ambient state below the top layer, which the
regime admits by `leave`. The arguments are lowered before the call and the results after it;
neither is a call.
-/
theorem steady_exitInterceptor : regime.Steady exitInterceptor := by
  intro calls other op h machine admitted
  have below_top {start : Machine} {layer : Layer} {below : List Layer}
      (reaches : machine.Resumes start) (layers : machine.thread.layers = layer :: below)
      : Run.Agree start (dispatchBelow calls op layer) (dispatchBelow other op layer) := by
    have admitted' := regime.resumes admitted reaches
    have layers' := reaches.layers.trans layers
    have level : layer.level = below.length + 1 := by
      have levelled := regime.levelled admitted'
      rw [Machine.ambient, layers'] at levelled
      exact levelled.1
    refine .dispatchBelow layers' level fun held atHeld => h.dispatch op held ?_
    rw [atHeld.ambient]
    exact regime.leave admitted' layers'
  refine agree_top ?_
  intro layer below layers
  cases layer.kind with
  | batching => exact below_top (.refl machine) layers
  | differentiation =>
      refine ((quiet_writing.copyUntagged op _).agree machine).bind ?_
      intro _ copied _ resumes
      refine (below_top resumes layers).bind ?_
      intro _ returned _ _
      exact (quiet_writing.tagResults op _).agree returned

end Regime
end LayeredDispatch
