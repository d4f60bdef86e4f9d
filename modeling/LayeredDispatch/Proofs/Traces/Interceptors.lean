import LayeredDispatch.Proofs.Traces.Lowering

/-! The way of a call through the interceptors around layers and the bodies of differentiation layers.
Main statements: each of them adds to the trace nothing but the node of the call that it hands on, and
that call has the rest of the way to go.
-/

namespace LayeredDispatch

open Run Dispatcher

/-- A kernel that handles a call on a hook leads it the way that it has still to go. -/
def Kernel.Leads (budget : Nat) (owners : List Layer) (op : Schema) (machine : Machine)
    (capability : Capability) (kernel : Kernel)
    : Prop :=
  ∀ outer arguments,
    machine.Supplied (budget + 1) op owners outer arguments
    → (kernel.run (nested budget) op).Appends machine fun nodes =>
        TraceNode.Follows op.name
          (machine.ambient.route op.name (Value.outlines machine.heap arguments))
          ⟨op.name, capability, nodes⟩

section

variable {machine held : Machine} {op : Schema} {owners below : List Layer} {layer : Layer}
  {arguments inner outer : List Value} {budget : Nat} {capability : Capability}
  {path : List Capability} {appended : List TraceNode → Prop}

/-- A kernel that hands its call on leads it the way of the call that it issues. Before that call it
may have padded, which only the rules of batching layers do.
-/
theorem Contract.Holds.appends (holds : Contract.traces.Holds budget)
    (supplied : held.Supplied budget op owners outer inner) {padding : List TraceNode}
    (padded : ∀ node ∈ padding, capability = .batched ∧ node.op = "unsqueeze")
    (way
      : path = capability :: held.ambient.route op.name (Value.outlines held.heap inner))
    : ((nested budget).dispatch op).Appends held fun nodes =>
        TraceNode.Follows op.name path ⟨op.name, capability, padding ++ nodes⟩ := by
  refine (holds supplied.toCalling outer inner supplied).mono fun nodes given => ?_
  rcases given with ⟨node, rfl, follows⟩
  rw [way]
  exact .step padded follows

/-- The same where nothing is padded. -/
theorem Contract.Holds.appends_only (holds : Contract.traces.Holds budget)
    (supplied : held.Supplied budget op owners outer inner)
    (way
      : path = capability :: held.ambient.route op.name (Value.outlines held.heap inner))
    : ((nested budget).dispatch op).Appends held fun nodes =>
        TraceNode.Follows op.name path ⟨op.name, capability, nodes⟩ :=
  holds.appends supplied (List.forall_mem_nil _) way

-----------------------------------------------------------------------------------------
-- Below all layers
-----------------------------------------------------------------------------------------

/-- A base kernel ends the way of its call. It issues no calls, so it adds nothing to the trace. -/
theorem leads_base {kernel : Kernel} (atBase : machine.AtBase)
    (found : baseKernel? op.name = some kernel)
    : Kernel.Leads budget [] op machine .backend kernel := by
  intro outer arguments _
  refine (silent_writing.baseKernel (fun _ => trivial) found _ op).appends ?_
  rw [Ambient.route_base atBase.layers]
  exact .last .backend

/-- What fits no layers has no tags, so below all layers no call with tags is left to lead. -/
theorem leads_outside (carries : machine.Carries op .taggedWrapper)
    : Kernel.Leads budget [] op machine .taggedWrapper deadWrapperFallback := by
  intro outer arguments supplied
  unfold Machine.Carries at carries
  rw [contains_carried (by decide), List.any_eq_true,
    Machine.lastValues_append supplied.values supplied.size] at carries
  rcases carries with ⟨tensor, member, tagged⟩
  obtain ⟨cell, rfl, -⟩ := (supplied.fits tensor member).eq_dense
  simp [Tensor.capabilities, CapabilitySet.only] at tagged

-----------------------------------------------------------------------------------------
-- In front of a layer
-----------------------------------------------------------------------------------------

/-- The entry interceptor hands its call on into the body of the layer, after it has received the
arguments. What the layers below see of them is the same as before, and the layer itself sees
whether it owns them, which decides whether the body comes next.
-/
theorem leads_enter (holds : Contract.traces.Holds budget) (above : machine.Above layer below)
    (front : machine.thread.overlay.forces .entryInterceptor)
    : Kernel.Leads budget (layer :: below) op machine .entryInterceptor entryInterceptor := by
  intro outer arguments supplied
  have levelled := above.grounded.levelled
  refine .step (silent_read _) rfl ?_
  simp only [above.top, List.head?_cons]
  refine .step silent_writing.renderLayers rfl ?_
  refine .silently (silent_writing.logDispatch _) fun _ logged noted => ?_
  have resumes := (quiet_writing.logDispatch _ machine).resumes noted
  have atLogged := logDispatch_ok noted
  have heap : logged.heap = machine.heap := atLogged.heap
  refine .silently (silent_writing.refuseCapturedMutation op layer) fun _ checked passed => ?_
  obtain rfl := refuseCapturedMutation_ok passed
  have layers : checked.thread.layers = layer :: below := resumes.layers.trans above.top
  have active : layer ∈ checked.thread.layers := layers ▸ List.mem_cons_self
  have fits := supplied.fits
  rw [← heap] at fits
  rw [← supplied.size]
  have receiving := @leaves_received checked below layer arguments outer (fun _ _ => True)
    (supplied.registered.resumes resumes) active levelled (atLogged.values.trans supplied.values)
    fits
  refine .after (silent_writing.mapLast (silent_writing.receive layer) _) receiving ?_
  intro _ received later left
  rcases left with ⟨given, values, grows, related⟩
  rw [heap] at grows related
  have resumes := resumes.trans later
  refine .step (silent_read _) rfl ?_
  refine .holding (moves_replaceOverlay _ received) (silent_layering.replaceOverlay _) ?_
  intro held atHeld
  have handed := supplied.entered above front resumes values grows
    (related.mono fun _ _ => And.left) atHeld
  refine holds.appends_only handed.supplied ?_
  have entered
      : List.Forall₂ (Outline.Entered layer below) (Value.outlines machine.heap arguments)
          (Value.outlines held.heap given) := by
    rw [show held.heap = received.heap from atHeld.heap]
    refine related.look fun tensor result both => ?_
    exact both.2.entered levelled resumes.flags both.1.shape both.1.fits
  have inFront : machine.ambient.overlay.forces .entryInterceptor := front
  have top : machine.ambient.layers = layer :: below := above.top
  have top' : received.ambient.layers = layer :: below := resumes.layers.trans above.top
  have ambient : held.ambient = received.ambient.enter layer.kind := atHeld.ambient
  rw [Ambient.route_front inFront, top, Layer.path_entered top' entered, ambient]

-----------------------------------------------------------------------------------------
-- In the body of a differentiation layer
-----------------------------------------------------------------------------------------

/-- What is left to do in the body of a differentiation layer: its hook, unless that is hidden or
the uppermost wrapper of every argument belongs to another kind of layer.
-/
theorem Layer.pending_differentiation {overlay : Overlay} {name : String} {outlines : List Outline}
    (kind : layer.kind = .differentiation)
    : layer.pending below overlay name outlines
      = if overlay.excluded.contains .differentiation = false
            ∧ ∃ outline ∈ outlines, outline.foremost? (layer :: below) = some .differentiation then
          [.differentiation]
        else [] := by
  simp only [pending, kind]

/-- In the body of a layer a call on whose way a hook comes next has the rest of the way to go where
this hook is hidden. Hiding it changes nothing but what is pending.
-/
theorem Ambient.route_hide {ambient : Ambient} {set : CapabilitySet} {name : String}
    {outlines : List Outline} (top : ambient.layers = layer :: below)
    (entered : ambient.overlay.excluded.contains .entryInterceptor = true)
    (pending : layer.pending below ambient.overlay name outlines = [capability])
    (done : layer.pending below (ambient.hide set).overlay name outlines = [])
    : ambient.route name outlines = capability :: (ambient.hide set).route name outlines := by
  have top' : (ambient.hide set).layers = layer :: below := top
  have entered' : (ambient.hide set).overlay.excluded.contains .entryInterceptor = true := by
    simp [Ambient.hide, entered]
  rw [route_inBody top entered, route_inBody top' entered', pending, done]
  rfl

/-- The body of a differentiation layer hands its call on under a guard that hides its own hook. The
arguments stay as they are, so the way from there is the old one without its first step.
-/
theorem leads_differentiate (holds : Contract.traces.Holds budget)
    (within : machine.InBody layer below) (kind : layer.kind = .differentiation)
    (shown : machine.thread.overlay.excluded.contains .differentiation = false)
    (carries : machine.Carries op .differentiation)
    : Kernel.Leads budget (layer :: below) op machine .differentiation differentiationBody := by
  intro outer arguments supplied
  refine .step silent_writing.currentLayer (currentLayer_apply within.top) ?_
  refine .step (silent_read _) rfl ?_
  refine Appends.then (.holding (moves_hide _ machine) (silent_layering.hide _) ?_) fun _ =>
    silent_writing.recordGradFns op layer.level machine.thread.grad
  intro held atHeld
  have handed := supplied.hidden within kind shown atHeld
  have hidden : held.ambient = machine.ambient.hide TransformKind.differentiation.owned :=
    atHeld.ambient
  have heap : held.heap = machine.heap := atHeld.heap
  have wrapped := (supplied.carries_iff within.grounded.levelled .differentiation).mp carries
  refine holds.appends_only handed.supplied ?_
  rw [hidden, heap]
  refine Ambient.route_hide within.top within.inBody.entry ?_ ?_
  · rw [Layer.pending_differentiation kind]
    exact if_pos ⟨shown, wrapped⟩
  · rw [Layer.pending_differentiation kind]
    refine if_neg fun both => ?_
    simp [Ambient.hide, TransformKind.owned, CapabilitySet.ofList] at both

-----------------------------------------------------------------------------------------
-- On the way out of a layer
-----------------------------------------------------------------------------------------

/-- A call that goes on below the top layer adds what it adds there. All guards on the way are
silent.
-/
theorem Run.Appends.beneath {calls : Calls} (top : machine.thread.layers = layer :: below)
    (level : layer.level = below.length + 1)
    (inner
      : ∀ held : Machine,
          machine.Shifted (machine.ambient.leave layer below) held
          → (calls.dispatch op).Appends held appended)
    : (dispatchBelow calls op layer).Appends machine appended := by
  refine .holding (moves_hideTop top level) silent_layering.hideTop ?_
  intro popped atPopped
  refine .holdingIf (moves_gradMode false popped) (silent_layering.gradMode false) ?_
  intro gradSet atGradSet
  refine .holdingIf (moves_forwardGradMode false gradSet) (silent_layering.forwardGradMode false) ?_
  intro start atStart
  refine .silently (silent_writing.overlayBelow op layer) fun overlay checked ran => ?_
  refine .holding (moves_replaceOverlay overlay checked) (silent_layering.replaceOverlay overlay) ?_
  intro held atHeld
  refine (inner held (shifted_leave atPopped atGradSet atStart ran atHeld)).then fun _ => ?_
  exact silent_writing.reenter _

/-- On the way out of a differentiation layer the call gets untagged copies of its arguments. They
look the same to the layers below, because the tag that is taken off is of no concern to them.
-/
theorem leads_leaveDifferentiation (holds : Contract.traces.Holds budget)
    (within : machine.InBody layer below) (kind : layer.kind = .differentiation)
    (passed
      : machine.Carries op .differentiation
        → machine.thread.overlay.excluded.contains .differentiation = true)
    : Kernel.Leads budget (layer :: below) op machine .exitInterceptor exitInterceptor := by
  intro outer arguments supplied
  have levelled := within.grounded.levelled
  have top : machine.ambient.layers = layer :: below := within.top
  refine .step silent_writing.currentLayer (currentLayer_apply within.top) ?_
  simp only [kind]
  have untagging := @leaves_untagged machine op below layer arguments outer (fun _ _ => True) kind
    levelled supplied.values supplied.size supplied.fits
  refine .after (silent_writing.copyUntagged op layer.level) untagging ?_
  intro _ copied resumes left
  rcases left with ⟨given, values, grows, related⟩
  have above : copied.Above layer below := ⟨resumes.layers.trans within.top, within.grounded⟩
  have fits : ∀ tensor ∈ Value.tensorsAll given, tensor.Fits copied.heap below :=
    related.forall_right (fun _ _ => trivial) fun _ _ both (_ : True) => both.1.fits
  have steps : op.name ≠ "rand" → below ≠ [] → copied.ambient.steps ≤ budget + 1 := by
    intro drawless _
    rw [Ambient.steps_resumes resumes]
    exact supplied.steps drawless (List.cons_ne_nil _ _)
  refine Appends.then (.beneath above.top levelled.1 ?_) fun _ =>
    silent_writing.tagResults op layer.level
  intro held atHeld
  have handed := Machine.HandsOn.left supplied.member above (supplied.registered.resumes resumes)
    values (related.length_eq.trans supplied.size) steps fits atHeld
  have ambient : held.ambient = copied.ambient.leave layer below := atHeld.ambient
  have heap : held.heap = copied.heap := atHeld.heap
  refine holds.appends_only handed.supplied ?_
  rw [ambient, heap, Ambient.route_leave]
  refine Ambient.route_past top within.inBody.entry ?_ ?_
  · rw [Layer.pending_differentiation kind]
    refine if_neg fun both => ?_
    have carries := (supplied.carries_iff levelled .differentiation).mpr both.2
    exact absurd ((passed carries).symm.trans both.1) Bool.noConfusion
  · rw [Outline.map_past fun _ _ => Outline.past_differentiation _ kind]
    exact related.look fun tensor result both =>
      both.2.agree levelled resumes.flags both.1.shape

/-- What is left to do in the body of a batching layer: the mode for random operators, and for all
others the hook of batches.
-/
theorem Layer.pending_batching {overlay : Overlay} {name : String} {outlines : List Outline}
    (kind : layer.kind = .batching)
    : layer.pending below overlay name outlines
      = if name = "rand" then
          if overlay.included.contains .batchMode
              ∧ overlay.excluded.contains .batchMode = false then
            [.batchMode]
          else []
        else if overlay.excluded.contains .batched = false
            ∧ ∃ outline ∈ outlines, outline.foremost? (layer :: below) = some .batching then
          [.batched]
        else [] := by
  simp only [pending, kind]

/-- Arguments that fit the layers below look the same past the layer, since it wraps none of them.
-/
theorem Value.outlines_past {heap : Heap} (levelled : Layer.Levelled (layer :: below)) (goal : Nat)
    (fits : ∀ tensor ∈ Value.tensorsAll arguments, tensor.Fits heap below)
    : (Value.outlines heap arguments).map (Outline.past goal layer below)
      = Value.outlines heap arguments := by
  refine Outline.map_past fun outline member => ?_
  obtain ⟨tensor, found, rfl⟩ := List.mem_map.mp member
  exact Outline.past_of_not_mem goal ((fits tensor found).not_wrapped levelled)

/-- On the way out of a batching layer the arguments are left alone. They are not wrapped by the
layer, either because its rule has taken the wrappers off or because there were none.
-/
theorem leads_leaveBatching (holds : Contract.traces.Holds budget)
    (within : machine.InBody layer below) (kind : layer.kind = .batching)
    (drawn : op.name = "rand" → ¬machine.thread.overlay.forces .batchMode)
    (owned
      : (owners = below ∧ machine.thread.overlay.excluded.contains .batched = true)
        ∨ (owners = layer :: below
          ∧ (Value.carried machine.heap (machine.lastValues op.arity)).contains .batched = false))
    : Kernel.Leads budget owners op machine .exitInterceptor exitInterceptor := by
  intro outer arguments supplied
  have levelled := within.grounded.levelled
  have top : machine.ambient.layers = layer :: below := within.top
  obtain ⟨steps, fits⟩ := supplied.unbatched kind (owned.imp And.left id)
  refine .step silent_writing.currentLayer (currentLayer_apply within.top) ?_
  simp only [kind]
  refine .beneath within.top levelled.1 ?_
  intro held atHeld
  have handed := Machine.HandsOn.left supplied.member within.toAbove supplied.registered
    supplied.values supplied.size steps fits atHeld
  have ambient : held.ambient = machine.ambient.leave layer below := atHeld.ambient
  have heap : held.heap = machine.heap := atHeld.heap
  refine holds.appends_only handed.supplied ?_
  rw [ambient, heap, Ambient.route_leave]
  refine Ambient.route_past top within.inBody.entry ?_ ?_
  · rw [Layer.pending_batching kind]
    split
    · rename_i named
      exact if_neg fun forces => drawn named forces
    · refine if_neg fun both => ?_
      rcases owned with ⟨rfl, hidden⟩ | ⟨rfl, absent⟩
      · exact absurd (hidden.symm.trans both.1) Bool.noConfusion
      · have carries : machine.Carries op .batched :=
          (supplied.carries_iff levelled .batching).mpr both.2
        exact absurd (absent.symm.trans carries) Bool.noConfusion
  · rw [Value.outlines_past levelled _ fits]
    exact List.forall₂_same.mpr fun outline _ => .refl below outline

end

end LayeredDispatch
