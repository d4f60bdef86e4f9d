import LayeredDispatch.Proofs.Dispatch.Exchange
import LayeredDispatch.Proofs.Wrappers.Ownership

/-! Wrappers that no active layer owns never go unnoticed. Main statement: if a call gives values,
the live wrappers around its arguments have strictly falling levels and are wrappers of the active
layers of these levels.
-/

namespace LayeredDispatch

open Run Dispatcher

/-- A computation that gives a value only if something holds. -/
abbrev Run.Needs (body : Run α) (machine : Machine) (condition : Prop) : Prop :=
  body.Meets machine (fun _ _ _ => condition) (fun _ => True)

/-- What a computation needs implies more, so it needs that too. -/
theorem Run.Needs.imp {body : Run α} {machine : Machine} {condition condition' : Prop}
    (h : body.Needs machine condition) (implies : condition → condition')
    : body.Needs machine condition' :=
  h.mono (fun _ _ _ => implies) (fun _ _ => trivial)

/-- Whatever holds anyway is needed by every computation that hands the state back. -/
theorem Run.Quiet.needs {body : Run α} (h : Quiet body) (machine : Machine) {condition : Prop}
    (holds : condition)
    : body.Needs machine condition :=
  (h machine).mono (fun _ _ _ _ => holds) (fun _ _ => trivial)

/-- What the first part of a sequence needs, the sequence needs. Of the second part only that it
hands the state back is asked.
-/
theorem Run.Needs.bind {first : Run α} {next : α → Run β} {machine : Machine}
    {condition : Prop} (head : first.Needs machine condition)
    (tail
      : ∀ value reached,
          first machine = .ok value reached
          → machine.Resumes reached
          → (next value).Meets reached (fun _ _ _ => True) (fun _ => True))
    : (first >>= next).Needs machine condition :=
  Meets.bind head fun value reached started resumes holds =>
    (tail value reached started resumes).mono (fun _ _ _ _ => holds) (fun _ _ => trivial)

/-- A call succeeds only if the layers that must own the wrappers around its arguments do. -/
structure Calls.Owning (calls : Calls) : Prop where
  dispatch
    : ∀ {op machine owners},
        op ∈ Base.schemas
        → machine.ambient.Owners owners
        → (calls.dispatch op).Needs machine
            (Layer.Own owners machine.heap (machine.lastValues op.arity))
  schema? : calls.schema? = standard.schema?

/-- The same for a kernel that handles a call. -/
def Kernel.Owning (kernel : Kernel) (op : Schema) (machine : Machine) (owners : List Layer)
    : Prop :=
  ∀ calls : Calls, calls.Owning →
    (kernel.run calls op).Needs machine
      (Layer.Own owners machine.heap (machine.lastValues op.arity))

/-- Without an active layer no body runs: asking for the top layer faults, so no value is given. -/
theorem Run.needs_of_inactive {machine : Machine} {next : Layer → Run α} {condition : Prop}
    (inactive : machine.thread.layers = [])
    : (currentLayer >>= next).Needs machine condition := by
  refine Meets.bind (quiet_writing.currentLayer machine) ?_
  intro layer reached ended _ _
  simp [currentLayer, topLayer?, bind_apply, read_apply, inactive, fault_apply] at ended

/-- A call that is let pass finds the state unchanged. -/
theorem Run.refuseCapturedMutation_ok {op : Schema} {layer : Layer} {machine reached : Machine}
    (ended : refuseCapturedMutation op layer machine = .ok () reached)
    : reached = machine := by
  unfold refuseCapturedMutation at ended
  split at ended
  · obtain ⟨arguments, peeked, looked, ended⟩ := bind_ok ended
    obtain ⟨rfl, -, rfl⟩ := peek_ok looked
    obtain ⟨written?, same, unwrapped, ended⟩ := bind_ok ended
    split at ended
    · obtain ⟨_, logged, noted, ended⟩ := bind_ok ended
      cases ended
    · cases ended
      cases target : ((peeked.lastValues op.arity).head?.bind Value.tensor?) with
      | none =>
          rw [target] at unwrapped
          cases unwrapped
          rfl
      | some tensor =>
          rw [target] at unwrapped
          cases unwrapped
          rfl
  · cases ended
    rfl

section

variable {op : Schema} {machine : Machine} {layer : Layer} {below : List Layer}

/-- In front of a layer: the wrappers around the arguments are still there in its body, with a tag
of the layer added at most. So what is owned in the body was owned before.
-/
theorem owning_entryInterceptor (member : op ∈ Base.schemas)
    (top : machine.thread.layers = layer :: below)
    (grounded : Layer.Grounded (layer :: below))
    : entryInterceptor.Owning op machine (layer :: below) := by
  intro calls h
  refine (quiet_read _).step rfl ?_
  simp only [top, List.head?_cons]
  refine Meets.bind (quiet_writing.renderLayers machine) ?_
  intro shown rendered found resumes _
  cases found
  refine Meets.bind (quiet_writing.logDispatch _ machine) ?_
  intro _ logged noted resumes _
  have atLogged := logDispatch_ok noted
  refine Meets.bind (quiet_writing.refuseCapturedMutation op layer logged) ?_
  intro _ checked passed _ _
  obtain rfl := refuseCapturedMutation_ok passed
  refine Meets.bind (quiet_writing.mapLast (quiet_writing.receive layer) _ checked) ?_
  intro _ received mapped later _
  obtain ⟨replaced, values, size, images⟩ := mapLast_ok (quiet_writing.receive layer) mapped
  refine (quiet_read _).step rfl ?_
  refine .holding (moves_replaceOverlay _ received) ?_
  intro held atHeld
  have layers : received.ambient.layers = layer :: below :=
    later.layers.trans (resumes.layers.trans top)
  have owners : held.ambient.Owners (layer :: below) := by
    rw [atHeld.ambient]
    exact .enter layers grounded
  refine (h.dispatch member owners).imp ?_
  intro owned tensor inside
  rw [atHeld.heap, Machine.lastValues_append (atHeld.values.trans values) size] at owned
  rw [Machine.lastValues, ← atLogged.values] at inside
  obtain ⟨result, found, start, final, between, ended⟩ := images tensor inside
  have kept := receive_ok ended
  rw [Tensor.liveWrappers_congr (resumes.trans between).flags,
    Tensor.liveWrappers_congr (resumes.trans between).flags] at kept
  have flags := (resumes.trans later).flags
  have owned := owned result found
  rw [Tensor.liveWrappers_congr flags] at owned
  exact kept.trans owned

/-- The arguments of a call that goes on below a layer are owned there. -/
theorem needs_dispatchBelow {calls : Calls} (h : calls.Owning) (member : op ∈ Base.schemas)
    (top : machine.thread.layers = layer :: below)
    (grounded : Layer.Grounded (layer :: below))
    : (dispatchBelow calls op layer).Needs machine
        (Layer.Own below machine.heap (machine.lastValues op.arity)) := by
  refine .dispatchBelow top grounded.levelled.1
    (fun start _ _ _ => quiet_writing.overlayBelow _ _ start) ?_
  intro held atHeld
  have owners : held.ambient.Owners below := by
    rw [atHeld.ambient]
    exact .leave top grounded
  refine (h.dispatch member owners).imp ?_
  intro owned
  rwa [atHeld.heap, Machine.lastValues, atHeld.values] at owned

/-- On the way out of a batching layer the arguments are handed on as they are, so the layers below
must own them.
-/
theorem owning_exitInterceptor_batching (member : op ∈ Base.schemas)
    (top : machine.thread.layers = layer :: below)
    (grounded : Layer.Grounded (layer :: below)) (kind : layer.kind = .batching)
    : exitInterceptor.Owning op machine below := by
  intro calls h
  refine quiet_writing.currentLayer.step (currentLayer_apply top) ?_
  simp only [kind]
  exact needs_dispatchBelow h member top grounded

/-- Tags of the top layer are taken off copies of the arguments before they leave the layer. Each
argument has a copy, made from it by taking off at most the tag of the level.
-/
theorem copyUntagged_ok {level : Level} {reached : Machine}
    (ended : copyUntagged op level machine = .ok () reached)
    : ∃ replaced,
        reached.values = machine.values ++ replaced
        ∧ replaced.length = op.arity
        ∧ ∀ tensor ∈ Value.tensorsAll (machine.lastValues op.arity),
            ∃ result ∈ Value.tensorsAll replaced,
              Replaced (fun tensor => unwrapAt tensor level) machine tensor result := by
  obtain ⟨arguments, peeked, looked, ended⟩ := bind_ok ended
  obtain ⟨rfl, enough, rfl⟩ := peek_ok looked
  obtain ⟨_, copied, pushed, ended⟩ := bind_ok ended
  have resumes := (quiet_writing.pushAll _ _).resumes pushed
  cases pushed
  obtain ⟨replaced, values, size, images⟩ :=
    mapLast_ok (fun tensor => quiet_writing.unwrapAt tensor level) ended
  have size' := Machine.lastValues_length enough
  rw [Machine.firstValues_append rfl size'] at values
  rw [Machine.lastValues_append rfl size'] at images
  refine ⟨replaced, values, size, fun tensor inside => ?_⟩
  obtain ⟨result, found, image⟩ := images tensor inside
  exact ⟨result, found, image.resumes resumes⟩

/-- On the way out of a differentiation layer the copies must be owned below; with the tag of the
layer the arguments are owned by the layer on top of those.
-/
theorem owning_exitInterceptor_differentiation (member : op ∈ Base.schemas)
    (top : machine.thread.layers = layer :: below)
    (grounded : Layer.Grounded (layer :: below)) (kind : layer.kind = .differentiation)
    : exitInterceptor.Owning op machine (layer :: below) := by
  intro calls h
  refine quiet_writing.currentLayer.step (currentLayer_apply top) ?_
  simp only [kind]
  refine Meets.bind (quiet_writing.copyUntagged op _ machine) ?_
  intro _ copied untagged resumes _
  obtain ⟨replaced, values, size, images⟩ := copyUntagged_ok untagged
  have layers : copied.thread.layers = layer :: below := resumes.layers.trans top
  have inner := needs_dispatchBelow h member layers grounded
  rw [Machine.lastValues_append values size] at inner
  refine (inner.imp fun owned tensor inside => ?_).bind
    fun _ returned _ _ => quiet_writing.tagResults _ _ returned
  obtain ⟨result, found, start, final, between, ended⟩ := images tensor inside
  have owned := owned result found
  rw [Tensor.liveWrappers_congr resumes.flags] at owned
  exact unwrapAt_owned kind ended owned

/-- The body of a differentiation layer only hides hooks of the layer, so the call inside asks for
the same owners.
-/
theorem owning_differentiationBody (member : op ∈ Base.schemas)
    (top : machine.thread.layers = layer :: below)
    (grounded : Layer.Grounded (layer :: below)) (kind : layer.kind = .differentiation)
    (inBody : machine.thread.overlay.InBody .differentiation)
    : differentiationBody.Owning op machine (layer :: below) := by
  intro calls h
  refine quiet_writing.currentLayer.step (currentLayer_apply top) ?_
  refine (quiet_read _).step rfl ?_
  refine Needs.bind (Meets.holding (moves_hide _ machine) fun held atHeld => ?_) ?_
  · have owners : held.ambient.Owners (layer :: below) := by
      rw [atHeld.ambient]
      exact .hide_differentiation top grounded kind inBody
    refine (h.dispatch member owners).imp ?_
    intro owned
    rwa [atHeld.heap, Machine.lastValues, atHeld.values] at owned
  · exact fun _ returned _ _ => quiet_writing.recordGradFns op layer.level _ returned

-----------------------------------------------------------------------------------------
-- Rules of batching layers
-----------------------------------------------------------------------------------------

/-- A call on values that have just been pushed is one on these values. -/
theorem Calls.Owning.needs_pushed {calls : Calls} (h : calls.Owning) (member : op ∈ Base.schemas)
    {owners : List Layer} (owning : machine.ambient.Owners owners) (values : List Value)
    (size : values.length = op.arity)
    : (calls.dispatch op).Needs { machine with values := machine.values ++ values }
        (Layer.Own owners machine.heap values) := by
  let pushed := { machine with values := machine.values ++ values }
  have owning : pushed.ambient.Owners owners := owning
  have needs := h.dispatch member owning
  rwa [Machine.lastValues_append rfl size] at needs

/-- A padded value is owned only if the value is: each padding call needs it. The induction is on
the rounds; what a round gives is owned if what it was given is, and so on back to the start.
-/
theorem needs_pad {calls : Calls} (h : calls.Owning) {owners : List Layer}
    (owning : machine.ambient.Owners owners) (rank budget : Nat) (physical : Tensor)
    : (Batching.pad calls rank budget physical).Meets machine
        (fun result _ _ =>
          Layer.Own owners machine.heap [.tensor result]
          → Layer.Own owners machine.heap [.tensor physical])
        (fun _ => True) := by
  induction budget generalizing machine physical with
  | zero =>
      unfold Batching.pad
      refine (quiet_read _).step rfl ?_
      split
      · exact meets_fault trivial trivial
      · exact meets_pure id
  | succ budget ih =>
      unfold Batching.pad
      refine (quiet_read _).step rfl ?_
      split
      · have called
            : (calls.callTensor "unsqueeze" [.tensor physical, .int 1]).Needs machine
                (Layer.Own owners machine.heap [.tensor physical]) := by
          refine Meets.callTensor (Meets.call (fun _ _ => trivial) fun op found count => ?_)
          rw [h.schema?] at found
          have owning
              : (Machine.ambient
                  { machine with values := [.tensor physical, .int 1] }).Owners owners :=
            owning
          refine (h.dispatch (schema?_standard found).1 owning).mono ?_ (fun _ _ => trivial)
          intro _ left _ owned
          rw [Machine.lastValues_append (List.nil_append _).symm count] at owned
          split
          · exact (Layer.own_cons.mp owned).1
          · trivial
        refine Meets.bind called ?_
        intro padded reached _ resumes owned
        exact (ih (owning.resumes resumes) padded).mono (fun _ _ _ _ _ => owned)
          (fun _ _ => trivial)
      · exact meets_pure id

/-- The arguments of a call are owned if what a rule makes of each of them is owned below the layer.
-/
theorem meets_mapM_own (layer : Layer) (below : List Layer) {visit : Value → Run Value}
    {arguments : List Value} {start : Machine} (resumes : machine.Resumes start)
    (h
      : ∀ argument start, machine.Resumes start →
          (visit argument).Meets start
            (fun result _ _ =>
              Layer.Own below machine.heap [result]
              → Layer.Own (layer :: below) machine.heap [argument])
            (fun _ => True))
    : (arguments.mapM visit).Meets start
        (fun results _ _ =>
          results.length = arguments.length
          ∧ (Layer.Own below machine.heap results
            → Layer.Own (layer :: below) machine.heap arguments))
        (fun _ => True) := by
  induction arguments generalizing start with
  | nil => exact meets_pure ⟨rfl, fun _ => Layer.own_nil⟩
  | cons argument arguments ih =>
      rw [List.mapM_cons]
      refine Meets.bind (h argument start resumes) ?_
      intro result middle _ later head
      refine Meets.bind (ih (resumes.trans later)) ?_
      intro results reached _ _ tail
      refine meets_pure ⟨by simp [tail.1], fun owned => ?_⟩
      obtain ⟨first, others⟩ := Layer.own_cons.mp owned
      exact Layer.own_cons.mpr ⟨head first, tail.2 others⟩

/-- A batched tensor is owned by a batching layer of its level and the owners of its physical value.
-/
theorem own_physical {heap : Heap} {argument : Value} {physical : Tensor}
    (kind : layer.kind = .batching)
    (found : Batching.physicalArgument? layer.level argument = some physical)
    (owned : Layer.Own below heap [.tensor physical])
    : Layer.Own (layer :: below) heap [argument] := by
  obtain ⟨tensor, isTensor, physicalAt⟩ := Option.bind_eq_some_iff.mp found
  obtain ⟨handle, rfl⟩ := Tensor.physicalAt?_eq_some physicalAt
  obtain rfl := Value.tensor?_eq_some isTensor
  rw [Layer.own_tensor] at owned ⊢
  rw [Tensor.liveWrappers, List.map_cons, Layer.wraps, kind]
  exact owned.cons_cons _

/-- The rule for element-wise operators hands on its arguments without their batch wrappers, padded
or not. Each argument is owned by the layer on top of the owners of what is handed on.
-/
theorem owning_pointwise (member : op ∈ Base.schemas)
    (top : machine.thread.layers = layer :: below)
    (grounded : Layer.Grounded (layer :: below)) (kind : layer.kind = .batching)
    (inBody : machine.thread.overlay.InBody .batching)
    : Batching.pointwise.Owning op machine (layer :: below) := by
  intro calls h
  refine quiet_writing.currentLayer.step (currentLayer_apply top) ?_
  refine Meets.bind (quiet_writing.pop _ machine) ?_
  intro arguments popped ended _ _
  obtain ⟨rfl, enough, rfl⟩ := pop_ok ended
  refine (quiet_read _).step rfl ?_
  refine .holding (moves_hide _ _) ?_
  intro held atHeld
  have owners : held.ambient.Owners below := by
    rw [atHeld.ambient]
    exact .hide_batched top grounded kind inBody
  refine Meets.bind (meets_mapM_own layer below (.refl held) fun argument start resumes => ?_)
    fun padded reached _ resumes owned => ?_
  · cases found : Batching.physicalArgument? layer.level argument with
    | none => exact meets_pure Layer.Own.above
    | some physical =>
        refine Meets.bind (needs_pad h (owners.resumes resumes) _ _ physical)
          fun padded reached _ _ owned => meets_pure ?_
        intro own
        exact own_physical kind found
          ((owned (own.congr resumes.flags)).congr resumes.flags.symm)
  · refine (quiet_writing.pushAll _).step rfl ?_
    have size : padded.length = op.arity := by rw [owned.1, Machine.lastValues_length enough]
    refine ((h.needs_pushed member (owners.resumes resumes) _ size).imp fun own => ?_).bind
      fun _ returned _ _ => ?_
    · rw [← atHeld.heap]
      exact owned.2 (own.congr resumes.flags.symm)
    · split
      · exact quiet_writing.wrapResults _ _ returned
      · exact quiet_pure _ returned

/-- The rule for a new dimension hands on the value below the batch. Without a batch it refuses the
call.
-/
theorem owning_unsqueeze (member : op ∈ Base.schemas) (arity : op.arity = 2)
    (top : machine.thread.layers = layer :: below)
    (grounded : Layer.Grounded (layer :: below)) (kind : layer.kind = .batching)
    (inBody : machine.thread.overlay.InBody .batching)
    : Batching.unsqueeze.Owning op machine (layer :: below) := by
  intro calls h
  refine quiet_writing.currentLayer.step (currentLayer_apply top) ?_
  refine Meets.bind (quiet_writing.pop _ machine) ?_
  intro arguments popped ended _ _
  obtain ⟨rfl, enough, rfl⟩ := pop_ok ended
  refine Meets.bind (quiet_lift (Value.plain_tensorAt _ _ _).orderly _) ?_
  intro input same found _ _
  obtain ⟨inputAt, rfl⟩ := lift_ok found
  refine Meets.bind (quiet_lift (Value.plain_intAt _ _ _).orderly _) ?_
  intro dim same found _ _
  obtain ⟨dimAt, rfl⟩ := lift_ok found
  have inputAt := Value.tensorAt_ok inputAt
  have dimAt := Value.intAt_ok dimAt
  rw [arity]
  rw [Value.eq_pair (Machine.lastValues_length enough) inputAt dimAt]
  refine .holding (moves_hide _ _) ?_
  intro held atHeld
  have owners : held.ambient.Owners below := by
    rw [atHeld.ambient]
    exact .hide_batched top grounded kind inBody
  cases found : input.physicalAt? layer.level with
  | some physical =>
      refine (quiet_read _).step rfl ?_
      dsimp only
      split
      · refine (quiet_writing.pushAll _).step rfl ?_
        refine ((h.needs_pushed member owners [_, _] arity.symm).imp fun own => ?_).bind
          fun _ returned _ _ => quiet_writing.wrapResults _ _ returned
        rw [atHeld.heap] at own
        refine Layer.own_cons.mpr ⟨?_, Layer.own_nil⟩
        exact own_physical kind found (Layer.own_cons.mp own).1
      · exact meets_fail trivial
  | none =>
      refine (quiet_writing.pushAll _).step rfl ?_
      refine (h.needs_pushed member owners [_, _] arity.symm).imp ?_
      intro own
      exact (own.congr (congrArg Heap.flags atHeld.heap).symm).above

/-- The rule for sums in place hands on the value below the batch of the target, and of the addend
what padding leaves of it. Its own refusals need nothing.
-/
theorem owning_addInPlace (member : op ∈ Base.schemas) (arity : op.arity = 2)
    (top : machine.thread.layers = layer :: below)
    (grounded : Layer.Grounded (layer :: below)) (kind : layer.kind = .batching)
    (inBody : machine.thread.overlay.InBody .batching)
    : Batching.addInPlace.Owning op machine (layer :: below) := by
  intro calls h
  refine quiet_writing.currentLayer.step (currentLayer_apply top) ?_
  refine Meets.bind (quiet_writing.pop _ machine) ?_
  intro arguments popped ended _ _
  obtain ⟨rfl, enough, rfl⟩ := pop_ok ended
  refine Meets.bind (quiet_lift (Value.plain_tensorAt _ _ _).orderly _) ?_
  intro target same found _ _
  obtain ⟨targetAt, rfl⟩ := lift_ok found
  refine Meets.bind (quiet_lift (Value.plain_tensorAt _ _ _).orderly _) ?_
  intro other same found _ _
  obtain ⟨otherAt, rfl⟩ := lift_ok found
  have targetAt := Value.tensorAt_ok targetAt
  have otherAt := Value.tensorAt_ok otherAt
  rw [arity]
  rw [Value.eq_pair (Machine.lastValues_length enough) targetAt otherAt]
  refine .holding (moves_hide _ _) ?_
  intro held atHeld
  have owners : held.ambient.Owners below := by
    rw [atHeld.ambient]
    exact .hide_batched top grounded kind inBody
  cases targetPhysical : target.physicalAt? layer.level with
  | none =>
      cases otherPhysical : other.physicalAt? layer.level with
      | none =>
          refine (quiet_writing.pushAll _).step rfl ?_
          refine (h.needs_pushed member owners [_, _] arity.symm).imp ?_
          intro own
          exact (own.congr (congrArg Heap.flags atHeld.heap).symm).above
      | some batch => exact meets_fail trivial
  | some physical =>
      refine (quiet_read _).step rfl ?_
      have finish {addend : Tensor} {start : Machine} (resumes : held.Resumes start)
          (owned
            : Layer.Own below held.heap [.tensor addend]
              → Layer.Own (layer :: below) held.heap [.tensor other])
          : Run.Needs (do
                pushAll [.tensor physical, .tensor addend]
                calls.dispatch op
                Batching.replaceLast (.tensor target)) start
              (Layer.Own (layer :: below) machine.heap [.tensor target, .tensor other]) := by
        refine (quiet_writing.pushAll _).step rfl ?_
        refine ((h.needs_pushed member (owners.resumes resumes) [_, _] arity.symm).imp fun own => ?_).bind
          fun _ returned _ _ => quiet_writing.replaceLast _ returned
        rw [← atHeld.heap]
        obtain ⟨first, second⟩ := Layer.own_cons.mp (own.congr resumes.flags.symm)
        exact Layer.own_cons.mpr ⟨own_physical kind targetPhysical first, owned second⟩
      cases otherPhysical : other.physicalAt? layer.level with
      | none => exact (quiet_pure other).step rfl (finish (.refl held) Layer.Own.above)
      | some batch =>
          refine Meets.bind (needs_pad h owners _ _ batch)
            fun padded reached _ resumes owned => finish resumes ?_
          intro own
          exact own_physical kind otherPhysical (owned own)

/-- A rule for random operators either hands the arguments on or makes use of sizes only, around
which there are no wrappers.
-/
theorem owning_random (member : op ∈ Base.schemas) (arity : op.arity = 1)
    (top : machine.thread.layers = layer :: below) {owners : List Layer}
    (owning : (machine.ambient.hide (.only .batchMode)).Owners owners)
    : Batching.random.Owning op machine owners := by
  intro calls h
  refine quiet_writing.currentLayer.step (currentLayer_apply top) ?_
  refine .holding (moves_hide _ _) ?_
  intro held atHeld
  rw [← atHeld.ambient] at owning
  split
  · exact meets_fault trivial trivial
  · exact meets_fail trivial
  · refine (h.dispatch member owning).imp ?_
    intro own
    rwa [atHeld.heap, Machine.lastValues, atHeld.values] at own
  · refine Meets.bind (quiet_writing.pop _ held) ?_
    intro arguments popped ended _ _
    obtain ⟨rfl, enough, rfl⟩ := pop_ok ended
    refine Meets.bind (quiet_lift (Value.plain_sizesAt _ _ _).orderly _) ?_
    intro sizes same found _ _
    obtain ⟨sizesAt, rfl⟩ := lift_ok found
    obtain ⟨listed, first⟩ := Value.sizesAt_ok sizesAt
    have only := Value.eq_single (Machine.lastValues_length enough) first
    have own : Layer.Own owners machine.heap (machine.lastValues op.arity) := by
      rw [Machine.lastValues, ← atHeld.values, arity]
      rw [Machine.lastValues] at only
      rw [only]
      exact List.forall_mem_nil _
    have owning : (Machine.ambient { held with values := held.firstValues 1 }).Owners owners :=
      owning
    refine Needs.bind ((quiet_writing.push _).needs _ own) ?_
    intro _ pushed _ resumes
    refine Meets.bind (h.dispatch member (owning.resumes resumes)).quiet ?_
    intro _ returned _ _ _
    exact quiet_writing.wrapResults _ _ returned

/-- Outside all layers a call succeeds only on arguments without live wrappers, because a live tag
faults and a batch is refused further on.
-/
theorem owning_deadWrapperFallback (member : op ∈ Base.schemas) {owners : List Layer}
    (owning : machine.ambient.Owners owners)
    : deadWrapperFallback.Owning op machine owners := by
  intro calls h
  refine Meets.bind (quiet_writing.mapLast (quiet_writing.unwrapOutside op.name) _ machine) ?_
  intro _ bared mapped resumes _
  obtain ⟨replaced, values, size, images⟩ := mapLast_ok (quiet_writing.unwrapOutside op.name) mapped
  refine (h.dispatch member (owning.resumes resumes)).imp ?_
  intro owned tensor inside
  obtain ⟨result, found, start, final, between, ended⟩ := images tensor inside
  obtain ⟨bare, same, unwrapped, ended⟩ := bind_ok ended
  cases unwrapped
  rw [Machine.lastValues_append values size] at owned
  have owned := owned result found
  rw [Tensor.liveWrappers_congr resumes.flags] at owned
  cases tagged : (tensor.unwrapDead start.heap).taggedLevel? with
  | some level => simp [tagged, fault_apply] at ended
  | none =>
      simp only [tagged] at ended
      cases ended
      rwa [← Tensor.liveWrappers_congr between.flags, Tensor.liveWrappers_unwrapDead,
        Tensor.liveWrappers_congr between.flags] at owned

/-- Where there is no rule no value is given. -/
theorem owning_missingRule {owners : List Layer} : Batching.missingRule.Owning op machine owners :=
  fun _ _ => (quiet_log _).step rfl (meets_fail trivial)

/-- Whichever rule a batching layer has for an operator, it gives a value only on owned arguments.
-/
theorem owning_batchRule (member : op ∈ Base.schemas)
    (top : machine.thread.layers = layer :: below)
    (grounded : Layer.Grounded (layer :: below)) (kind : layer.kind = .batching)
    (inBody : machine.thread.overlay.InBody .batching)
    : (batchRule op.name).Owning op machine (layer :: below) := by
  intro calls h
  have listed := member
  simp only [Base.schemas, List.mem_cons, List.not_mem_nil, or_false] at listed
  rcases listed with rfl | rfl | rfl | rfl | rfl | rfl | rfl | rfl | rfl | rfl
  · exact owning_pointwise member top grounded kind inBody calls h
  · exact owning_pointwise member top grounded kind inBody calls h
  · exact owning_pointwise member top grounded kind inBody calls h
  · exact owning_missingRule calls h
  · exact owning_missingRule calls h
  · exact owning_unsqueeze member rfl top grounded kind inBody calls h
  · exact owning_missingRule calls h
  · exact owning_missingRule calls h
  · exact owning_addInPlace member rfl top grounded kind inBody calls h
  · exact owning_missingRule calls h

/-- Without an active layer the rules of batching layers never give a value, since all of them ask
for the top layer first.
-/
theorem owning_batchRule_inactive (name : String) (inactive : machine.thread.layers = [])
    {owners : List Layer}
    : (batchRule name).Owning op machine owners := by
  intro calls _
  unfold batchRule
  split
  · exact needs_of_inactive inactive
  · exact needs_of_inactive inactive
  · exact needs_of_inactive inactive
  · exact needs_of_inactive inactive
  · exact needs_of_inactive inactive
  · exact (quiet_log _).step rfl (meets_fail trivial)

end

-----------------------------------------------------------------------------------------
-- The choice of the kernel
-----------------------------------------------------------------------------------------

section

variable {op : Schema} {machine : Machine} {capability : Capability} {kernel : Kernel}

/-- The random operator has one argument. -/
theorem arity_rand (member : op ∈ Base.schemas) (random : op.name = "rand") : op.arity = 1 := by
  simp only [Base.schemas, List.mem_cons, List.not_mem_nil, or_false] at member
  rcases member with rfl | rfl | rfl | rfl | rfl | rfl | rfl | rfl | rfl | rfl <;>
    first | rfl | exact absurd random (by decide)

/-- Below all layers only calls of dense values succeed, and those on dead tags around them. The
overlay is empty there, so the dispatch set tells what the arguments carry.
-/
theorem owning_select_base (member : op ∈ Base.schemas) (inactive : machine.thread.layers = [])
    (empty : machine.thread.overlay = {})
    (selected
      : standard.select op
          (machine.thread.overlay.apply
            (Value.carried machine.heap (machine.lastValues op.arity)))
        = some (capability, kernel))
    : kernel.Owning op machine [] := by
  intro calls h
  by_cases backend : capability = .backend
  · subst backend
    obtain ⟨found, -, batched, -, tagged, -⟩ := select_backend selected
    refine (quiet_baseKernel found calls op).needs machine (Layer.own_of_dense ?_)
    simp only [empty, Overlay.contains_apply, CapabilitySet.contains_empty, Bool.or_false,
      Bool.not_false, Bool.and_true, reduceCtorEq, decide_false] at batched tagged
    exact Value.dense_of_carried tagged batched
  rw [select_standard] at selected
  split at selected
  · cases selected
    refine (quiet_read _).step rfl ?_
    simp only [inactive, List.head?_nil]
    exact meets_fault trivial trivial
  split at selected
  · cases selected
    exact needs_of_inactive inactive
  split at selected
  · cases selected
    exact owning_batchRule_inactive op.name inactive calls h
  split at selected
  · cases selected
    exact needs_of_inactive inactive
  split at selected
  · cases selected
    exact owning_deadWrapperFallback member (.base inactive empty) calls h
  split at selected
  · cases selected
    exact needs_of_inactive inactive
  split at selected
  · obtain ⟨base, -, chosen⟩ := Option.map_eq_some_iff.mp selected
    cases chosen
    exact absurd rfl backend
  · cases selected

/-- Wherever a call is, the kernel that handles it succeeds only on owned arguments. The places are
those of `Ambient.Owners`, and in each of them the chain of `select_standard` leaves few kernels.
-/
theorem owning_select (member : op ∈ Base.schemas) {owners : List Layer}
    (owning : machine.ambient.Owners owners)
    (selected
      : standard.select op
          (machine.thread.overlay.apply
            (Value.carried machine.heap (machine.lastValues op.arity)))
        = some (capability, kernel))
    : kernel.Owning op machine owners := by
  generalize ambient : machine.ambient = present at owning
  cases owning with
  | base layers overlay =>
      subst ambient
      exact owning_select_base member layers overlay selected
  | front active grounded front =>
      subst ambient
      have front : machine.thread.overlay.forces .entryInterceptor := front
      rw [select_front _ front] at selected
      cases selected
      cases layers : machine.ambient.layers with
      | nil => exact absurd layers active
      | cons layer below =>
          rw [layers] at grounded
          exact owning_entryInterceptor member layers grounded
  | body top grounded inBody shown =>
      rename_i layer below
      subst ambient
      have inBody : machine.thread.overlay.InBody layer.kind := inBody
      cases kind : layer.kind with
      | differentiation =>
          rw [kind] at inBody
          rw [select_differentiation _ inBody] at selected
          split at selected
          · cases selected
            exact owning_differentiationBody member top grounded kind inBody
          · cases selected
            exact owning_exitInterceptor_differentiation member top grounded kind
      | batching =>
          rw [kind] at inBody
          rw [select_batching _ inBody] at selected
          split at selected
          · rename_i random
            cases selected
            refine owning_random member (arity_rand member random.2) top
              (.body top grounded ?_ fun _ => ?_)
            · rw [kind]
              exact inBody.hide rfl
            · exact (CapabilitySet.contains_union _ _ _).trans
                (Bool.or_eq_false_iff.mpr ⟨shown kind, rfl⟩)
          split at selected
          · cases selected
            exact owning_batchRule member top grounded kind inBody
          · cases selected
            intro calls h
            exact (owning_exitInterceptor_batching member top grounded kind calls h).imp
              Layer.Own.above
  | leaving top grounded kind inBody hidden =>
      rename_i layer
      subst ambient
      have inBody : machine.thread.overlay.InBody .batching := inBody
      have hidden : machine.thread.overlay.excluded.contains .batched = true := hidden
      rw [select_batching _ inBody, hidden, Bool.not_true, Bool.and_false] at selected
      split at selected
      · rename_i random
        cases selected
        refine owning_random member (arity_rand member random.2) top ?_
        refine .leaving top grounded kind (inBody.hide rfl) ?_
        exact (CapabilitySet.contains_union _ _ _).trans (Bool.or_eq_true_iff.mpr (Or.inl hidden))
      · cases selected
        exact owning_exitInterceptor_batching member top grounded kind

end

/-- Calls nested to any depth succeed only on owned arguments. The induction is on the room to nest,
and its step is `owning_select`.
-/
theorem owning_dispatchWithin (budget : Nat)
    : Calls.Owning ⟨standard.dispatchWithin budget, standard.schema?⟩ := by
  induction budget with
  | zero => exact ⟨fun _ _ => meets_fault trivial trivial, rfl⟩
  | succ budget ih =>
      refine ⟨fun {op machine owners} member owning => ?_, rfl⟩
      refine Meets.bind (quiet_dispatchSet op machine) ?_
      intro set reached found _ _
      obtain ⟨rfl, -, rfl⟩ := dispatchSet_ok found
      split
      · rename_i capability kernel selected
        let span := reached.inSpan op.name capability
        have owning : span.ambient.Owners owners := owning
        exact Meets.traced (owning_select member owning selected _ ih)
      · exact meets_fail trivial

/-- From the top of a stack to the bottom the levels fall strictly. -/
theorem Layer.Levelled.falling {layers : List Layer} (h : Levelled layers)
    : layers.Pairwise fun upper lower => lower.level < upper.level := by
  induction layers with
  | nil => exact List.Pairwise.nil
  | cons top below ih =>
      refine List.pairwise_cons.mpr ⟨fun lower member => ?_, ih h.2⟩
      rw [h.1]
      exact Nat.lt_succ_of_le (h.2.level_le member)

/-- A call that gives values under a built stack was given owned arguments: the levels of the live
wrappers around every tensor, members of lists included, fall strictly from the outside in, and each
wrapper is one of an active layer of that level and kind. No wrapper is overlooked, whether or not
arguments are checked before they reach the base.
-/
theorem Dispatcher.call_owned {machine reached : Machine} {name : String}
    {arguments results : List Value} (built : machine.Built)
    (ended : standard.call name arguments machine = .ok results reached)
    : ∀ tensor ∈ Value.tensorsAll arguments,
        (tensor.liveWrappers machine.heap).Pairwise (fun outer inner => inner.2 < outer.2)
        ∧ ∀ wrapper ∈ tensor.liveWrappers machine.heap,
            ∃ layer ∈ machine.thread.layers, layer.wraps = wrapper := by
  have founded := built.founded
  have owning := owning_dispatchWithin (standard.budget machine.thread.layers.length)
  have needs
      : (standard.call name arguments).Needs machine
          (Layer.Own machine.thread.layers machine.heap arguments) := by
    refine (quiet_read _).step rfl (Meets.call (fun _ _ => trivial) fun op found count => ?_)
    have owners
        : (Machine.ambient { machine with values := arguments }).Owners machine.thread.layers :=
      founded.owners
    refine (owning.dispatch (schema?_standard found).1 owners).imp fun owned => ?_
    rwa [Machine.lastValues_append (List.nil_append _).symm count] at owned
  have owned : Layer.Own machine.thread.layers machine.heap arguments := (needs.of_ok ended).2
  intro tensor member
  have sublist := owned tensor member
  refine ⟨?_, fun wrapper inside => List.mem_map.mp (sublist.subset inside)⟩
  exact (List.pairwise_map.mpr founded.levelled.falling).sublist sublist

/-- Witness: a batch of tagged values under two layers. -/
theorem Dispatcher.call_owned_two_layers
    : ∃ (machine reached : Machine) (results : List Value),
        machine.Built
        ∧ standard.call "neg" [.tensor (.batched 0 2 (.tagged 0 1 0 (.dense 0)))] machine
          = .ok results reached
        ∧ (.differentiation, 1)
          ∈ Tensor.liveWrappers machine.heap (.batched 0 2 (.tagged 0 1 0 (.dense 0)))
        ∧ ∃ layer ∈ machine.thread.layers, layer.wraps = (.differentiation, 1) := by
  let fresh : Machine :=
    { heap := { storages := #[⟨⟨[2]⟩, #[1, 2]⟩], wrappers := #[{ shape := ⟨[2]⟩ }] } }
  have opened := Machine.Built.opened
    (.opened (@Machine.Built.fresh fresh rfl rfl)
      (rfl : openLayer (.differentiation (some false) none) fresh = .ok 1 _))
    (rfl : openLayer (.batching 2 .error) _ = .ok 2 _)
  obtain ⟨machine, built, succeeds, live⟩
      : ∃ machine : Machine,
          machine.Built
          ∧ (standard.call "neg"
              [.tensor (.batched 0 2 (.tagged 0 1 0 (.dense 0)))]).succeeds machine = true
          ∧ (.differentiation, 1)
            ∈ Tensor.liveWrappers machine.heap (.batched 0 2 (.tagged 0 1 0 (.dense 0))) :=
    ⟨_, opened, by decide +kernel, by decide⟩
  obtain ⟨results, reached, ended⟩ := succeeds_iff.mp succeeds
  refine ⟨machine, reached, results, built, ended, live, ?_⟩
  exact (call_owned built ended _ (List.mem_singleton_self _)).2 _ live

end LayeredDispatch
