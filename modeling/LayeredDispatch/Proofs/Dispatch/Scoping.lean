import LayeredDispatch.Proofs.Dispatch.Images

/-! Each scope of a call hands back what it changed: hidden hooks, a replaced overlay, a gradient
mode, a layer taken off, a trace node, and values of its own. Popping the bottom layer is the one
scope that does not hand back the overlay as it was: pushing the layer back includes the
interceptors, whether they were included or not.
-/

namespace LayeredDispatch

/-- Taking away again what a union has added leads back to the set from before, bit by bit. -/
theorem CapabilitySet.union_sdiff_added (current added : CapabilitySet)
    : (current ∪ added) \ (added \ current) = current := by
  simp only [Union.union, SDiff.sdiff]
  congr 1
  ext i
  simp
  grind

namespace Run

/-- A guard that hides hooks changes the overlay while it is held, and its release takes the added
hooks away again. If the interceptors have been included in between, they stay included.
-/
theorem moves_hide (set : CapabilitySet) (machine : Machine)
    : Moves (Guard.hide set) machine (machine.ambient.hide set) := by
  refine ⟨_, _, rfl, ⟨rfl, rfl, rfl, rfl, rfl, rfl⟩, fun reached resumes => ?_⟩
  refine ⟨_, rfl, { resumes with overlay := ?_ }, rfl, rfl, rfl⟩
  rcases resumes.overlay with same | ⟨active, included⟩
  · left
    simp only [same, CapabilitySet.union_sdiff_added]
  · right
    refine ⟨active, ?_⟩
    simp only [included, Overlay.setInterception, Overlay.setIncluded,
      CapabilitySet.union_sdiff_added]

/-- A guard that replaces the overlay puts the old one back, whatever has happened to the new one.
-/
theorem moves_replaceOverlay (overlay : Overlay) (machine : Machine)
    : Moves (Guard.replaceOverlay overlay) machine { machine.ambient with overlay } := by
  refine ⟨_, _, rfl, ⟨rfl, rfl, rfl, rfl, rfl, rfl⟩, fun reached resumes => ?_⟩
  exact ⟨_, rfl, { resumes with overlay := Or.inl rfl }, rfl, rfl, rfl⟩

/-- A guard for the gradient mode puts the old mode back. -/
theorem moves_gradMode (enabled : Bool) (machine : Machine)
    : Moves (Guard.gradMode enabled) machine { machine.ambient with grad := enabled } := by
  refine ⟨_, _, rfl, ⟨rfl, rfl, rfl, rfl, rfl, rfl⟩, fun reached resumes => ?_⟩
  exact ⟨_, rfl, { resumes with grad := rfl }, rfl, rfl, rfl⟩

/-- So does the one for the forward mode. -/
theorem moves_forwardGradMode (enabled : Bool) (machine : Machine)
    : Moves (Guard.forwardGradMode enabled) machine
        { machine.ambient with forwardGrad := enabled } := by
  refine ⟨_, _, rfl, ⟨rfl, rfl, rfl, rfl, rfl, rfl⟩, fun reached resumes => ?_⟩
  exact ⟨_, rfl, { resumes with forwardGrad := rfl }, rfl, rfl, rfl⟩

/-- A body on values of its own, written as a body with a cleanup. -/
theorem onValues_apply (values : List Value) (body : Run α) (machine : Machine)
    : onValues values body machine
      = Run.ensuring (do return (← body, ← read Machine.values))
          (modify fun reached => { reached with values := machine.values })
          { machine with values } :=
  rfl

/-- The cleanup puts the values of the caller back, and touches nothing else. -/
theorem mends_onValues (values : List Value) (machine : Machine)
    : Mends machine { machine with values } (fun _ => machine.values)
        (modify fun reached => { reached with values := machine.values }) :=
  fun _ resumes => ⟨_, rfl, { resumes with }, rfl, rfl, rfl⟩

/-- Values of a call's own are of no account to the state around it. The condition of the body sees
the values that it leaves, the condition of the whole those of the caller.
-/
theorem Meets.onValues {machine : Machine} {failed : Exit → Prop} {values : List Value}
    {body : Run α} {ok : α × List Value → List Value → Heap → Prop}
    (inner
      : body.Meets { machine with values }
          (fun value left heap => ok (value, left) machine.values heap) failed)
    : (Run.onValues values body).Meets machine ok failed := by
  refine Meets.ensuring (mends_onValues values machine) (onValues_apply values body machine) ?_
  refine inner.bind ?_
  intro value reached _ _ left
  exact (quiet_read _).step rfl (meets_pure left)

/-- What a trace node around a body does, from a state in which the node is open. Only a recorder
makes a cleanup necessary.
-/
theorem traced_apply (op : String) (capability : Capability) (body : Run α) (machine : Machine)
    : traced op capability body machine =
        if machine.thread.recorder.isSome then
          Run.ensuring body closeSpan (machine.inSpan op capability)
        else body (machine.inSpan op capability) := by
  obtain ⟨settings, ⟨overlay, layers, grad, forwardGrad, recorder, generator, log⟩, registry,
    heap, values⟩ := machine
  cases recorder <;> rfl

/-- While nothing is recorded no node is opened. -/
theorem inSpan_of_unrecorded {machine : Machine} (recording : machine.thread.recorder = none)
    (op : String) (capability : Capability)
    : machine.inSpan op capability = machine := by
  obtain ⟨_, ⟨_, _, _, _, recorder, _, _⟩, _, _, _⟩ := machine
  cases recording
  rfl

/-- Closing the node hands the trace back: the node that was opened is the innermost one again after
a body that has closed its own.
-/
theorem mends_closeSpan {machine : Machine} {recorder : Recorder}
    (recording : machine.thread.recorder = some recorder) (op : String) (capability : Capability)
    : Mends machine (machine.inSpan op capability) id closeSpan := by
  intro reached resumes
  have spans := resumes.spans
  simp only [Machine.inSpan, recording, Option.map_some] at spans
  obtain ⟨after, opened, same⟩ := Option.map_eq_some_iff.mp spans
  refine ⟨_, rfl, { resumes with spans := ?_ }, rfl, rfl, rfl⟩
  simp only [opened, recording, Option.map_some, Recorder.spans_leave same]

/-- A trace node that is opened around a body is closed again, so the body may be looked at as if it
were run without one.
-/
theorem Meets.traced {machine : Machine} {failed : Exit → Prop} {op : String}
    {capability : Capability} {body : Run α} {ok : α → List Value → Heap → Prop}
    (inner : body.Meets (machine.inSpan op capability) ok failed)
    : (Run.traced op capability body).Meets machine ok failed := by
  cases recording : machine.thread.recorder with
  | none =>
      have unopened := inSpan_of_unrecorded recording op capability
      have unfolded : Run.traced op capability body machine = body machine := by
        simp [traced_apply, recording, unopened]
      rw [unopened] at inner
      unfold Meets Ends at inner ⊢
      rwa [unfolded]
  | some recorder =>
      exact Meets.ensuring (mends_closeSpan recording op capability)
        (by simp [traced_apply, recording]) inner

-----------------------------------------------------------------------------------------
-- Layers taken off
-----------------------------------------------------------------------------------------

/-- A dispatch event is logged or left out, and nothing else happens. -/
theorem logDispatch_apply (event : Event) (machine : Machine)
    : ∃ log,
        logDispatch event machine
        = .ok () { machine with thread := { machine.thread with log } } := by
  cases shown : machine.settings.showDispatchTrace with
  | true =>
      refine ⟨machine.thread.log ++ [event], ?_⟩
      simp [logDispatch, Run.log, bind_apply, read_apply, onThread_apply, shown]
  | false =>
      refine ⟨machine.thread.log, ?_⟩
      simp [logDispatch, bind_apply, read_apply, pure_apply, shown]

/-- Popping takes the top layer off; with the last layer the interceptors go. -/
theorem popLayer_apply {machine : Machine} {layer : Layer} {below : List Layer}
    (top : machine.thread.layers = layer :: below)
    : ∃ log,
        popLayer machine
        = .ok layer
            { machine with thread := { machine.thread with
              layers := below
              overlay :=
                if below.isEmpty then machine.thread.overlay.setInterception false
                else machine.thread.overlay
              log } } := by
  simp only [popLayer, bind_apply, read_apply, top, setLayers, onThread_apply]
  cases below with
  | nil =>
      obtain ⟨log, noted⟩ := logDispatch_apply .layersOff
        { machine with thread := { machine.thread with layers := [] } }
      refine ⟨log, ?_⟩
      simp [bind_apply, map_apply, onOverlay, onThread_apply, noted]
  | cons next rest =>
      refine ⟨machine.thread.log, ?_⟩
      simp [pure_apply]

/-- Pushing the next layer puts it on top; with the first layer the interceptors come. -/
theorem pushLayer_apply {machine : Machine} {layer : Layer}
    (level : layer.level = machine.thread.layers.length + 1)
    : ∃ log,
        pushLayer layer machine
        = .ok (machine.thread.layers.length + 1)
            { machine with thread := { machine.thread with
              layers := layer :: machine.thread.layers
              overlay :=
                if machine.thread.layers.isEmpty then
                  machine.thread.overlay.setInterception true
                else machine.thread.overlay
              log } } := by
  simp only [pushLayer, bind_apply, read_apply, level, if_true, setLayers, onThread_apply]
  cases active : machine.thread.layers with
  | nil =>
      obtain ⟨log, noted⟩ := logDispatch_apply .layersOn
        { machine with thread := { machine.thread with layers := [layer] } }
      refine ⟨log, ?_⟩
      simp [bind_apply, map_apply, onOverlay, onThread_apply, noted]
  | cons next rest =>
      refine ⟨machine.thread.log, ?_⟩
      simp [pure_apply]

/-- The guard of the top layer takes it off and keeps it. -/
theorem hideTop_apply {machine : Machine} {layer : Layer} {below : List Layer}
    (top : machine.thread.layers = layer :: below)
    : ∃ log,
        Guard.hideTop machine
        = .ok (.withoutTop layer)
            { machine with thread := { machine.thread with
              layers := below
              overlay :=
                if below.isEmpty then machine.thread.overlay.setInterception false
                else machine.thread.overlay
              log } } := by
  obtain ⟨log, popped⟩ := popLayer_apply top
  exact ⟨log, by simp only [Guard.hideTop, bind_apply, popped, pure_apply]⟩

/-- A body that runs without the top layer hands the state back: only the inclusion of the
interceptors is not what it was if the layer was the last one. The level of the layer is that of its
position, so it can be pushed back on the layers below it.
-/
theorem moves_hideTop {machine : Machine} {layer : Layer} {below : List Layer}
    (top : machine.thread.layers = layer :: below) (level : layer.level = below.length + 1)
    : Moves Guard.hideTop machine
        { machine.ambient with
          layers := below
          overlay :=
            if below.isEmpty then machine.thread.overlay.setInterception false
            else machine.thread.overlay } := by
  obtain ⟨log, popped⟩ := hideTop_apply top
  refine ⟨_, _, popped, ⟨rfl, rfl, rfl, rfl, rfl, rfl⟩, fun reached resumes => ?_⟩
  have layers : reached.thread.layers = below := resumes.layers
  obtain ⟨log, pushed⟩ := @pushLayer_apply reached layer (by rw [layers, level])
  have released
      : (Guard.withoutTop layer).release reached
        = .ok ()
            { reached with thread := { reached.thread with
              layers := layer :: reached.thread.layers
              overlay :=
                if reached.thread.layers.isEmpty then
                  reached.thread.overlay.setInterception true
                else reached.thread.overlay
              log } } := by
    simp only [Guard.release, discard_apply, pushed]
  refine ⟨_, released, ?_, rfl, rfl, rfl⟩
  simp only [layers]
  refine { resumes with layers := by simp only [top], overlay := ?_ }
  have overlay := resumes.overlay
  cases below with
  | nil =>
      right
      rcases overlay with same | ⟨active, _⟩
      · simp [top, same, Overlay.setInterception_false_true]
      · exact absurd rfl active
  | cons next rest =>
      rcases overlay with same | ⟨_, included⟩
      · left
        simpa using same
      · right
        simpa [top] using included

/-- A loop whose rounds leave the state alone leaves it alone. -/
theorem forM_unchanged {visit : α → Run PUnit}
    (h : ∀ item machine reached, visit item machine = .ok ⟨⟩ reached → reached = machine)
    {items : List α} {machine reached : Machine}
    (ended : items.forM visit machine = .ok ⟨⟩ reached)
    : reached = machine := by
  induction items generalizing machine with
  | nil =>
      cases ended
      rfl
  | cons item items ih =>
      obtain ⟨_, middle, visited, rest⟩ := bind_ok ended
      rw [ih rest, h item machine middle visited]

/-- The check of a range, if it passes, has changed nothing. -/
theorem requireUnwrapped_ok {op : String} {start stop : Nat} {machine reached : Machine}
    (ended : requireUnwrapped op start stop machine = .ok () reached)
    : reached = machine := by
  obtain ⟨values, same, found, ended⟩ := bind_ok ended
  cases found
  split at ended
  · refine forM_unchanged (fun tensor machine reached visited => ?_) ended
    obtain ⟨bare, same, found, visited⟩ := bind_ok visited
    cases found
    split at visited
    · obtain ⟨shown, same, found, faulted⟩ := bind_ok visited
      cases faulted
    · cases visited
      rfl
  · cases ended

/-- Logging shifts nothing of the ambient state. -/
theorem logDispatch_ok {event : Event} {machine reached : Machine}
    (ended : logDispatch event machine = .ok () reached)
    : machine.Shifted machine.ambient reached := by
  obtain ⟨log, noted⟩ := logDispatch_apply event machine
  rw [noted] at ended
  cases ended
  exact ⟨rfl, rfl, rfl, rfl, rfl, rfl⟩

/-- Below the last layer a call goes on under the overlay that the layer saved, above it under the
present one with the entry interceptor reachable again.
-/
theorem overlayBelow_ok {op : Schema} {layer : Layer} {machine reached : Machine}
    {overlay : Overlay} (ended : overlayBelow op layer machine = .ok overlay reached)
    : machine.Shifted machine.ambient reached
      ∧ overlay =
          if machine.thread.layers.isEmpty then layer.saved
          else machine.thread.overlay.front := by
  have leaving {start : Machine}
      (ran : (do logDispatch (.leaving op.name); return layer.saved) start = .ok overlay reached)
      : start.Shifted start.ambient reached ∧ overlay = layer.saved := by
    obtain ⟨_, noted, logged, same⟩ := bind_ok ran
    cases same
    exact ⟨logDispatch_ok logged, rfl⟩
  obtain ⟨count, same, found, ended⟩ := bind_ok ended
  cases found
  cases layers : machine.thread.layers with
  | nil =>
      simp only [layers, List.length_nil, if_true] at ended
      obtain ⟨checked, same, found, ended⟩ := bind_ok ended
      cases found
      split at ended
      · obtain ⟨start, counted, ran, rest⟩ := bind_ok ended
        obtain ⟨rfl, -⟩ := lastStart_ok ran
        obtain ⟨_, required, passed, left⟩ := bind_ok rest
        rw [requireUnwrapped_ok passed] at left
        exact leaving left
      · exact leaving ended
  | cons next rest =>
      simp only [layers, List.length_cons, Nat.add_one_ne_zero, if_false] at ended
      obtain ⟨current, same, found, ended⟩ := bind_ok ended
      cases found
      cases ended
      exact ⟨.refl machine, rfl⟩

/-- The states from which a call is issued below a layer, after all the guards on the way. Each
guard is one shift, and the last overlay is the one that `overlayBelow` has chosen.
-/
theorem shifted_leave {op : Schema} {layer : Layer} {below : List Layer}
    {machine popped gradSet start checked held : Machine} {overlay : Overlay}
    (atPopped
      : machine.Shifted
          { machine.ambient with
            layers := below
            overlay :=
              if below.isEmpty then machine.thread.overlay.setInterception false
              else machine.thread.overlay } popped)
    (atGradSet
      : popped.Shifted
          (if decide (layer.transform.priorGrad? = some false) then
            { popped.ambient with grad := false }
          else popped.ambient) gradSet)
    (atStart
      : gradSet.Shifted
          (if decide (layer.transform.priorForwardGrad? = some false) then
            { gradSet.ambient with forwardGrad := false }
          else gradSet.ambient) start)
    (ran : overlayBelow op layer start = .ok overlay checked)
    (atHeld : checked.Shifted { checked.ambient with overlay } held)
    : machine.Shifted (machine.ambient.leave layer below) held := by
  obtain ⟨atChecked, chosen⟩ := overlayBelow_ok ran
  have moved := atPopped.trans (atGradSet.trans (atStart.trans (atChecked.trans atHeld)))
  refine { moved with ambient := ?_ }
  have atPopped := atPopped.ambient
  have atGradSet := atGradSet.ambient
  have atStart := atStart.ambient
  have atChecked := atChecked.ambient
  rw [atHeld.ambient]
  simp only [Machine.ambient, Ambient.leave, Ambient.mk.injEq] at *
  split at atGradSet <;> split at atStart <;> simp_all

/-- A call that goes on below the top layer meets what it meets there. The guards on the way are
released one after another, each on the way out of the one inside of it.
-/
theorem Meets.dispatchBelow {machine : Machine} {failed : Exit → Prop} {layer : Layer}
    {below : List Layer} {calls : Calls} {op : Schema} {ok : Unit → List Value → Heap → Prop}
    (top : machine.thread.layers = layer :: below) (level : layer.level = below.length + 1)
    (leaves
      : ∀ start : Machine,
          start.thread.layers = below
          → start.values = machine.values
          → start.heap = machine.heap
          → (overlayBelow op layer).Meets start (fun _ _ _ => True) failed)
    (inner
      : ∀ held : Machine,
          machine.Shifted (machine.ambient.leave layer below) held
          → (calls.dispatch op).Meets held ok failed)
    : (dispatchBelow calls op layer).Meets machine ok failed := by
  refine .holding (moves_hideTop top level) ?_
  intro popped atPopped
  refine .holdingIf (moves_gradMode false popped) ?_
  intro gradSet atGradSet
  refine .holdingIf (moves_forwardGradMode false gradSet) ?_
  intro start atStart
  have moved := atPopped.trans (atGradSet.trans atStart)
  have layers : start.thread.layers = below := by
    have atPopped := congrArg Ambient.layers atPopped.ambient
    have atGradSet := congrArg Ambient.layers atGradSet.ambient
    have atStart := congrArg Ambient.layers atStart.ambient
    simp only [apply_ite Ambient.layers, ite_self] at atPopped atGradSet atStart
    exact atStart.trans (atGradSet.trans atPopped)
  refine (leaves start layers moved.values moved.heap).bind ?_
  intro overlay checked ran _ _
  refine .holding (moves_replaceOverlay overlay checked) ?_
  intro held atHeld
  refine (inner held (shifted_leave atPopped atGradSet atStart ran atHeld)).bind ?_
  intro _ reached _ _ left
  refine (quiet_read _).step rfl ?_
  split
  · obtain ⟨log, noted⟩ := logDispatch_apply (.reentering op.name) reached
    exact (quiet_writing.logDispatch _).meets noted left
  · exact meets_pure left

-----------------------------------------------------------------------------------------
-- Calls by name
-----------------------------------------------------------------------------------------

/-- A call by name meets what the dispatch of the operator on its own values meets. The name may be
unknown, or the number of arguments wrong; both refusals come before the dispatch.
-/
theorem Meets.call {machine : Machine} {failed : Exit → Prop} {calls : Calls} {name : String}
    {arguments : List Value} {ok : List Value → List Value → Heap → Prop}
    (refused
      : ∀ error,
          (∀ op, calls.schema? name = some op → arguments.length ≠ op.arity)
          → failed (.error error))
    (inner
      : ∀ op,
          calls.schema? name = some op
          → arguments.length = op.arity
          → (calls.dispatch op).Meets { machine with values := arguments }
              (fun _ left heap => ok left machine.values heap) failed)
    : (calls.call name arguments).Meets machine ok failed := by
  unfold Calls.call
  cases found : calls.schema? name with
  | none =>
      have required : calls.require name = Outcome.fail (.unknownOperator name) := by
        rw [Calls.require, found]
      rw [required]
      exact ⟨trivial, .refl machine, refused _ fun op known => by simp [found] at known⟩
  | some op =>
      have required : calls.require name = .ok op := by rw [Calls.require, found]
      rw [required]
      have given : Quiet (liftM (Except.ok op : Outcome Schema)) := by
        refine quiet_lift ?_
        intro exit ended
        cases ended
      refine given.step (lift_ok_apply op machine) ?_
      split
      · rename_i count
        have called
            : (Run.onValues arguments (calls.dispatch op)).Meets machine
                (fun result values heap => ok result.2 values heap) failed :=
          Meets.onValues (inner op found count)
        exact called.bind fun result reached _ _ left => meets_pure left
      · rename_i count
        refine meets_fail (refused _ fun other known => ?_)
        rw [found] at known
        cases known
        exact count

/-- The same where the first result, which must be a tensor, is asked for. -/
theorem Meets.callTensor {machine : Machine} {failed : Exit → Prop} {calls : Calls}
    {name : String} {arguments : List Value} {ok : Tensor → List Value → Heap → Prop}
    (h
      : (calls.call name arguments).Meets machine
          (fun results values heap =>
            match results with
            | .tensor result :: _ => ok result values heap
            | _ => failed (.error (.invalidArgument name 0 .expectedTensorResult))) failed)
    : (calls.callTensor name arguments).Meets machine ok failed := by
  refine h.bind ?_
  intro results reached _ _ left
  split
  · exact meets_pure left
  · rename_i other
    refine meets_fail ?_
    split at left
    · exact absurd rfl (other _ _)
    · exact left

end Run
end LayeredDispatch
