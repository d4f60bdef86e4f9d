import LayeredDispatch.Proofs.Dispatch.Meets
import LayeredDispatch.Proofs.Dispatch.Scoping

/-! Computations that hand the state back, with a condition on the memory that they leave on every
way of ending. A call changes nothing for good but the heap and the generator, so this is what a
caller that goes on after an error still depends on. Main statements: the conditions of a sequence
and of a body under the guards of a call follow from those of their parts.
-/

namespace LayeredDispatch

/-- What a call may change for good: the heap and the generator. -/
structure Memory where
  heap : Heap
  generator : Generator

/-- The memory of the running thread. -/
def Machine.memory (machine : Machine) : Memory where
  heap := machine.heap
  generator := machine.thread.generator

/-- A shift of the ambient state leaves the memory alone. -/
theorem Machine.Shifted.memory {machine held : Machine} {ambient : Ambient}
    (h : machine.Shifted ambient held)
    : held.memory = machine.memory := by
  rw [Machine.memory, h.heap, h.generator]
  rfl

namespace Run

/-- From `machine` the computation ends in order and hands the state back. A value comes with boxed
values and a memory as `ok` says, any other end with a memory as `failed` says.
-/
def Leaves (body : Run α) (machine : Machine) (ok : α → List Value → Memory → Prop)
    (failed : Exit → Memory → Prop)
    : Prop :=
  body.Ends machine
    (fun value reached => machine.Resumes reached ∧ ok value reached.values reached.memory)
    (fun exit reached => exit.Orderly ∧ machine.Resumes reached ∧ failed exit reached.memory)

variable {machine reached : Machine} {failed failed' : Exit → Memory → Prop}

/-- Where no condition is put on the memory of other ends, it is that of `Meets`. -/
theorem leaves_iff_meets {body : Run α} {ok : α → List Value → Heap → Prop}
    {refused : Exit → Prop}
    : body.Leaves machine (fun value values memory => ok value values memory.heap)
        (fun exit _ => refused exit)
      ↔ body.Meets machine ok refused :=
  Iff.rfl

/-- Weaker conditions hold too. -/
theorem Leaves.mono {body : Run α} {ok ok' : α → List Value → Memory → Prop}
    (h : body.Leaves machine ok failed)
    (hok : ∀ value values memory, ok value values memory → ok' value values memory)
    (hfailed : ∀ exit memory, failed exit memory → failed' exit memory)
    : body.Leaves machine ok' failed' :=
  Ends.mono h (fun _ _ left => ⟨left.1, hok _ _ _ left.2⟩)
    (fun _ _ left => ⟨left.1, left.2.1, hfailed _ _ left.2.2⟩)

/-- Only what the computation does from the state counts. -/
theorem Leaves.congr {body other : Run α} {ok : α → List Value → Memory → Prop}
    (same : body machine = other machine) (h : other.Leaves machine ok failed)
    : body.Leaves machine ok failed := by
  unfold Leaves Ends at h ⊢
  rwa [same]

/-- The same with what is known of the values that the computation gives. The computation is run
once, so a fact about its end may be added to the condition.
-/
theorem Leaves.strengthen {body : Run α} {ok ok' : α → List Value → Memory → Prop}
    (h : body.Leaves machine ok failed)
    (given
      : ∀ value reached,
          body machine = .ok value reached
          → ok value reached.values reached.memory
          → ok' value reached.values reached.memory)
    : body.Leaves machine ok' failed := by
  unfold Leaves Ends at h ⊢
  cases ended : body machine with
  | ok value reached =>
      rw [ended] at h
      exact ⟨h.1, given value reached ended h.2⟩
  | error exit reached => rwa [ended] at h

/-- Two conditions that hold of one computation hold together, since there is one end of it. -/
theorem Leaves.and {body : Run α} {ok ok' : α → List Value → Memory → Prop}
    (h : body.Leaves machine ok failed) (h' : body.Leaves machine ok' failed')
    : body.Leaves machine (fun value values memory => ok value values memory ∧ ok' value values memory)
        (fun exit memory => failed exit memory ∧ failed' exit memory) := by
  unfold Leaves Ends at *
  split at h
  · rename_i ended
    rw [ended] at h'
    exact ⟨h.1, h.2, h'.2⟩
  · rename_i ended
    rw [ended] at h'
    exact ⟨h.1, h.2.1, h.2.2, h'.2.2⟩

/-- A computation that hands every state back and leaves the memory alone. -/
def Still (body : Run α) : Prop :=
  ∀ machine, body.Leaves machine (fun _ _ memory => memory = machine.memory)
    (fun _ memory => memory = machine.memory)

/-- A computation that leaves the memory alone hands the state back. -/
theorem Still.quiet {body : Run α} (h : Still body) : Quiet body :=
  fun machine => (h machine).mono (fun _ _ _ _ => trivial) (fun _ _ _ => trivial)

/-- Where a computation that hands every state back gives a known value. -/
theorem Quiet.leaves {body : Run α} {ok : α → List Value → Memory → Prop} {value : α}
    (h : Quiet body) (ended : body machine = .ok value reached)
    (left : ok value reached.values reached.memory)
    : body.Leaves machine ok failed := by
  have resumes := (h machine).resumes ended
  unfold Leaves Ends
  rw [ended]
  exact ⟨resumes, left⟩

/-- The same where it is known to end without a value. -/
theorem Quiet.leaves_error {body : Run α} {ok : α → List Value → Memory → Prop} {exit : Exit}
    (h : Quiet body) (ended : body machine = .error exit reached)
    (left : failed exit reached.memory)
    : body.Leaves machine ok failed := by
  obtain ⟨orderly, resumes, -⟩ := Ends.of_error (h machine) ended
  unfold Leaves Ends
  rw [ended]
  exact ⟨orderly, resumes, left⟩

/-- Parts that hand the state back make a sequence that does. The second part starts in the state in
which the first one has ended, and all that is known of that state may be used for it.
-/
theorem Leaves.bind {first : Run α} {next : α → Run β} {mid : α → List Value → Memory → Prop}
    {ok : β → List Value → Memory → Prop} (head : first.Leaves machine mid failed)
    (tail
      : ∀ value reached,
          first machine = .ok value reached
          → machine.Resumes reached
          → mid value reached.values reached.memory
          → (next value).Leaves reached ok failed)
    : (first >>= next).Leaves machine ok failed := by
  unfold Leaves at head ⊢
  rw [ends_bind]
  unfold Ends at head ⊢
  split
  · rename_i value reached started
    rw [started] at head
    exact Ends.mono (tail value reached started head.1 head.2)
      (fun _ _ later => ⟨head.1.trans later.1, later.2⟩)
      (fun _ _ later => ⟨later.1, head.1.trans later.2.1, later.2.2⟩)
  · rename_i exit reached started
    rwa [started] at head

/-- A sequence after a first part that gives a known value. The state after it is still one that
resumes, which is what a chain of such steps needs.
-/
theorem Quiet.leaves_step {first : Run α} {next : α → Run β} {value : α}
    {ok : β → List Value → Memory → Prop} (head : Quiet first)
    (ended : first machine = .ok value reached) (tail : (next value).Leaves reached ok failed)
    : (first >>= next).Leaves machine ok failed := by
  have started : first.Leaves machine
      (fun given _ _ => first machine = .ok given reached) failed :=
    head.leaves ended ended
  refine started.bind ?_
  intro given other started _ _
  rw [ended] at started
  cases started
  exact tail

/-- A sequence after a first part that leaves the memory alone, which may end there. The condition
on other ends must then hold of the memory at the start.
-/
theorem Still.leaves_bind {first : Run α} {next : α → Run β}
    {ok : β → List Value → Memory → Prop} (head : Still first)
    (refused : ∀ exit, failed exit machine.memory)
    (tail
      : ∀ value reached,
          first machine = .ok value reached
          → machine.Resumes reached
          → reached.memory = machine.memory
          → (next value).Leaves reached ok failed)
    : (first >>= next).Leaves machine ok failed := by
  refine Leaves.bind ((head machine).mono (fun _ _ _ => id) ?_) tail
  rintro exit memory rfl
  exact refused exit

/-- What the first part of a sequence tells, the sequence tells, if its other part hands the state back.
-/
theorem Leaves.then_quiet {first : Run α} {next : α → Run β} {condition : Prop}
    (head : first.Leaves machine (fun _ _ _ => condition) (fun _ _ => True))
    (tail : ∀ value, Quiet (next value))
    : (first >>= next).Leaves machine (fun _ _ _ => condition) (fun _ _ => True) := by
  refine head.bind ?_
  intro value reached _ _ holds
  change (next value).Meets reached (fun _ _ _ => condition) (fun _ => True)
  exact (tail value reached).mono (fun _ _ _ _ => holds) (fun _ _ => trivial)

/-- A value given at once leaves the state as it is. -/
theorem leaves_pure {value : α} {ok : α → List Value → Memory → Prop}
    (left : ok value machine.values machine.memory)
    : (pure value : Run α).Leaves machine ok failed :=
  ⟨.refl machine, left⟩

/-- A computation that ends where it starts. -/
theorem leaves_ended {body : Run α} {exit : Exit} {ok : α → List Value → Memory → Prop}
    (ended : body machine = .error exit machine) (orderly : exit.Orderly)
    (left : failed exit machine.memory)
    : body.Leaves machine ok failed := by
  unfold Leaves Ends
  rw [ended]
  exact ⟨orderly, .refl machine, left⟩

/-- An error leaves the state as it is. -/
theorem leaves_fail {error : DispatchError} {ok : α → List Value → Memory → Prop}
    (h : failed (.error error) machine.memory)
    : (fail error : Run α).Leaves machine ok failed :=
  ⟨trivial, .refl machine, h⟩

/-- A fault that is in order leaves the state as it is. -/
theorem leaves_fault {fault : Fault} {ok : α → List Value → Memory → Prop}
    (orderly : (Exit.fault fault).Orderly) (h : failed (.fault fault) machine.memory)
    : (Run.fault fault : Run α).Leaves machine ok failed :=
  ⟨orderly, .refl machine, h⟩

-----------------------------------------------------------------------------------------
-- Computations that leave the state or the memory alone
-----------------------------------------------------------------------------------------

/-- A computation that ends in order where it starts. -/
def Idle (body : Run α) : Prop :=
  ∀ machine, body.Ends machine (fun _ reached => reached = machine)
    (fun exit reached => exit.Orderly ∧ reached = machine)

/-- A value of an idle computation comes with the state of the start. -/
theorem Idle.reached_eq {body : Run α} {value : α} (h : Idle body)
    (ended : body machine = .ok value reached)
    : reached = machine := by
  have left := Ends.of_ok (h machine) ended
  exact left

/-- A computation that leaves the state alone leaves the memory alone. -/
theorem Idle.still {body : Run α} (h : Idle body) : Still body := by
  intro machine
  refine Ends.mono (h machine) ?_ ?_
  · rintro _ _ rfl
    exact ⟨.refl _, rfl⟩
  · rintro exit _ ⟨orderly, rfl⟩
    exact ⟨orderly, .refl _, rfl⟩

/-- What an idle computation leaves is the state of the start, so the condition is one on its value.
-/
theorem Idle.leaves {body : Run α} {ok : α → List Value → Memory → Prop} (h : Idle body)
    (refused : ∀ exit, failed exit machine.memory)
    (left : ∀ value, body machine = .ok value machine → ok value machine.values machine.memory)
    : body.Leaves machine ok failed := by
  have ends := h machine
  unfold Leaves Ends at *
  cases ended : body machine with
  | ok value reached =>
      rw [ended] at ends
      have same : reached = machine := ends
      subst same
      exact ⟨.refl _, left value ended⟩
  | error exit reached =>
      rw [ended] at ends
      obtain ⟨orderly, rfl⟩ := ends
      exact ⟨orderly, .refl _, refused exit⟩

/-- A sequence after a first part that leaves the state alone, and may end there. -/
theorem Idle.leaves_bind {first : Run α} {next : α → Run β}
    {ok : β → List Value → Memory → Prop} (head : Idle first)
    (refused : ∀ exit, failed exit machine.memory)
    (tail : ∀ value, first machine = .ok value machine → (next value).Leaves machine ok failed)
    : (first >>= next).Leaves machine ok failed := by
  refine head.still.leaves_bind refused ?_
  intro value reached ended _ _
  obtain rfl := head.reached_eq ended
  exact tail value ended

theorem idle_pure (value : α) : Idle (pure value : Run α) :=
  fun _ => rfl

theorem idle_read (part : Machine → α) : Idle (read part) :=
  fun _ => rfl

theorem idle_lift {outcome : Outcome α} (orderly : outcome.Orderly)
    : Idle (liftM outcome : Run α) := by
  intro machine
  rw [ends_lift]
  cases outcome with
  | ok value => rfl
  | error exit => exact ⟨orderly exit rfl, rfl⟩

theorem Idle.bind {first : Run α} {next : α → Run β} (head : Idle first)
    (tail : ∀ value, Idle (next value))
    : Idle (first >>= next) := by
  intro machine
  rw [ends_bind]
  refine Ends.mono (head machine) ?_ fun _ _ => id
  rintro value _ rfl
  exact tail value _

/-- Everything that only reads the state is idle. By `Reading` this holds of all parts of kernels
that read, without a look at any of them here.
-/
theorem idle_reading : Reading Exit.Orderly Idle where
  pure := idle_pure
  bind := Idle.bind
  plain h := h.orderly
  throw orderly _ := ⟨orderly, rfl⟩
  look _ := idle_read _
  read := idle_read

/-- Sequences of parts that leave the memory alone leave it alone. -/
theorem Still.bind {first : Run α} {next : α → Run β} (head : Still first)
    (tail : ∀ value, Still (next value))
    : Still (first >>= next) := by
  intro machine
  refine head.leaves_bind (fun _ => rfl) ?_
  intro value reached _ _ same
  rw [← same]
  exact tail value reached

theorem still_log (event : Event) : Still (log event) :=
  fun _ => ⟨.of_eq rfl rfl rfl rfl, rfl⟩

/-- Reading and logging leave the memory alone, and so do all parts of kernels that do nothing else.
-/
theorem still_noting : Noting Exit.Orderly Still where
  pure value := (idle_pure value).still
  bind := Still.bind
  plain h := h.orderly
  throw orderly _ := ⟨orderly, .refl _, rfl⟩
  look _ := (idle_read _).still
  read part := (idle_read part).still
  log := still_log

/-- Taking values off leaves the memory alone, though it changes the boxed values. -/
theorem still_pop (count : Nat) : Still (pop count) := by
  refine (idle_reading.lastStart count).still.bind ?_
  intro start machine
  simp only [Leaves, ends_bind, ends_get, ends_set, ends_pure]
  exact ⟨.of_eq rfl rfl rfl rfl, rfl⟩

-----------------------------------------------------------------------------------------
-- Guards
-----------------------------------------------------------------------------------------

/-- A body with a cleanup that mends what the body hands back. The cleanup runs after every end of
the body and restores the state without touching the memory, so the conditions of the body are those
of the whole.
-/
theorem Leaves.ensuring {held : Machine} {after : List Value → List Value} {cleanup : Run Unit}
    {body outer : Run α} {ok : α → List Value → Memory → Prop}
    (mends : Mends machine held after cleanup)
    (started : outer machine = Run.ensuring body cleanup held)
    (h : body.Leaves held (fun value values => ok value (after values)) failed)
    : outer.Leaves machine ok failed := by
  have cleaned {reached : Machine} (resumed : held.Resumes reached)
      : ∃ final,
          cleanup reached = .ok () final
          ∧ machine.Resumes final
          ∧ final.values = after reached.values
          ∧ final.memory = reached.memory := by
    obtain ⟨final, cleaned, resumes, values, heap, generator⟩ := mends reached resumed
    exact ⟨final, cleaned, resumes, values, by rw [Machine.memory, heap, generator]; rfl⟩
  unfold Leaves Ends at *
  rw [started]
  unfold Run.ensuring
  cases ended : body held with
  | ok value reached =>
      rw [ended] at h
      obtain ⟨final, cleans, resumes, values, memory⟩ := cleaned h.1
      have left : ok value (after reached.values) reached.memory := h.2
      simp only [cleans]
      rw [values, memory]
      exact ⟨resumes, left⟩
  | error exit reached =>
      rw [ended] at h
      obtain ⟨orderly, resumed, left⟩ := h
      obtain ⟨final, cleans, resumes, -, memory⟩ := cleaned resumed
      cases exit with
      | error error => simpa only [cleans, memory] using ⟨orderly, resumes, left⟩
      | fault fault => simpa only [cleans, memory] using ⟨orderly, resumes, left⟩
      | abort => exact absurd orderly id

/-- A body under a guard that only moves the ambient state leaves what it leaves there. -/
theorem Leaves.holding {acquire : Run Guard} {ambient : Ambient} {body : Run α}
    {ok : α → List Value → Memory → Prop} (moves : Moves acquire machine ambient)
    (inner : ∀ held, machine.Shifted ambient held → body.Leaves held ok failed)
    : (Run.holding acquire body).Leaves machine ok failed := by
  obtain ⟨guard, held, acquired, shifted, mends⟩ := moves
  refine Leaves.ensuring mends ?_ (inner held shifted)
  unfold Run.holding
  rw [bind_apply, acquired]

/-- The same for a guard that is acquired only under a condition. -/
theorem Leaves.holdingIf {condition : Bool} {acquire : Run Guard} {ambient : Ambient}
    {body : Run α} {ok : α → List Value → Memory → Prop} (moves : Moves acquire machine ambient)
    (inner
      : ∀ held,
          machine.Shifted (if condition then ambient else machine.ambient) held
          → body.Leaves held ok failed)
    : (Run.holdingIf condition acquire body).Leaves machine ok failed := by
  cases condition with
  | true => exact .holding moves inner
  | false => exact inner machine (.refl machine)

/-- Values of a call's own are of no account to the state around it. What is left of them is given
as a result, and the values from outside are put back.
-/
theorem Leaves.onValues {values : List Value} {body : Run α}
    {ok : α × List Value → List Value → Memory → Prop}
    (inner
      : body.Leaves { machine with values }
          (fun value left memory => ok (value, left) machine.values memory) failed)
    : (Run.onValues values body).Leaves machine ok failed := by
  refine Leaves.ensuring (mends_onValues values machine) (onValues_apply values body machine) ?_
  refine inner.bind ?_
  intro value reached _ _ left
  exact (quiet_read _).leaves_step rfl (leaves_pure left)

/-- A trace node that is opened around a body is closed again, whichever way the body ends. Without
a recorder there is nothing to open.
-/
theorem Leaves.traced {op : String} {capability : Capability} {body : Run α}
    {ok : α → List Value → Memory → Prop}
    (inner : body.Leaves (machine.inSpan op capability) ok failed)
    : (Run.traced op capability body).Leaves machine ok failed := by
  cases recording : machine.thread.recorder with
  | none =>
      have unopened := inSpan_of_unrecorded recording op capability
      have unfolded : Run.traced op capability body machine = body machine := by
        simp [traced_apply, recording, unopened]
      rw [unopened] at inner
      unfold Leaves Ends at inner ⊢
      rwa [unfolded]
  | some recorder =>
      exact Leaves.ensuring (mends_closeSpan recording op capability)
        (by simp [traced_apply, recording]) inner

/-- A call that goes on below the top layer leaves what it leaves there, once it may leave the
layer. The guards on the way down are four, for the layer, both gradient modes and the overlay, and
each of them is one `holding` around the rest.
-/
theorem Leaves.below {layer : Layer} {below : List Layer} {calls : Calls} {op : Schema}
    {ok : Unit → List Value → Memory → Prop} (top : machine.thread.layers = layer :: below)
    (level : layer.level = below.length + 1)
    (leaves
      : ∀ start : Machine,
          start.thread.layers = below
          → start.values = machine.values
          → start.memory = machine.memory
          → (overlayBelow op layer).Leaves start (fun _ _ _ => True) failed)
    (inner
      : ∀ held : Machine,
          machine.Shifted (machine.ambient.leave layer below) held
          → (calls.dispatch op).Leaves held ok failed)
    : (dispatchBelow calls op layer).Leaves machine ok failed := by
  refine .holding (moves_hideTop top level) ?_
  intro popped atPopped
  refine .holdingIf (moves_gradMode false popped) ?_
  intro gradSet atGradSet
  refine .holdingIf (moves_forwardGradMode false gradSet) ?_
  intro start atStart
  have moved := atPopped.trans (atGradSet.trans atStart)
  have layers : start.thread.layers = below := by
    have atPopped := congrArg Ambient.layers atPopped.ambient
    have atGradSet := congrArg Ambient.layers atGradSet.ambient
    have atStart := congrArg Ambient.layers atStart.ambient
    simp only [apply_ite Ambient.layers, ite_self] at atPopped atGradSet atStart
    exact atStart.trans (atGradSet.trans atPopped)
  refine (leaves start layers moved.values moved.memory).bind ?_
  intro overlay checked ran _ _
  refine .holding (moves_replaceOverlay overlay checked) ?_
  intro held atHeld
  refine (inner held (shifted_leave atPopped atGradSet atStart ran atHeld)).bind ?_
  intro _ reached _ _ left
  refine (quiet_read _).leaves_step rfl ?_
  split
  · obtain ⟨log, noted⟩ := logDispatch_apply (.reentering op.name) reached
    exact (quiet_writing.logDispatch _).leaves noted left
  · exact leaves_pure left

/-- The same where it does not matter if the call may leave the layer, because a refusal there
leaves the memory alone.
-/
theorem Leaves.dispatchBelow {layer : Layer} {below : List Layer} {calls : Calls} {op : Schema}
    {ok : Unit → List Value → Memory → Prop} (top : machine.thread.layers = layer :: below)
    (level : layer.level = below.length + 1) (refused : ∀ exit, failed exit machine.memory)
    (inner
      : ∀ held : Machine,
          machine.Shifted (machine.ambient.leave layer below) held
          → (calls.dispatch op).Leaves held ok failed)
    : (dispatchBelow calls op layer).Leaves machine ok failed := by
  refine .below top level (fun start _ _ same => ?_) inner
  apply (still_noting.overlayBelow op layer start).mono
  · exact fun _ _ _ _ => trivial
  · intro exit memory kept
    rw [kept, same]
    exact refused exit

/-- In front of a layer an event is noted first. What follows is the same for both kinds of layers,
so it is left as it stands in the interceptor.
-/
theorem Leaves.enter {layer : Layer} {below : List Layer} {calls : Calls} {op : Schema}
    {ok : Unit → List Value → Memory → Prop} (top : machine.thread.layers = layer :: below)
    (inner
      : ∀ logged : Machine,
          machine.Resumes logged
          → machine.Shifted machine.ambient logged
          → Leaves
              (do
                refuseCapturedMutation op layer
                Run.mapLast op.arity (receive layer)
                let overlay ← Run.read (·.thread.overlay)
                Run.holding (Guard.replaceOverlay (layer.kind.entryOverlay overlay))
                  (calls.dispatch op))
              logged ok failed)
    : (entryInterceptor.run calls op).Leaves machine ok failed := by
  refine (quiet_read _).leaves_step rfl ?_
  simp only [top, List.head?_cons]
  refine Quiet.leaves_step quiet_writing.renderLayers rfl ?_
  obtain ⟨log, noted⟩ := logDispatch_apply
    (.entering op.name (Layer.renderStack machine.thread.layers.reverse)) machine
  refine (quiet_writing.logDispatch _).leaves_step noted ?_
  exact inner _ ((quiet_writing.logDispatch _ machine).resumes noted) (logDispatch_ok noted)

/-- A call by name leaves what the dispatch of the operator on its own values leaves, unless there
is no such operator or it is given another number of arguments. The dispatch starts on the arguments
alone, and the values of the caller are put back under whatever it gives.
-/
theorem Leaves.call {calls : Calls} {name : String} {arguments : List Value}
    {ok : List Value → List Value → Memory → Prop}
    (refused
      : ∀ error,
          (∀ op, calls.schema? name = some op → arguments.length ≠ op.arity)
          → failed (.error error) machine.memory)
    (inner
      : ∀ op,
          calls.schema? name = some op
          → arguments.length = op.arity
          → (calls.dispatch op).Leaves { machine with values := arguments }
              (fun _ left memory => ok left machine.values memory) failed)
    : (calls.call name arguments).Leaves machine ok failed := by
  unfold Calls.call
  cases found : calls.schema? name with
  | none =>
      have required : calls.require name = Outcome.fail (.unknownOperator name) := by
        rw [Calls.require, found]
      rw [required]
      refine ⟨trivial, .refl machine, refused _ ?_⟩
      intro op present
      rw [found] at present
      cases present
  | some op =>
      have required : calls.require name = .ok op := by rw [Calls.require, found]
      rw [required]
      refine (quiet_lift (Outcome.confined_ok op)).leaves_step (lift_ok_apply op machine) ?_
      split
      · rename_i count
        have called
            : (Run.onValues arguments (calls.dispatch op)).Leaves machine
                (fun result values memory => ok result.2 values memory) failed :=
          Leaves.onValues (inner op found count)
        exact called.bind fun result reached _ _ left => leaves_pure left
      · rename_i count
        refine leaves_fail (refused _ ?_)
        intro other present
        rw [found] at present
        cases present
        exact count

/-- The same where the first result, which must be a tensor, is asked for. -/
theorem Leaves.callTensor {calls : Calls} {name : String} {arguments : List Value}
    {ok : Tensor → List Value → Memory → Prop}
    (h
      : (calls.call name arguments).Leaves machine
          (fun results values memory =>
            ∃ result others, results = .tensor result :: others ∧ ok result values memory)
          failed)
    : (calls.callTensor name arguments).Leaves machine ok failed := by
  refine h.bind ?_
  rintro _ reached _ _ ⟨result, others, rfl, left⟩
  exact leaves_pure left

end Run
end LayeredDispatch
