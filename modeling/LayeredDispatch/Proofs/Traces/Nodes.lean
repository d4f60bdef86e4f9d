import LayeredDispatch.Proofs.Dispatch.Replacing

/-! The nodes that computations add to the trace being recorded. Only what runs inside a span of its own
adds any; everything else that kernels do leaves the trace alone. Main statements: the nodes of a
sequence are those of its parts in order, and what a body has added inside a span become the children
of a single node.
-/

namespace LayeredDispatch

/-- The trace with finished calls added to the innermost call that has not ended, or to the roots. -/
def Recorder.append (recorder : Recorder) (nodes : List TraceNode) : Recorder :=
  match recorder.opened with
  | [] => { recorder with roots := recorder.roots ++ nodes }
  | innermost :: outer =>
      { recorder with
        opened := { innermost with children := innermost.children ++ nodes } :: outer }

namespace Run

/-- The computation leaves the trace alone if it gives a value. -/
def Silent (body : Run α) : Prop :=
  ∀ machine : Machine,
    body.Ends machine (fun _ reached => reached.thread.recorder = machine.thread.recorder)
      fun _ _ => True

/-- The computation adds such nodes to the trace if it gives a value. -/
def Appends (body : Run α) (machine : Machine) (appended : List TraceNode → Prop) : Prop :=
  body.Ends machine
    (fun _ reached =>
      ∃ nodes,
        reached.thread.recorder
          = machine.thread.recorder.map (fun recorder => recorder.append nodes)
        ∧ appended nodes)
    fun _ _ => True

end Run

open Run

-----------------------------------------------------------------------------------------
-- Finished calls
-----------------------------------------------------------------------------------------

namespace Recorder

theorem append_nil (recorder : Recorder) : recorder.append [] = recorder := by
  obtain ⟨opened, roots⟩ := recorder
  cases opened with
  | nil => simp [append]
  | cons innermost outer =>
      obtain ⟨op, capability, children⟩ := innermost
      simp [append]

/-- Calls that are added after others are added after them in the list, wherever the list is kept.
-/
theorem append_append (recorder : Recorder) (first second : List TraceNode)
    : (recorder.append first).append second = recorder.append (first ++ second) := by
  obtain ⟨opened, roots⟩ := recorder
  cases opened with
  | nil => simp [append]
  | cons innermost outer => simp [append]

/-- A call that ends is added to the call around it, with what has been added to itself. -/
theorem leave_append_enter (recorder : Recorder) (op : String) (capability : Capability)
    (nodes : List TraceNode)
    : ((recorder.enter op capability).append nodes).leave
      = recorder.append [⟨op, capability, nodes⟩] := by
  obtain ⟨opened, roots⟩ := recorder
  cases opened with
  | nil => rfl
  | cons innermost outer => rfl

end Recorder

section

variable {machine reached : Machine} {appended mid : List TraceNode → Prop} {first : Run α}
  {next : α → Run β} {body cleanup : Run α} {value : α}

-----------------------------------------------------------------------------------------
-- Computations that leave the trace alone
-----------------------------------------------------------------------------------------

theorem silent_pure (value : α) : Silent (pure value) :=
  fun _ => rfl

theorem silent_fail (error : DispatchError) : Silent (fail error : Run α) :=
  fun _ => trivial

theorem silent_fault (fault : Fault) : Silent (Run.fault fault : Run α) :=
  fun _ => trivial

theorem silent_read (part : Machine → α) : Silent (read part) :=
  fun _ => rfl

theorem silent_onHeap (change : Heap → Heap) : Silent (onHeap change) :=
  fun _ => rfl

theorem silent_allocate (make : Heap → α × Heap) : Silent (allocate make) :=
  fun _ => rfl

theorem silent_onThread {change : Thread → Thread}
    (kept : ∀ thread, (change thread).recorder = thread.recorder)
    : Silent (onThread change) :=
  fun machine => kept machine.thread

theorem silent_modify {change : Machine → Machine}
    (kept : ∀ machine, (change machine).thread = machine.thread)
    : Silent (modify change : Run PUnit) :=
  fun machine => congrArg Thread.recorder (kept machine)

/-- A pure computation leaves the trace alone. -/
theorem silent_lift (outcome : Outcome α) : Silent (liftM outcome : Run α) := by
  intro machine
  rw [ends_lift]
  cases outcome with
  | ok value => rfl
  | error exit => trivial

namespace Run

theorem Silent.of_ok (h : Silent body) (ended : body machine = .ok value reached)
    : reached.thread.recorder = machine.thread.recorder :=
  Ends.of_ok (h machine) ended

/-- Sequences of parts that leave the trace alone leave it alone. -/
theorem Silent.bind (head : Silent first) (tail : ∀ value, Silent (next value))
    : Silent (first >>= next) := by
  intro machine
  rw [ends_bind]
  refine (head machine).mono (fun value reached same => ?_) fun _ _ => id
  rw [← same]
  exact tail value reached

/-- Whatever kernels do apart from their calls leaves the trace alone. By `Writing` this covers all
the parts they are made of.
-/
theorem silent_writing : Writing (fun _ => True) Silent where
  pure := silent_pure
  bind := Silent.bind
  plain _ := trivial
  throw _ _ := trivial
  look _ := silent_read _
  read := silent_read
  log _ := silent_onThread fun _ => rfl
  setValues _ := silent_modify fun _ => rfl
  setGenerator _ := silent_onThread fun _ => rfl
  onHeap _ := silent_onHeap _
  allocate _ := silent_allocate _

/-- So does whatever guards do. -/
theorem silent_layering : Layering (fun _ => True) Silent where
  toLogging := silent_writing.toLogging
  misplaced _ _ := trivial
  onThread := silent_onThread
  removeLevel :=
    silent_writing.removeLevel (fun _ => silent_onHeap _)
      (fun _ => silent_modify fun _ => rfl)

-----------------------------------------------------------------------------------------
-- Nodes of a sequence
-----------------------------------------------------------------------------------------

/-- A weaker condition on the nodes holds too. -/
theorem Appends.mono (h : body.Appends machine mid) (implies : ∀ nodes, mid nodes → appended nodes)
    : body.Appends machine appended := by
  refine Ends.mono h (fun _ reached given => ?_) fun _ _ => id
  rcases given with ⟨nodes, added, left⟩
  exact ⟨nodes, added, implies nodes left⟩

/-- Only what a computation does from the state counts. -/
theorem Appends.congr {other : Run α} (same : body machine = other machine)
    (h : other.Appends machine appended)
    : body.Appends machine appended := by
  unfold Appends Ends at h ⊢
  rwa [same]

/-- Only computations that give a value count. -/
theorem Appends.of_ok
    (h : ∀ value reached, body machine = .ok value reached → body.Appends machine appended)
    : body.Appends machine appended := by
  cases ended : body machine with
  | ok value reached => exact h value reached ended
  | error exit reached =>
      unfold Appends Ends
      rw [ended]
      trivial

/-- A computation that ends without a value adds what you like: nothing is said of it. -/
theorem Appends.of_error {exit : Exit} (ended : body machine = .error exit reached)
    : body.Appends machine appended := by
  refine .of_ok fun value final other => ?_
  rw [ended] at other
  cases other

/-- A computation that leaves the trace alone adds no nodes. -/
theorem Silent.appends (h : Silent body) (none : appended []) : body.Appends machine appended := by
  refine Ends.mono (h machine) (fun _ reached same => ⟨[], ?_, none⟩) fun _ _ => id
  simp only [Recorder.append_nil, Option.map_id']
  exact same

/-- The nodes of a sequence are those of its parts in order. The condition on the second part is one
on what it adds after the nodes of the first one.
-/
theorem Appends.bind (head : first.Appends machine mid)
    (tail
      : ∀ value reached nodes,
          first machine = .ok value reached
          → mid nodes
          → (next value).Appends reached fun later => appended (nodes ++ later))
    : (first >>= next).Appends machine appended := by
  unfold Appends Ends at head ⊢
  rw [bind_apply]
  cases started : first machine with
  | error exit reached => trivial
  | ok value reached =>
      rw [started] at head
      obtain ⟨nodes, added, left⟩ := head
      refine Ends.mono (tail value reached nodes started left) (fun _ final given => ?_)
        fun _ _ => id
      rcases given with ⟨later, addedLater, left⟩
      refine ⟨nodes ++ later, ?_, left⟩
      rw [addedLater, added, Option.map_map]
      exact congrArg (Option.map · _) (funext fun recorder => recorder.append_append nodes later)

/-- A first part that leaves the trace alone. -/
theorem Appends.silently (silent : Silent first)
    (tail
      : ∀ value reached,
          first machine = .ok value reached
          → (next value).Appends reached appended)
    : (first >>= next).Appends machine appended := by
  refine @Appends.bind _ _ machine appended (· = []) first next (silent.appends rfl) ?_
  rintro value reached _ ended rfl
  exact tail value reached ended

/-- A first part that leaves the trace alone and gives a known value. -/
theorem Appends.step (silent : Silent first) (ended : first machine = .ok value reached)
    (tail : (next value).Appends reached appended)
    : (first >>= next).Appends machine appended := by
  refine .silently silent fun other final again => ?_
  rw [ended] at again
  cases again
  exact tail

/-- A pure first part. Only its value counts, not the state. -/
theorem Appends.lift {outcome : Outcome α}
    (tail : ∀ value, outcome = .ok value → (next value).Appends machine appended)
    : (liftM outcome >>= next).Appends machine appended := by
  refine .silently (silent_lift outcome) fun value reached ended => ?_
  obtain ⟨same, rfl⟩ := lift_ok ended
  exact tail value same

/-- The same where more is known of the first part. -/
theorem Appends.after {ok : α → List Value → Memory → Prop} {failed : Exit → Memory → Prop}
    (silent : Silent first) (leaves : first.Leaves machine ok failed)
    (tail
      : ∀ value reached,
          machine.Resumes reached
          → ok value reached.values reached.memory
          → (next value).Appends reached appended)
    : (first >>= next).Appends machine appended := by
  refine .silently silent fun value reached ended => ?_
  obtain ⟨resumes, left⟩ := Ends.of_ok leaves ended
  exact tail value reached resumes left

/-- A second part that leaves the trace alone adds nothing to what the first one has added. -/
theorem Appends.then (head : first.Appends machine appended) (tail : ∀ value, Silent (next value))
    : (first >>= next).Appends machine appended := by
  refine head.bind fun value reached nodes _ left => (tail value).appends ?_
  rwa [List.append_nil]

-----------------------------------------------------------------------------------------
-- Spans and guards
-----------------------------------------------------------------------------------------

/-- A cleanup that leaves the trace alone adds nothing to it. -/
theorem Appends.ensuring {cleanup : Run Unit} (h : body.Appends machine appended)
    (silent : Silent cleanup)
    : (Run.ensuring body cleanup).Appends machine appended := by
  refine .of_ok fun value final ended => ?_
  obtain ⟨reached, started, cleaned⟩ := ended_of_ensuring ended
  obtain ⟨nodes, added, left⟩ := Ends.of_ok h started
  unfold Appends Ends
  rw [ended]
  exact ⟨nodes, (silent.of_ok cleaned).trans added, left⟩

/-- A body under a guard adds what it adds in the state that the guard leads to. Acquiring and
releasing are silent.
-/
theorem Appends.holding {acquire : Run Guard} {ambient : Ambient}
    (moves : Moves acquire machine ambient) (silent : Silent acquire)
    (inner : ∀ held, machine.Shifted ambient held → body.Appends held appended)
    : (Run.holding acquire body).Appends machine appended := by
  obtain ⟨guard, held, acquired, shifted, -⟩ := moves
  exact .step silent acquired ((inner held shifted).ensuring (silent_layering.release guard))

theorem Appends.holdingIf {condition : Bool} {acquire : Run Guard} {ambient : Ambient}
    (moves : Moves acquire machine ambient) (silent : Silent acquire)
    (inner
      : ∀ held,
          machine.Shifted (if condition then ambient else machine.ambient) held
          → body.Appends held appended)
    : (Run.holdingIf condition acquire body).Appends machine appended := by
  cases condition with
  | true => exact .holding moves silent inner
  | false => exact inner machine (.refl machine)

/-- Values of a call's own are of no account to the trace. -/
theorem Appends.onValues {values : List Value}
    (inner : body.Appends { machine with values } appended)
    : (Run.onValues values body).Appends machine appended := by
  refine .step (silent_read _) rfl (.step (silent_modify fun _ => rfl) rfl ?_)
  refine Appends.ensuring (inner.then fun _ => ?_) (silent_modify fun _ => rfl)
  exact (silent_read _).bind fun _ => silent_pure _

/-- A body inside a span adds a single node, below which is what the body has added. Without a
recorder there are no nodes, and the statement holds of the nodes that would have been added.
-/
theorem Appends.traced {op : String} {capability : Capability}
    (inner
      : body.Appends (machine.inSpan op capability) fun nodes => appended [⟨op, capability, nodes⟩])
    : (Run.traced op capability body).Appends machine appended := by
  refine .of_ok fun value final ended => ?_
  have unfolded := ended
  rw [traced_apply] at unfolded
  unfold Appends Ends
  rw [ended]
  cases recording : machine.thread.recorder with
  | none =>
      rw [recording, inSpan_of_unrecorded recording] at unfolded
      rw [inSpan_of_unrecorded recording] at inner
      obtain ⟨nodes, added, left⟩ := Ends.of_ok inner unfolded
      rw [recording, Option.map_none] at added
      exact ⟨[⟨op, capability, nodes⟩], added, left⟩
  | some recorder =>
      rw [recording, Option.isSome_some, if_pos rfl] at unfolded
      obtain ⟨reached, started, cleaned⟩ := ended_of_ensuring unfolded
      obtain ⟨nodes, added, left⟩ := Ends.of_ok inner started
      cases cleaned
      refine ⟨_, ?_, left⟩
      simp only [Machine.inSpan, recording, Option.map_some] at added
      simp only [added, Option.map_some, Recorder.leave_append_enter]

end Run
end
end LayeredDispatch
