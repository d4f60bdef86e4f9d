import LayeredDispatch.Proofs.Histories.Programs
import LayeredDispatch.Proofs.Traces.Calls

/-! A recording gives back the calls that were made, as they were nested. The calls of an activity run
inside spans, to any depth; a call may end in a value, an error or a fault, what follows may go on after
all three, and any part may be recorded on its own. Main statement: a recording gives the calls of the
activity without those of the recordings inside it, and leaves the recorder around it as it was.
-/

namespace LayeredDispatch

open Run

/-- How a recording ends: with the result of its body and a trace, or with a fault and no trace. -/
inductive Recording where
  | completes (result : Except DispatchError (List Value)) (trace : List TraceNode)
  | faults (fault : Fault)

/-- The recording that ends in this way. -/
def Recording.finish : Recording → Run (Except DispatchError (List Value) × List TraceNode)
  | .completes result trace => return (result, trace)
  | .faults fault => Run.fault fault

/-- How a recording of such a trace ends where its body ends in this way. -/
def Ending.recording (trace : List TraceNode) : Ending → Recording
  | .gives values => .completes (.ok values) trace
  | .refuses error => .completes (.error error) trace
  | .faults fault => .faults fault

/-- Goes on after a recording, however it ends, unless it aborts. -/
def Run.recordThen (body : Run (List Value)) (next : Recording → Run (List Value))
    : Run (List Value) :=
  fun machine =>
    match Run.record body machine with
    | .ok (result, trace) reached => next (.completes result trace) reached
    | .error (.fault fault) reached => next (.faults fault) reached
    | .error exit reached => .error exit reached

/-- What a computation does that recordings see. What follows a call or a recording is told how that has
ended: it passes a fault on by ending in it, and catches the fault by doing anything else.
-/
inductive Activity where
  | finish (ending : Ending)
  | call (op : String) (capability : Capability) (body : Activity) (next : Ending → Activity)
  | record (body : Activity) (next : Recording → Activity)

/-- Something that has been done: a call or a recording, with what was done inside and how that ended. -/
inductive Branch where
  | call (op : String) (capability : Capability) (inside : List Branch) (ending : Ending)
  | recording (inside : List Branch) (ending : Ending)

mutual
/-- What a recording around it sees: a call, however it ended, and nothing of a recording. -/
def Branch.trace : Branch → List TraceNode
  | .call op capability inside _ => [⟨op, capability, traces inside⟩]
  | .recording _ _ => []

/-- What a recording sees of several branches. -/
def Branch.traces : List Branch → List TraceNode
  | [] => []
  | branch :: branches => branch.trace ++ traces branches
end

mutual
/-- Does a branch again and then something else. -/
def Branch.before : Branch → Activity → Activity
  | .call op capability inside ending, next =>
      .call op capability (replay inside ending) fun _ => next
  | .recording inside ending, next => .record (replay inside ending) fun _ => next

/-- Does branches again and ends in a given way. -/
def Branch.replay : List Branch → Ending → Activity
  | [], ending => .finish ending
  | branch :: branches, ending => branch.before (replay branches ending)
end

namespace Activity

def run : Activity → Run (List Value)
  | .finish ending => ending.finish
  | .call op capability body next =>
      (Run.traced op capability body.run).andThen fun ending => (next ending).run
  | .record body next => body.run.recordThen fun recording => (next recording).run

/-- What is done, in order, and how it ends. -/
def outcome : Activity → List Branch × Ending
  | .finish ending => ([], ending)
  | .call op capability body next =>
      let (inside, ending) := body.outcome
      let (later, final) := (next ending).outcome
      (.call op capability inside ending :: later, final)
  | .record body next =>
      let (inside, ending) := body.outcome
      let (later, final) := (next (ending.recording (Branch.traces inside))).outcome
      (.recording inside ending :: later, final)

/-- The forest of what is done. -/
def forest (activity : Activity) : List Branch :=
  activity.outcome.1

/-- How the activity ends. -/
def ending (activity : Activity) : Ending :=
  activity.outcome.2

end Activity

/-- The state after such calls have ended. -/
def Machine.appending (machine : Machine) (trace : List TraceNode) : Machine :=
  { machine with
    thread :=
      { machine.thread with
        recorder := machine.thread.recorder.map fun recorder => recorder.append trace } }

section

variable {machine reached : Machine} {body : Run (List Value)} {ending : Ending}
  {trace : List TraceNode}

-----------------------------------------------------------------------------------------
-- Calls that have ended
-----------------------------------------------------------------------------------------

theorem Machine.appending_nil (machine : Machine) : machine.appending [] = machine := by
  simp only [appending, Recorder.append_nil, Option.map_id']

/-- Calls that end after others are added behind them. -/
theorem Machine.appending_append (machine : Machine) (first second : List TraceNode)
    : (machine.appending first).appending second = machine.appending (first ++ second) := by
  simp only [appending, Option.map_map, Function.comp_def, Recorder.append_append]

/-- Where nothing is recorded, calls leave nothing behind. -/
theorem Machine.appending_of_unrecorded (unrecorded : machine.thread.recorder = none)
    : machine.appending trace = machine := by
  obtain ⟨_, ⟨_, _, _, _, recorder, _, _⟩, _, _, _⟩ := machine
  cases unrecorded
  rfl

/-- A call ends as its body does. However that is, what the body has added is below the call, and
the span is closed by the cleanup.
-/
theorem Run.EndsIn.traced {op : String} {capability : Capability}
    (ended
      : body.EndsIn (machine.inSpan op capability) ending
          ((machine.inSpan op capability).appending trace))
    : (Run.traced op capability body).EndsIn machine ending
        (machine.appending [⟨op, capability, trace⟩]) := by
  unfold EndsIn
  rw [traced_apply]
  cases recording : machine.thread.recorder with
  | none =>
      rw [inSpan_of_unrecorded recording, Machine.appending_of_unrecorded recording] at ended
      rw [inSpan_of_unrecorded recording, Machine.appending_of_unrecorded recording]
      exact ended
  | some recorder =>
      rw [Option.isSome_some, if_pos rfl]
      refine EndsIn.ensuring ended ?_
      simp only [closeSpan, onThread_apply, Machine.appending, Machine.inSpan, recording,
        Option.map_some, Recorder.leave_append_enter]

/-- A recording gives what its body has added to an empty trace, and the recorder that it has displaced
is back however the body ends.
-/
theorem Run.EndsIn.record
    (ended : body.EndsIn machine.recording ending (machine.recording.appending trace))
    : Run.record body machine = (ending.recording trace).finish machine := by
  change Run.ensuring _ (setRecorder machine.thread.recorder) machine.recording = _
  unfold EndsIn at ended
  unfold Run.ensuring
  simp only [bind_apply, attempt, ended]
  cases ending with
  | gives values | refuses error | faults fault => rfl

-----------------------------------------------------------------------------------------
-- Activities
-----------------------------------------------------------------------------------------

/-- An activity ends as it says, and adds the calls that it has made outside recordings of its own.
The induction is on the activity and leaves the state general: a call runs its body in a span, and a
recording on a recorder of its own.
-/
theorem Activity.run_endsIn (activity : Activity) (machine : Machine)
    : activity.run.EndsIn machine activity.ending
        (machine.appending (Branch.traces activity.forest)) := by
  -- The induction goes along the activity; a body runs on the recorder of its own span or recording.
  induction activity generalizing machine with
  | finish ending =>
      simp only [forest, outcome, Branch.traces, Machine.appending_nil]
      rfl
  | call op capability body next body_ih next_ih =>
      have ended := (body_ih (machine.inSpan op capability)).traced
      have went := next_ih body.ending
        (machine.appending [⟨op, capability, Branch.traces body.forest⟩])
      rw [Machine.appending_append] at went
      exact (andThen_apply ended).trans went
  | record body next body_ih next_ih =>
      have ended := (body_ih machine.recording).record
      have went := next_ih (body.ending.recording (Branch.traces body.forest)) machine
      refine Eq.trans ?_ went
      simp only [run, recordThen, ended]
      cases body.ending <;> rfl

mutual
/-- Doing a branch again and then something else is doing that after the branch. -/
theorem Branch.outcome_before (branch : Branch) (next : Activity)
    : (branch.before next).outcome = (branch :: next.forest, next.ending) := by
  cases branch with
  | call op capability inside ending =>
      simp only [before, Activity.outcome, outcome_replay inside ending]
      rfl
  | recording inside ending =>
      simp only [before, Activity.outcome, outcome_replay inside ending]
      rfl

/-- Branches that are done again are the forest of what is done, with the end that was asked for.
This is why every forest comes from some activity.
-/
theorem Branch.outcome_replay (branches : List Branch) (ending : Ending)
    : (replay branches ending).outcome = (branches, ending) := by
  cases branches with
  | nil => rfl
  | cons branch branches =>
      rw [replay, outcome_before branch, Activity.forest, Activity.ending,
        outcome_replay branches ending]
end

/-- Recordings reproduce the calls as they were nested. Whatever a recorded activity does, whichever of
its calls end in an error or a fault and wherever faults are caught, the recording gives the forest of
its calls in order, without what has been done in recordings inside it, and the whole state is as it
was, with the spans that were open and the finished roots of the recorder around it; where the activity
ends in a fault the state is as it was too. This holds of the recordings inside an activity as well. And
every forest is that of some activity, however its calls and recordings end.
-/
theorem Run.record_reproduces
    : (∀ (activity : Activity) (machine : Machine),
        Run.record activity.run machine
        = (activity.ending.recording (Branch.traces activity.forest)).finish machine)
      ∧ ∀ (branches : List Branch) (ending : Ending),
          ∃ activity : Activity, activity.forest = branches ∧ activity.ending = ending := by
  refine ⟨fun activity machine => (activity.run_endsIn machine.recording).record, ?_⟩
  intro branches ending
  have replayed := Branch.outcome_replay branches ending
  exact ⟨Branch.replay branches ending, congrArg Prod.fst replayed, congrArg Prod.snd replayed⟩

end

end LayeredDispatch
