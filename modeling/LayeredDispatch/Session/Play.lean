import LayeredDispatch.Guard
import LayeredDispatch.Session.Layers
import LayeredDispatch.Session.Operators

/-! Playing a session: its steps one after another, scopes and threads with steps of their own, and
the answers to them. -/

namespace LayeredDispatch

/-- A step without steps of its own. -/
inductive Action where
  | value (action : ValueAction)
  | tensor (action : TensorAction)
  | layer (action : LayerAction)
  | overlay (action : OverlayAction)
  | operator (action : OperatorAction)
  /-- A step of which some part cannot be read. -/
  | unreadable
  /-- A step that has not the form of one. -/
  | malformed

/-- Plays a step without steps of its own. -/
def Action.play : Action → Play Reply
  | .value action => action.play
  | .tensor action => action.play
  | .layer action => action.play
  | .overlay action => action.play
  | .operator action => action.play
  | .unreadable => throw .unreadable
  | .malformed => throw .malformed

/-- What surrounds the steps of a scope. -/
inductive ScopeSpec where
  | differentiation
  | batching (size : Size) (randomness : Randomness)
  | recording
  | span (op : String) (capability : Capability)

/-- One step of a session; `traced` asks for the traces of its calls. -/
inductive Step where
  | action (traced : Bool) (action : Action)
  /-- A scope. With a departure other than the normal one it is left that way at the first of its
  steps that has no result. -/
  | scope (traced : Bool) (spec : ScopeSpec) (departure : Departure) (body : List Step)
  /-- Steps on a thread of their own, inside a context if one is named. -/
  | thread (traced : Bool) (context? : Option String) (body : List Step)

/-- Steps played inside a scope: their answers, and how the scope is left. -/
structure Body where
  /-- The answers, the last one that of the step which ended the body early, if one did. -/
  answers : List Answer
  /-- How the scope is left. -/
  departure : Departure

/-- The result of a computation, or its refusal. -/
def Play.reply (play : Play Reply) (session : Session) : Reply × Session :=
  match play session with
  | .ok reply reached => (reply, reached)
  | .error refusal reached => (.refused refusal, reached)

/-- Completes an answer: it takes the log, and looks at the state. -/
def Session.answer (session : Session) (reply : Reply) (traces? : Option (List String))
    : Answer × Session :=
  let machine := session.machine
  let lines := machine.thread.log.map Event.render
  let emptied := { machine with thread := { machine.thread with log := [] } }
  (.mk reply (StateView.of machine) traces? lines, { session with machine := emptied })

/-- Replaces the recorder of the running thread. -/
def Session.setRecorder (session : Session) (recorder : Option Recorder) : Session :=
  let machine := session.machine
  { session with machine := { machine with thread := { machine.thread with recorder } } }

/-- The roots of the trace being recorded. -/
def Session.roots (session : Session) : List String :=
  ((session.machine.thread.recorder.map Recorder.roots).getD []).map TraceNode.render

/-- Plays a step and answers it, with the traces of its calls if they are asked for. -/
def Session.answering (traced : Bool) (play : Session → Reply × Session) (session : Session)
    : Answer × Session :=
  if traced then
    let outer := session.machine.thread.recorder
    let (reply, reached) := play (session.setRecorder (some {}))
    (reached.setRecorder outer).answer reply (some reached.roots)
  else
    let (reply, reached) := play session
    reached.answer reply none

-----------------------------------------------------------------------------------------
-- Scopes and threads
-----------------------------------------------------------------------------------------

/-- Plays the steps of a layer scope. -/
def playLayerScope (acquire : Run Scope) (body : Session → Body × Session) : Play Reply := do
  let scope ← (acquire : Run Scope)
  let (steps, reached) := body (← get)
  set reached
  (scope.close : Run Unit)
  return .layerScope steps.departure scope.level steps.answers

/-- Plays the steps of a recorded scope. A fault leaves no traces. -/
def playRecording (body : Session → Body × Session) : Play Reply := do
  let outer ← (Run.startRecording : Run (Option Recorder))
  let (steps, reached) := body (← get)
  set reached
  (Run.setRecorder outer : Run Unit)
  let roots := if steps.departure = .fault then [] else reached.roots
  return .recordScope steps.departure steps.answers roots outer.isSome

/-- Plays the steps of a scope inside a node of the trace. -/
def playSpan (op : String) (capability : Capability) (body : Session → Body × Session)
    : Play Reply := do
  let opened ← (Run.openSpan op capability : Run Bool)
  let (steps, reached) := body (← get)
  set reached
  if opened then (Run.closeSpan : Run Unit)
  return .spanScope steps.departure steps.answers opened

/-- Plays the steps of a scope. -/
def ScopeSpec.play (body : Session → Body × Session) : ScopeSpec → Play Reply
  | .differentiation => playLayerScope Scope.differentiation body
  | .batching size randomness => playLayerScope (Scope.batching size randomness) body
  | .recording => playRecording body
  | .span op capability => playSpan op capability body

/-- Releases the guards of a session one after another, each whatever became of the others, and
tells for each what became of it and how the state is then. -/
def Session.releaseGuards (session : Session)
    : List (String × Option Refusal × StateView) × Session :=
  let release (ended : List (String × Option Refusal × StateView) × Session)
      (entry : String × Guard) : List (String × Option Refusal × StateView) × Session :=
    let (refusal?, reached) :=
      match (liftM entry.2.release : Play Unit) ended.2 with
      | .ok _ reached => (none, reached)
      | .error refusal reached => (some refusal, reached)
    (ended.1 ++ [(entry.1, refusal?, StateView.of reached.machine)], reached)
  session.guards.foldl release ([], { session with guards := [] })

/-- Plays steps on a new thread, which knows all names but holds no guards. Of what the steps name
only the tensors remain; what threads share, the dispatcher included, remains as they leave it. -/
def playThread (context? : Option String) (body : Session → Body × Session) : Play Reply := do
  let outside ← get
  let context? ← context?.mapM (Play.resolve Session.contexts)
  set { outside with guards := [], machine := { outside.machine with thread := {} } }
  let before := StateView.of (← get).machine
  let entered? ← context?.mapM fun context => (Guard.enter context : Run Guard)
  let (steps, reached) := body (← get)
  set reached.releaseGuards.2
  if let some guard := entered? then (guard.release : Run Unit)
  let inside ← get
  set { outside with
    tensors := inside.tensors
    dispatcher := inside.dispatcher
    machine := { inside.machine with thread := outside.machine.thread } }
  return .thread before steps.answers (StateView.of inside.machine)

mutual
/-- Plays a step and answers it. -/
def Step.play : Step → Session → Answer × Session
  | .action traced leaf, session => session.answering traced leaf.play.reply
  | .scope traced spec departure body, session =>
      session.answering traced (spec.play fun inside => Step.playAll departure body inside).reply
  | .thread traced context? body, session =>
      session.answering traced
        (playThread context? fun inside => Step.playAll .normal body inside).reply

/-- Plays steps in order. If the scope around them may be left early, they end with the first one
that has no result. -/
def Step.playAll (departure : Departure) : List Step → Session → Body × Session
  | [], session => (⟨[], .normal⟩, session)
  | step :: steps, session =>
      let (answer, reached) := step.play session
      if answer.isRefused ∧ departure ≠ .normal then (⟨[answer], departure⟩, reached)
      else
        let (rest, final) := Step.playAll departure steps reached
        (⟨answer :: rest.answers, rest.departure⟩, final)
end

/-- What a session shows: the answers to its steps, and what became of the guards that were left at
the end, newest first. -/
structure Transcript where
  /-- The answers. -/
  answers : List Answer
  /-- The guards left at the end, each with its refusal, if any, and the state after its release. -/
  released : List (String × Option Refusal × StateView)

/-- Plays a whole session on a new thread, with the standard dispatcher or an empty one. -/
def Session.transcript (settings : Settings) (standard : Bool) (steps : List Step) : Transcript :=
  let start : Session := {
    machine := { settings }
    dispatcher := if standard then Dispatcher.standard else {}
    typed? := if standard then none else some Dispatcher.standard }
  let (body, reached) := Step.playAll .normal steps start
  ⟨body.answers, reached.releaseGuards.1⟩

end LayeredDispatch
