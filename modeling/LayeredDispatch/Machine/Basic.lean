import LayeredDispatch.Layer
import LayeredDispatch.Registry
import LayeredDispatch.Settings
import LayeredDispatch.Trace
import LayeredDispatch.Value

/-! The state on which operators run, and computations on it. A computation that ends without a value
keeps the state that it has reached. Parts of the state are the log, whose events and their wording stand
first, and the random number generator, a linear congruential sequence of 64-bit states.
-/

namespace LayeredDispatch

-----------------------------------------------------------------------------------------
-- Events worth a line in the log
-----------------------------------------------------------------------------------------

/-- A logged event. -/
inductive Event where
  | pushedLayer (level : Level) (kind : TransformKind)
  | poppedLayer (level : Level) (kind : TransformKind)
  | rejectedMutation (op : String) (level : Level)
  | noBatchingRule (op : String)
  | installedInterceptors
  | registeredOperators (count : Nat)
  /-- A level was to be removed that is not registered. -/
  | alreadyRemoved (level : Level)
  /-- A layer was to be removed while another one, or none, is on top. -/
  | foreignTop (level : Level) (top? : Option Level)
  | layersOn
  | layersOff
  | entering (op : String) (stack : String)
  | leaving (op : String)
  | reentering (op : String)
  deriving DecidableEq, Inhabited

/-- The line of an event: its importance, what happened, and the details. -/
def Event.render : Event → String
  | .pushedLayer level kind =>
      "DEBUG pushed layer level=" ++ toString level ++ " kind=" ++ kind.render
  | .poppedLayer level kind =>
      "DEBUG popped layer level=" ++ toString level ++ " kind=" ++ kind.render
  | .rejectedMutation op level =>
      "DEBUG rejected mutation of a captured value op=" ++ op ++ " level=" ++ toString level
  | .noBatchingRule op => "DEBUG no batching rule op=" ++ op
  | .installedInterceptors => "DEBUG installed layer interceptors"
  | .registeredOperators count =>
      "DEBUG registered base operators operators=" ++ toString count
  | .alreadyRemoved level =>
      "WARN metadata for level already removed level=" ++ toString level
  | .foreignTop level top? =>
      let shown :=
        match top? with
        | none => "None"
        | some top => "Some(" ++ toString top ++ ")"
      "WARN layer guard does not own the top layer level=" ++ toString level ++ " top=" ++ shown
  | .layersOn => "DEBUG transform layers on"
  | .layersOff => "DEBUG transform layers off"
  | .entering op stack => "DEBUG entering layer op=" ++ op ++ " stack=" ++ stack
  | .leaving op => "DEBUG leaving transform layers op=" ++ op
  | .reentering op => "DEBUG re-entering transform layers op=" ++ op

-----------------------------------------------------------------------------------------
-- The random number generator
-----------------------------------------------------------------------------------------

/-- A generator in a given state. -/
structure Generator where
  /-- The state that the next draw starts from. -/
  state : UInt64 := 12345
  deriving DecidableEq, Inhabited

namespace Generator

/-- The state after one draw. -/
def step (state : UInt64) : UInt64 :=
  state * 6364136223846793005 + 1442695040888963407

/-- The number in the unit interval, one excluded, that a state stands for: its upper fifty-three
bits as a fraction. -/
def toUnit (state : UInt64) : Float :=
  (state >>> 11).toFloat / ((1 : UInt64) <<< 53).toFloat

/-- Draws `count` numbers in a row. -/
def draw : (count : Nat) → Generator → List Float × Generator
  | 0, generator => ([], generator)
  | count + 1, generator =>
      let next := step generator.state
      let (rest, final) := draw count ⟨next⟩
      (toUnit next :: rest, final)

end Generator

-----------------------------------------------------------------------------------------
-- Machines and computations
-----------------------------------------------------------------------------------------

/-- What belongs to one thread. -/
structure Thread where
  /-- The overlay in force. -/
  overlay : Overlay := {}
  /-- The active layers, top first. -/
  layers : List Layer := []
  /-- Whether history is recorded. -/
  grad : Bool := true
  /-- Whether forward tangents are propagated. -/
  forwardGrad : Bool := true
  /-- The trace being recorded, if any. -/
  recorder : Option Recorder := none
  /-- The random number generator. -/
  generator : Generator := {}
  /-- Events since the log was last taken, oldest first. -/
  log : List Event := []
  deriving Inhabited

/-- The whole state: one thread at a time, and what all threads share. -/
structure Machine where
  /-- The switches in force. -/
  settings : Settings := {}
  /-- The running thread. -/
  thread : Thread := {}
  /-- The registered levels. -/
  registry : Registry := {}
  /-- What tensors share. -/
  heap : Heap := {}
  /-- The boxed values of the call in progress, bottom first: a call replaces its arguments, the
  last ones, by its results. -/
  values : List Value := []
  deriving Inhabited

/-- A computation on the state. -/
abbrev Run := EStateM Exit Machine

/-- A pure computation leaves the state alone. -/
instance : MonadLift Outcome Run where
  monadLift outcome := fun machine =>
    match outcome with
    | .ok value => .ok value machine
    | .error exit => .error exit machine

namespace Run

/-- Ends with an error. -/
def fail (error : DispatchError) : Run α :=
  throw (.error error)

/-- Ends with a fault. -/
def fault (fault : Fault) : Run α :=
  throw (.fault fault)

/-- Reads a part of the state. -/
def read (part : Machine → α) : Run α :=
  return part (← get)

/-- Changes the running thread. -/
def onThread (change : Thread → Thread) : Run Unit :=
  modify fun machine => { machine with thread := change machine.thread }

/-- Changes the heap. -/
def onHeap (change : Heap → Heap) : Run Unit :=
  modify fun machine => { machine with heap := change machine.heap }

/-- Makes something on the heap. -/
def allocate (make : Heap → α × Heap) : Run α := do
  let machine ← get
  let (made, heap) := make machine.heap
  set { machine with heap }
  return made

/-- Adds an event to the log. -/
def log (event : Event) : Run Unit :=
  onThread fun thread => { thread with log := thread.log ++ [event] }

/-- Adds an event to the log if dispatch is to be shown. -/
def logDispatch (event : Event) : Run Unit := do
  if ← read (·.settings.showDispatchTrace) then log event

/-- Replaces the overlay. -/
def setOverlay (overlay : Overlay) : Run Unit :=
  onThread fun thread => { thread with overlay }

/-- Changes the overlay. -/
def onOverlay (change : Overlay → Overlay) : Run Unit :=
  onThread fun thread => { thread with overlay := change thread.overlay }

/-- Switches the recording of history. -/
def setGrad (grad : Bool) : Run Unit :=
  onThread fun thread => { thread with grad }

/-- Switches the propagation of forward tangents. -/
def setForwardGrad (forwardGrad : Bool) : Run Unit :=
  onThread fun thread => { thread with forwardGrad }

/-- Runs `cleanup` when `body` has ended, in whatever way. A fault of the cleanup replaces a value
or an error of the body; after a fault of the body it aborts. -/
def ensuring (body : Run α) (cleanup : Run Unit) : Run α := fun machine =>
  match body machine with
  | .ok value reached =>
      match cleanup reached with
      | .ok _ final => .ok value final
      | .error exit final => .error exit final
  | .error .abort reached => .error .abort reached
  | .error (.error error) reached =>
      match cleanup reached with
      | .ok _ final => .error (.error error) final
      | .error exit final => .error exit final
  | .error (.fault fault) reached =>
      match cleanup reached with
      | .ok _ final => .error (.fault fault) final
      | .error _ final => .error .abort final

/-- Turns an error into a value; faults pass. -/
def attempt (body : Run α) : Run (Except DispatchError α) := fun machine =>
  match body machine with
  | .ok value reached => .ok (.ok value) reached
  | .error (.error error) reached => .ok (.error error) reached
  | .error exit reached => .error exit reached

-----------------------------------------------------------------------------------------
-- What a computation does to a state
-----------------------------------------------------------------------------------------

/-- A sequence ends where its first part does, unless that gives a value. -/
theorem bind_apply (first : Run α) (next : α → Run β) (machine : Machine)
    : (first >>= next) machine =
        match first machine with
        | .ok value reached => next value reached
        | .error exit reached => .error exit reached := by
  cases ended : first machine <;> simp [bind, EStateM.bind, ended]

/-- A mapped computation ends where the computation does. -/
theorem map_apply (change : α → β) (body : Run α) (machine : Machine)
    : (change <$> body) machine =
        match body machine with
        | .ok value reached => .ok (change value) reached
        | .error exit reached => .error exit reached := by
  cases ended : body machine <;> simp [Functor.map, EStateM.map, ended]

/-- A value leaves the state alone. -/
theorem pure_apply (value : α) (machine : Machine)
    : (pure value : Run α) machine = .ok value machine :=
  rfl

/-- An error leaves the state alone. -/
theorem fail_apply (error : DispatchError) (machine : Machine)
    : (fail error : Run α) machine = .error (.error error) machine :=
  rfl

/-- A fault leaves the state alone. -/
theorem fault_apply (fault : Fault) (machine : Machine)
    : (Run.fault fault : Run α) machine = .error (.fault fault) machine :=
  rfl

/-- Reading leaves the state alone. -/
theorem read_apply (part : Machine → α) (machine : Machine)
    : read part machine = .ok (part machine) machine :=
  rfl

/-- A change of the running thread leaves the rest of the state alone. -/
theorem onThread_apply (change : Thread → Thread) (machine : Machine)
    : onThread change machine = .ok () { machine with thread := change machine.thread } :=
  rfl

/-- A change of the heap leaves the rest of the state alone. -/
theorem onHeap_apply (change : Heap → Heap) (machine : Machine)
    : onHeap change machine = .ok () { machine with heap := change machine.heap } :=
  rfl

/-- Making something changes the heap only. -/
theorem allocate_apply (make : Heap → α × Heap) (machine : Machine)
    : allocate make machine
      = .ok (make machine.heap).1 { machine with heap := (make machine.heap).2 } :=
  rfl

/-- A pure computation that gives a value leaves the state alone. -/
theorem lift_ok_apply (value : α) (machine : Machine)
    : (liftM (Except.ok value : Outcome α) : Run α) machine = .ok value machine :=
  rfl

end Run
end LayeredDispatch
