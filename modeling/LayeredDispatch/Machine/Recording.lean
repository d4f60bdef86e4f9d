import LayeredDispatch.Machine.Basic

/-! Recording dispatch traces on the running thread. -/

namespace LayeredDispatch
namespace Run

/-- Whether a trace is being recorded. -/
def isRecording : Run Bool :=
  read (·.thread.recorder.isSome)

/-- Replaces the recorder. -/
def setRecorder (recorder : Option Recorder) : Run Unit :=
  onThread fun thread => { thread with recorder }

/-- Opens a node of the trace and tells whether there is one to close later: none is opened while
nothing is recorded. -/
def openSpan (op : String) (capability : Capability) : Run Bool := do
  match ← read (·.thread.recorder) with
  | some recorder => do
      setRecorder (some (recorder.enter op capability))
      return true
  | none => return false

/-- Closes the innermost open node of the trace being recorded, if there is one. -/
def closeSpan : Run Unit :=
  onThread fun thread => { thread with recorder := thread.recorder.map Recorder.leave }

/-- Runs `body` inside a node of the trace, which is closed however the body ends. -/
def traced (op : String) (capability : Capability) (body : Run α) : Run α := do
  if ← openSpan op capability then ensuring body closeSpan else body

/-- Starts a new trace and gives the recorder that it displaces. -/
def startRecording : Run (Option Recorder) := do
  let outer ← read (·.thread.recorder)
  setRecorder (some {})
  return outer

/-- The finished roots of the trace being recorded. -/
def recordedRoots : Run (List TraceNode) :=
  read fun machine => (machine.thread.recorder.map Recorder.roots).getD []

/-- Records the calls of `body` and gives their trace along with the result, also when that is an
error. The trace around it goes on afterwards, however the body ends. -/
def record (body : Run α) : Run (Except DispatchError α × List TraceNode) := do
  let outer ← startRecording
  ensuring
    (do
      let result ← attempt body
      return (result, ← recordedRoots))
    (setRecorder outer)

end Run
end LayeredDispatch
