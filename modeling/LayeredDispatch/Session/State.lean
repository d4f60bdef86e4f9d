import LayeredDispatch.Dispatcher.Standard
import LayeredDispatch.Session.View

/-! The state of a session: a machine, a dispatcher, and names for what the steps make. -/

namespace LayeredDispatch

/-- Named things; the newest definition of a name comes first and counts. -/
abbrev Names (α : Type) := List (String × α)

namespace Names

/-- Defines a name, or defines it again. -/
def define (names : Names α) (name : String) (value : α) : Names α :=
  (name, value) :: names

/-- Defines a name if there is one. -/
def define? (names : Names α) (name? : Option String) (value : α) : Names α :=
  match name? with
  | some name => names.define name value
  | none => names

end Names

/-- A session. -/
structure Session where
  /-- The state on which the steps run. -/
  machine : Machine := {}
  /-- The dispatcher that the steps extend and call. -/
  dispatcher : Dispatcher := {}
  /-- The dispatcher of typed calls, if it is another one. -/
  typed? : Option Dispatcher := none
  /-- Named tensors. -/
  tensors : Names Tensor := []
  /-- Named liveness flags. -/
  flags : Names Nat := []
  /-- Named layers. -/
  layers : Names Layer := []
  /-- Named copies of the stack of layers, bottom first. -/
  snapshots : Names (List Layer) := []
  /-- Named contexts. -/
  contexts : Names Context := []
  /-- Guards that are not released yet, newest first. -/
  guards : Names Guard := []
  deriving Inhabited

/-- A computation on a session. -/
abbrev Play := EStateM Refusal Session

/-- A computation on the machine of a session. -/
instance : MonadLift Run Play where
  monadLift computation := fun session =>
    match computation session.machine with
    | .ok value machine => .ok value { session with machine }
    | .error exit machine => .error (.exit exit) { session with machine }

namespace Play

/-- What a name stands for. -/
def resolve (names : Session → Names α) (name : String) : Play α := do
  match (names (← get)).lookup name with
  | some value => return value
  | none => throw .malformed

/-- The tensor with a given name. -/
def tensor (name : String) : Play Tensor :=
  resolve Session.tensors name

/-- Looks at the heap. -/
def onHeap (look : Heap → α) : Play α :=
  return look (← get).machine.heap

/-- Names a tensor, if it is to have a name, and shows it. -/
def keep (out? : Option String) (tensor : Tensor) : Play Reply := do
  modify fun session => { session with tensors := session.tensors.define? out? tensor }
  return .tensor (← onHeap fun heap => TensorView.of heap tensor)

/-- Names a flag, if it is to have a name. -/
def keepFlag (out? : Option String) (flag : Nat) : Play Unit :=
  modify fun session => { session with flags := session.flags.define? out? flag }

/-- Names a layer, if it is to have a name, and shows it. -/
def keepLayer (out? : Option String) (layer : Layer) : Play Reply := do
  modify fun session => { session with layers := session.layers.define? out? layer }
  return .layer layer

/-- Shows values. -/
def view (values : List Value) : Play (List ValueView) :=
  onHeap fun heap => ValueView.ofAll heap values

end Play
end LayeredDispatch
