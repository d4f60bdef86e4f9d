import LayeredDispatch.Machine.Recording
import LayeredDispatch.Machine.Values

/-! The dispatcher: a table of operators with kernels per capability, fallbacks that serve every
operator, and the choice of the kernel that handles a call. -/

namespace LayeredDispatch

/-- The calls that a kernel may issue while it runs. -/
structure Calls where
  /-- Dispatches an operator whose arguments are the last boxed values. -/
  dispatch : Schema → Run Unit
  /-- The schema of a registered operator. -/
  schema? : String → Option Schema

/-- What handles a call: it replaces the arguments, the last boxed values, by the results. -/
structure Kernel where
  /-- The name of the kernel in reports. -/
  name : String
  /-- Handles a call of an operator. -/
  run : Calls → Schema → Run Unit

namespace Calls

/-- The schema of an operator, or an error if it is not registered. -/
def require (calls : Calls) (name : String) : Outcome Schema :=
  match calls.schema? name with
  | some op => .ok op
  | none => Outcome.fail (.unknownOperator name)

/-- Calls an operator by name on values of its own and gives everything that it leaves. -/
def call (calls : Calls) (name : String) (arguments : List Value) : Run (List Value) := do
  let op ← calls.require name
  if arguments.length = op.arity then
    return (← Run.onValues arguments (calls.dispatch op)).2
  else
    Run.fail (.invalidArgument op.name (min arguments.length op.arity)
      (.wrongCount op.arity arguments.length))

/-- Calls an operator by name and gives its first result, which must be a tensor. -/
def callTensor (calls : Calls) (name : String) (arguments : List Value) : Run Tensor := do
  match ← calls.call name arguments with
  | .tensor result :: _ => return result
  | _ => Run.fail (.invalidArgument name 0 .expectedTensorResult)

end Calls

-----------------------------------------------------------------------------------------
-- Tables
-----------------------------------------------------------------------------------------

/-- A kernel for some of the capabilities. -/
abbrev KernelTable := Capability → Option Kernel

namespace KernelTable

/-- The table without kernels. -/
def empty : KernelTable :=
  fun _ => none

/-- The table with one kernel added or replaced. -/
def set (table : KernelTable) (capability : Capability) (kernel : Kernel) : KernelTable :=
  fun asked => if asked = capability then some kernel else table asked

/-- The number of capabilities with a kernel. -/
def size (table : KernelTable) : Nat :=
  Capability.all.countP fun capability => (table capability).isSome

end KernelTable

/-- A registered operator. -/
structure Operator where
  /-- Its name and signature. -/
  schema : Schema
  /-- Its own kernels. -/
  kernels : KernelTable := .empty

/-- A table of operators, with kernels that serve every operator without one of its own. -/
structure Dispatcher where
  /-- The operators in the order of their registration; no name occurs twice. -/
  operators : List Operator := []
  /-- Kernels for operators that have none of their own. -/
  fallbacks : KernelTable := .empty

instance : Inhabited Dispatcher := ⟨{}⟩

namespace Dispatcher

/-- The operator with a given name. -/
def operator? (dispatcher : Dispatcher) (name : String) : Option Operator :=
  dispatcher.operators.find? fun operator => operator.schema.name == name

/-- The schema of the operator with a given name. -/
def schema? (dispatcher : Dispatcher) (name : String) : Option Schema :=
  (dispatcher.operator? name).map Operator.schema

/-- Registers an operator. A name that is registered already keeps its schema and kernels. -/
def registerOperator (dispatcher : Dispatcher) (schema : Schema) : Dispatcher :=
  match dispatcher.operator? schema.name with
  | some _ => dispatcher
  | none => { dispatcher with operators := dispatcher.operators ++ [{ schema }] }

/-- Gives an operator a kernel for a capability, in place of an earlier one. -/
def registerKernel (dispatcher : Dispatcher) (name : String) (capability : Capability)
    (kernel : Kernel) : Except DispatchError Dispatcher :=
  match dispatcher.operator? name with
  | none => .error (.unknownOperator name)
  | some _ =>
      .ok { dispatcher with
        operators := dispatcher.operators.map fun operator =>
          if operator.schema.name == name then
            { operator with kernels := operator.kernels.set capability kernel }
          else operator }

/-- Gives all operators a kernel for a capability, in place of an earlier fallback. -/
def registerFallback (dispatcher : Dispatcher) (capability : Capability) (kernel : Kernel)
    : Dispatcher :=
  { dispatcher with fallbacks := dispatcher.fallbacks.set capability kernel }

/-- The report text. -/
def render (dispatcher : Dispatcher) : String :=
  "Dispatcher \x7b operators: " ++ toString dispatcher.operators.length
    ++ ", fallbacks: " ++ toString dispatcher.fallbacks.size ++ " \x7d"

-----------------------------------------------------------------------------------------
-- Dispatch
-----------------------------------------------------------------------------------------

/-- The kernel of an operator for a capability: its own one before the fallback. -/
def kernel? (dispatcher : Dispatcher) (op : Schema) (capability : Capability) : Option Kernel :=
  match (dispatcher.operator? op.name).bind fun operator => operator.kernels capability with
  | some kernel => some kernel
  | none => dispatcher.fallbacks capability

/-- The first capability of a set, by priority, that has a kernel for the operator, with that
kernel. -/
def select (dispatcher : Dispatcher) (op : Schema) (set : CapabilitySet)
    : Option (Capability × Kernel) :=
  set.toList.findSome? fun capability =>
    (dispatcher.kernel? op capability).map fun kernel => (capability, kernel)

/-- The capabilities that route a call with the last boxed values as arguments. -/
def dispatchSet (op : Schema) : Run CapabilitySet := do
  let arguments ← Run.peek op.arity
  Run.read fun machine => machine.thread.overlay.apply (Value.carried machine.heap arguments)

/-- Hands a call to the kernel that its dispatch set selects. `budget` bounds how deeply the calls
that kernels issue may nest. -/
def dispatchWithin (dispatcher : Dispatcher) : (budget : Nat) → Schema → Run Unit
  | 0, _ => Run.fault .diverged
  | budget + 1, op => do
      let set ← dispatchSet op
      match dispatcher.select op set with
      | some (capability, kernel) =>
          Run.traced op.name capability
            (kernel.run ⟨dispatcher.dispatchWithin budget, dispatcher.schema?⟩ op)
      | none => Run.fail (.noKernel op.name set)

/-- How deeply calls may nest under `layers` layers. Kernels of the standard dispatcher take three
calls a layer; the allowance leaves room for kernels that go through several hooks and operators
between two layers. -/
def budget (dispatcher : Dispatcher) (layers : Nat) : Nat :=
  (layers + 2) * (40 * (dispatcher.operators.length + 1))

/-- The calls that the dispatcher offers under the active layers. -/
def calls (dispatcher : Dispatcher) : Run Calls := do
  let layers ← Run.read (·.thread.layers.length)
  return ⟨dispatcher.dispatchWithin (dispatcher.budget layers), dispatcher.schema?⟩

/-- Dispatches an operator whose arguments are the last boxed values. -/
def dispatch (dispatcher : Dispatcher) (op : Schema) : Run Unit := do
  (← dispatcher.calls).dispatch op

/-- Calls an operator by name and gives its results. -/
def call (dispatcher : Dispatcher) (name : String) (arguments : List Value)
    : Run (List Value) := do
  (← dispatcher.calls).call name arguments

/-- Calls an operator by name and gives its first result, which must be a tensor. -/
def callTensor (dispatcher : Dispatcher) (name : String) (arguments : List Value)
    : Run Tensor := do
  (← dispatcher.calls).callTensor name arguments

end Dispatcher
end LayeredDispatch
