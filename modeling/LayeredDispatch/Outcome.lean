import LayeredDispatch.Layer
import LayeredDispatch.Schema
import LayeredDispatch.Shape

/-! How a computation ends other than with a value: an error that the caller may handle, a fault
that unwinds through every scope, or an abort when a fault strikes during unwinding. -/

namespace LayeredDispatch

/-- What is wrong with an argument. -/
inductive ArgumentIssue where
  | expectedTensor
  | expectedTensorList
  | expectedSizes
  | expectedInteger
  | expectedDense
  | expectedTensorResult
  | expectedNonempty
  | negativeSize (size : Int)
  | dimOutOfRange (dim : Int) (rank : Nat)
  | batchIntoUnbatched
  | wrongCount (expected given : Nat)
  /-- A reason that a kernel gives in its own words. -/
  | stated (reason : String)
  deriving DecidableEq, Inhabited

/-- The wording of an argument issue. -/
def ArgumentIssue.message : ArgumentIssue → String
  | .expectedTensor => "expected a tensor"
  | .expectedTensorList => "expected a list of tensors"
  | .expectedSizes => "expected a list of sizes"
  | .expectedInteger => "expected an integer"
  | .expectedDense => "expected a dense tensor"
  | .expectedTensorResult => "expected a tensor result"
  | .expectedNonempty => "expected at least one tensor"
  | .negativeSize size => "negative size " ++ toString size
  | .dimOutOfRange dim rank =>
      "dim " ++ toString dim ++ " out of range for rank " ++ toString rank
  | .batchIntoUnbatched => "in-place operation would write a batch into an unbatched value"
  | .wrongCount expected given =>
      "expected " ++ toString expected ++ " arguments, got " ++ toString given
  | .stated reason => reason

/-- A refusal that a call reports to its caller. -/
inductive DispatchError where
  /-- No operator of this name is registered. -/
  | unknownOperator (name : String)
  /-- No capability of the dispatch set has a kernel. -/
  | noKernel (op : String) (set : CapabilitySet)
  /-- An in-place operator under differentiation was given a value from outside the layer. -/
  | capturedMutation (op : String)
  /-- The operator cannot run over a batch. -/
  | missingBatchRule (op : String)
  /-- A random operator ran under a batching layer that forbids it. -/
  | randomnessDisallowed (op : String)
  /-- An argument does not suit the kernel that received it. -/
  | invalidArgument (op : String) (index : Nat) (issue : ArgumentIssue)
  /-- Two shapes do not combine. -/
  | shapeMismatch (op : String) (left right : Shape)
  deriving DecidableEq, Inhabited

/-- The wording of an error. -/
def DispatchError.message : DispatchError → String
  | .unknownOperator name => "Unknown operator: " ++ name
  | .noKernel op set =>
      "No kernel for operator `" ++ op ++ "` (dispatch set " ++ set.render ++ ")"
  | .capturedMutation op =>
      "During a differentiation transform, the function attempted to call in-place operation `"
        ++ op ++ "` that would mutate a captured value. This is not supported; "
        ++ "rewrite the function to explicitly accept the mutated value as an input."
  | .missingBatchRule op => "Batching rule not implemented for operator `" ++ op ++ "`"
  | .randomnessDisallowed op =>
      "Random operator `" ++ op ++ "` called under a batching layer with randomness policy "
        ++ "`error`; choose `same` or `different` to allow it"
  | .invalidArgument op index issue =>
      "Invalid argument " ++ toString index ++ " for `" ++ op ++ "`: " ++ issue.message
  | .shapeMismatch op left right =>
      "Shape mismatch in `" ++ op ++ "`: " ++ left.render ++ " vs " ++ right.render

/-- A broken invariant, which ends the computation that met it. -/
inductive Fault where
  /-- A size computation left the range of sizes. -/
  | overflow
  /-- A buffer was asked for that no memory could hold. -/
  | capacityOverflow
  /-- A division by zero. -/
  | divisionByZero
  /-- An index or slice lies outside its sequence. -/
  | outOfBounds
  | lengthMismatch (count : Nat) (shape : Shape)
  | rangeOutOfBounds (start stop count : Nat)
  | stackUnderflow (needed count : Nat)
  | noActiveLayer
  | popFromEmpty
  | unexpectedPush (layer : Layer) (expected : Level)
  | unexpectedRestore (layer : Layer) (position : Nat)
  | missingPriorFlag (level : Level)
  | noBatchSize (layer : Layer)
  | noRandomness (layer : Layer)
  | levelTaken (level : Level)
  | levelMissing (level : Level)
  | escaped (tagged level : Level)
  | stillWrapped (tagged level : Level)
  /-- The base was reached with a wrapped argument, here given as its report text. -/
  | wrappedAtBase (op : String) (shown : String)
  | liveOutside (level : Level) (op : String)
  | entryWithoutLayer (op : String)
  /-- A fault that a kernel raises in its own words. -/
  | stated (message : String)
  /-- Calls nested, or a loop ran, beyond its budget. -/
  | diverged
  deriving DecidableEq, Inhabited

/-- The wording of a fault. The four arithmetic faults and divergence have none. -/
def Fault.message? : Fault → Option String
  | .overflow | .capacityOverflow | .divisionByZero | .outOfBounds | .diverged => none
  | .lengthMismatch count shape =>
      "Data length " ++ toString count ++ " doesn't match shape " ++ shape.render
  | .rangeOutOfBounds start stop count =>
      "stack range " ++ toString start ++ ".." ++ toString stop
        ++ " out of bounds for stack of " ++ toString count
  | .stackUnderflow needed count =>
      "stack underflow: need " ++ toString needed ++ " values, have " ++ toString count
  | .noActiveLayer => "no transform layer is active"
  | .popFromEmpty => "pop from an empty layer stack"
  | .unexpectedPush layer expected =>
      "pushed layer " ++ layer.render ++ " but the next level is " ++ toString expected
  | .unexpectedRestore layer position =>
      "restored layer " ++ layer.render ++ " at position " ++ toString position
  | .missingPriorFlag level =>
      "differentiation layer at level " ++ toString level
        ++ " needs a prior grad or forward grad flag"
  | .noBatchSize layer => layer.render ++ " layer has no batch size"
  | .noRandomness layer => layer.render ++ " layer has no randomness policy"
  | .levelTaken level => "level " ++ toString level ++ " is already registered"
  | .levelMissing level => "no metadata registered for level " ++ toString level
  | .escaped tagged level =>
      "escaped? value tagged at level " ++ toString tagged ++ " reached level " ++ toString level
  | .stillWrapped tagged level =>
      "value tagged at level " ++ toString tagged ++ " is still wrapped when leaving level "
        ++ toString level
  | .wrappedAtBase op shown =>
      "`" ++ op ++ "` reached the base runtime with a wrapped argument: " ++ shown
  | .liveOutside level op =>
      "live wrapper at level " ++ toString level ++ " passed to `" ++ op
        ++ "` outside its transform"
  | .entryWithoutLayer op =>
      "`" ++ op ++ "` reached the entry interceptor with no active layer"
  | .stated message => message

/-- The ways a computation ends without a value. -/
inductive Exit where
  /-- An error, which the caller may handle. -/
  | error (error : DispatchError)
  /-- A fault, which unwinds. -/
  | fault (fault : Fault)
  /-- A second fault, met while unwinding from a first one. -/
  | abort
  deriving DecidableEq, Inhabited

/-- A pure computation that may end without a value. -/
abbrev Outcome := Except Exit

namespace Outcome

/-- Ends with an error. -/
def fail (error : DispatchError) : Outcome α :=
  .error (.error error)

/-- Ends with a fault. -/
def fault (fault : Fault) : Outcome α :=
  .error (.fault fault)

/-- The value of an option, or a fault where there is none. -/
def orFault (value? : Option α) (fault : Fault) : Outcome α :=
  match value? with
  | some value => .ok value
  | none => .error (.fault fault)

/-- Refuses element counts that no buffer can hold. -/
def checkCapacity (count : Size) : Outcome Unit :=
  if Size.fitsBuffer count then .ok () else fault .capacityOverflow

end Outcome
end LayeredDispatch
