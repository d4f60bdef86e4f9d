import LayeredDispatch.Dispatcher.Basic
import LayeredDispatch.Guard
import LayeredDispatch.Value
import LayeredDispatch.Wrapping

/-! The bodies of batching layers: rules that run an operator once over a whole batch. A value
batched at the level of the layer is replaced by its physical value, whose outermost dimension is
the batch; values batched at other levels are left to the layers that own them. -/

namespace LayeredDispatch
namespace Batching

/-- Inserts dimensions of size one behind the batch dimension until the physical value has logical
rank `rank`. Each insertion is a call of its own; `budget` bounds their number. -/
def pad (calls : Calls) (rank : Nat) : (budget : Nat) → Tensor → Run Tensor
  | budget, physical => do
      if (← Run.shapeOf physical).rank < rank + 1 then
        match budget with
        | 0 => Run.fault .diverged
        | budget + 1 => do
            let padded ← calls.callTensor "unsqueeze" [.tensor physical, .int 1]
            pad calls rank budget padded
      else return physical

/-- Inserts as many dimensions as needed. As every insertion raises the rank, one more insertion
than there are dimensions to reach is never needed. -/
def padToRank (calls : Calls) (physical : Tensor) (rank : Nat) : Run Tensor :=
  pad calls rank (rank + 2) physical

/-- The physical value of an argument, if it is a tensor batched at `level`. -/
def physicalArgument? (level : Level) (argument : Value) : Option Tensor :=
  argument.tensor?.bind (Tensor.physicalAt? level)

/-- The greatest logical rank among the tensor arguments, zero if there are none. -/
def logicalRank (heap : Heap) (arguments : List Value) : Nat :=
  (arguments.filterMap Value.tensor?).foldl (fun rank tensor => max rank (tensor.shape heap).rank)
    0

/-- Marks the last `count` values, those that are tensors, as batched at `level`. -/
def wrapResults (count : Nat) (level : Level) : Run Unit := do
  let values ← Run.read Machine.values
  let start ← Outcome.orFault (Size.sub? values.length count) .overflow
  let wrapped ← (values.drop start).mapM fun value =>
    match value with
    | .tensor result => return .tensor (← Run.batchAt result level)
    | other => return other
  modify fun machine => { machine with values := values.take start ++ wrapped }

/-- Element-wise operators: physical values are padded to the common logical rank, so that their
batch dimensions are aligned; the results are batched if some argument is. -/
def pointwise : Kernel where
  name := "PointwiseRule"
  run calls op := do
    let level := (← Run.currentLayer).level
    let arguments ← Run.pop op.arity
    let rank ← Run.read fun machine => logicalRank machine.heap arguments
    Run.holding (Guard.hide (.only .batched)) do
      let padded ← arguments.mapM fun argument =>
        match physicalArgument? level argument with
        | none => return argument
        | some physical => return .tensor (← padToRank calls physical rank)
      Run.pushAll padded
      calls.dispatch op
      if arguments.any fun argument => (physicalArgument? level argument).isSome then
        wrapResults op.resultCount level

/-- Inserting a dimension into a batched value inserts it one place further in the physical
value. -/
def unsqueeze : Kernel where
  name := "UnsqueezeRule"
  run calls op := do
    let level := (← Run.currentLayer).level
    let arguments ← Run.pop 2
    let input ← Value.tensorAt arguments op.name 0
    let dim ← Value.intAt arguments op.name 1
    Run.holding (Guard.hide (.only .batched)) do
      match input.physicalAt? level with
      | some physical => do
          let rank := (← Run.shapeOf input).rank
          if 0 ≤ dim ∧ dim ≤ rank then
            Run.pushAll [.tensor physical, .int (dim + 1)]
            calls.dispatch op
            wrapResults 1 level
          else Run.fail (.invalidArgument op.name 1 (.dimOutOfRange dim rank))
      | none => do
          Run.pushAll arguments
          calls.dispatch op

/-- Puts a value in the place of the last one. -/
def replaceLast (value : Value) : Run Unit := do
  let values ← Run.read Machine.values
  let start ← Outcome.orFault (Size.sub? values.length 1) .overflow
  modify fun machine => { machine with values := values.take start ++ [value] }

/-- In-place addition: a batch cannot be written into a value that is not batched. The result is the
handle that was passed in, whose physical value has been written. -/
def addInPlace : Kernel where
  name := "AddInPlaceRule"
  run calls op := do
    let level := (← Run.currentLayer).level
    let arguments ← Run.pop 2
    let target ← Value.tensorAt arguments op.name 0
    let other ← Value.tensorAt arguments op.name 1
    Run.holding (Guard.hide (.only .batched)) do
      match target.physicalAt? level, other.physicalAt? level with
      | none, some _ => Run.fail (.invalidArgument op.name 0 .batchIntoUnbatched)
      | none, none => do
          Run.pushAll arguments
          calls.dispatch op
      | some physical, other? => do
          let rank := (← Run.shapeOf target).rank
          let addend ←
            match other? with
            | some batch => padToRank calls batch rank
            | none => pure other
          Run.pushAll [.tensor physical, .tensor addend]
          calls.dispatch op
          replaceLast (.tensor target)

/-- Operators without a rule are refused. -/
def missingRule : Kernel where
  name := "MissingRule"
  run _ op := do
    Run.log (.noBatchingRule op.name)
    Run.fail (.missingBatchRule op.name)

/-- Random operators follow the policy of the layer. Independent draws are one draw of a larger
shape whose outermost dimension is the batch. -/
def random : Kernel where
  name := "RandomRule"
  run calls op := do
    let layer ← Run.currentLayer
    Run.holding (Guard.hide (.only .batchMode)) do
      match layer.transform with
      | .differentiation .. => Run.fault (.noRandomness layer)
      | .batching _ .error => Run.fail (.randomnessDisallowed op.name)
      | .batching _ .same => calls.dispatch op
      | .batching size .different => do
          let arguments ← Run.pop 1
          let sizes ← Value.sizesAt arguments op.name 0
          Run.push (.ints ((size :: sizes).map Size.toSigned))
          calls.dispatch op
          wrapResults 1 layer.level

end Batching
end LayeredDispatch
