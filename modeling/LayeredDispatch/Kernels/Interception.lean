import LayeredDispatch.Dispatcher.Basic
import LayeredDispatch.Guard
import LayeredDispatch.Wrapping

/-! The kernels around every layer, and the body of differentiation layers. The entry interceptor hands
a call to the body of the top layer; the exit interceptor hands a call that the body issued to the layer
below, or to the base operators if there is none; and outside all layers dead tags are taken off.
-/

namespace LayeredDispatch

-----------------------------------------------------------------------------------------
-- Interceptors
-----------------------------------------------------------------------------------------

/-- Under differentiation an in-place operator must write to a value tagged at the top level: any
other value was captured from outside, and writing to it would corrupt results silently. -/
def refuseCapturedMutation (op : Schema) (layer : Layer) : Run Unit := do
  if layer.kind = .differentiation ∧ op.isInPlace then
    let arguments ← Run.peek op.arity
    let written? ← (arguments.head?.bind Value.tensor?).mapM Run.unwrapDead
    if written?.bind Tensor.taggedLevel? ≠ some layer.level then
      Run.log (.rejectedMutation op.name layer.level)
      Run.fail (.capturedMutation op.name)

/-- What the entry interceptor makes of a tensor argument: dead tags are taken off, and under
differentiation the value is tagged at the level of the layer. -/
def receive (layer : Layer) (tensor : Tensor) : Run Tensor := do
  let bare ← Run.unwrapDead tensor
  match layer.kind with
  | .differentiation => Run.materializeAt bare layer.level
  | .batching => return bare

/-- Hands a call to the top layer. -/
def entryInterceptor : Kernel where
  name := "EntryInterceptor"
  run calls op := do
    match ← Run.topLayer? with
    | none => Run.fault (.entryWithoutLayer op.name)
    | some layer =>
        Run.logDispatch (.entering op.name (← Run.renderLayers))
        refuseCapturedMutation op layer
        Run.mapLast op.arity (receive layer)
        let overlay ← Run.read (·.thread.overlay)
        Run.holding (Guard.replaceOverlay (layer.kind.entryOverlay overlay)) (calls.dispatch op)

/-- The overlay under which a call continues below `layer`, which has been popped: at the base the
one saved when the layer was built, above it the present one with the entry interceptor reachable
again. -/
def overlayBelow (op : Schema) (layer : Layer) : Run Overlay := do
  if (← Run.layerCount) = 0 then
    if (← Run.read (·.settings.checkUnwrapped)) then
      let start ← Run.lastStart op.arity
      Run.requireUnwrapped op.name start (start + op.arity)
    Run.logDispatch (.leaving op.name)
    return layer.saved
  else return (← Run.read (·.thread.overlay)).front

/-- Continues a call below the top layer, which is hidden meanwhile together with the gradient modes
that were off outside it. -/
def dispatchBelow (calls : Calls) (op : Schema) (layer : Layer) : Run Unit :=
  Run.holding Guard.hideTop <|
    Run.holdingIf (layer.transform.priorGrad? = some false) (Guard.gradMode false) <|
      Run.holdingIf (layer.transform.priorForwardGrad? = some false)
          (Guard.forwardGradMode false) do
        let overlay ← overlayBelow op layer
        Run.holding (Guard.replaceOverlay overlay) do
          calls.dispatch op
          if (← Run.layerCount) = 0 then Run.logDispatch (.reentering op.name)

/-- Puts a copy of the arguments on top, without the tags of `level`. -/
def copyUntagged (op : Schema) (level : Level) : Run Unit := do
  Run.pushAll (← Run.peek op.arity)
  Run.mapLast op.arity fun tensor => Run.unwrapAt tensor level

/-- Tags the results at `level`, looks again at the shapes of the tagged arguments below them, which
the call may have resized, and drops these arguments. -/
def tagResults (op : Schema) (level : Level) : Run Unit := do
  let stop ← Run.lastStart op.resultCount
  Run.mapRange stop (stop + op.resultCount) fun tensor => Run.tagAt tensor level
  let start ← Outcome.orFault (Size.sub? stop op.arity) .overflow
  let values ← Run.read Machine.values
  Run.forTensors ((values.take stop).drop start) fun tensor =>
    Run.onHeap fun heap => heap.refresh tensor
  modify fun machine =>
    { machine with values := machine.values.take start ++ machine.values.drop stop }

/-- Hands a call from the body of the top layer to the layer below. -/
def exitInterceptor : Kernel where
  name := "ExitInterceptor"
  run calls op := do
    let layer ← Run.currentLayer
    match layer.kind with
    | .batching => dispatchBelow calls op layer
    | .differentiation => do
        copyUntagged op layer.level
        dispatchBelow calls op layer
        tagResults op layer.level

/-- Takes dead tags off the arguments and dispatches again. A live tag here comes from a layer that
is not active. -/
def deadWrapperFallback : Kernel where
  name := "DeadWrapperFallback"
  run calls op := do
    Run.mapLast op.arity fun tensor => do
      let bare ← Run.unwrapDead tensor
      match bare.taggedLevel? with
      | some level => Run.fault (.liveOutside level op.name)
      | none => return bare
    calls.dispatch op

-----------------------------------------------------------------------------------------
-- The body of differentiation layers
-----------------------------------------------------------------------------------------

/-- Hides the hooks of the layer, hands the call down, and records which operator produced each
result tagged at the level of the layer, if history was recorded when the body started. -/
def differentiationBody : Kernel where
  name := "DifferentiationBody"
  run calls op := do
    let layer ← Run.currentLayer
    let recording ← Run.read (·.thread.grad)
    Run.holding (Guard.hide TransformKind.differentiation.owned) (calls.dispatch op)
    if recording then
      Run.forTensors (← Run.peek op.resultCount) fun tensor => do
        if tensor.taggedLevel? = some layer.level then
          Run.onHeap fun heap => heap.recordGradFn op.name tensor

end LayeredDispatch
