import LayeredDispatch.Guard

/-! What a session shows of its state: tensors, values and layers as they are at one moment, and the
answers to its steps. -/

namespace LayeredDispatch

/-- A tensor as it is at one moment. -/
inductive TensorView where
  | dense (storage : Storage)
  | tagged (level : Level) (alive : Bool) (shape : Shape) (gradFn? : Option String)
      (value : TensorView)
  | batched (level : Level) (size : Size) (shape : Shape) (value : TensorView)
  deriving Inhabited

/-- Looks at a tensor. A tag shows the shape that it reports. -/
def TensorView.of (heap : Heap) : Tensor → TensorView
  | .dense cell => .dense (heap.storage cell)
  | .tagged cell level flag value =>
      .tagged level (heap.isAlive flag) ((Tensor.tagged cell level flag value).shape heap)
        (heap.wrapper cell).gradFn (TensorView.of heap value)
  | .batched _ level value =>
      .batched level (value.batchSize heap) (value.shape heap).dropLeading
        (TensorView.of heap value)

/-- A value as it is at one moment. -/
inductive ValueView where
  | absent
  | bool (value : Bool)
  | int (value : Int)
  | float (value : Float)
  | ints (values : List Int)
  | tensor (view : TensorView)
  | list (items : List ValueView)
  deriving Inhabited

mutual
/-- Looks at a value. -/
def ValueView.of (heap : Heap) : Value → ValueView
  | .absent => .absent
  | .bool value => .bool value
  | .int value => .int value
  | .float value => .float value
  | .ints values => .ints values
  | .tensor handle => .tensor (TensorView.of heap handle)
  | .list items => .list (ValueView.ofAll heap items)

/-- Looks at several values. -/
def ValueView.ofAll (heap : Heap) : List Value → List ValueView
  | [] => []
  | value :: values => ValueView.of heap value :: ValueView.ofAll heap values
end

/-- What every answer shows of the state after its step. -/
structure StateView where
  /-- The active layers. -/
  layers : String
  /-- The overlay. -/
  overlay : String
  /-- The registered levels. -/
  levels : List Level
  /-- Whether history is recorded. -/
  grad : Bool
  /-- Whether forward tangents are propagated. -/
  forwardGrad : Bool
  deriving Inhabited

/-- Looks at the state. -/
def StateView.of (machine : Machine) : StateView where
  layers := Layer.renderStack machine.thread.layers.reverse
  overlay := machine.thread.overlay.render
  levels := machine.registry.levels
  grad := machine.thread.grad
  forwardGrad := machine.thread.forwardGrad

/-- Why a step has no result. -/
inductive Refusal where
  /-- The step ended without a value. -/
  | exit (exit : Exit)
  /-- The step names something that is not there, or not of the right kind. -/
  | malformed
  /-- The step has a part that cannot be read. -/
  | unreadable
  deriving DecidableEq, Inhabited

/-- How a scope was left. -/
inductive Departure where
  | normal
  | error
  | fault
  deriving DecidableEq, Inhabited

/-- What a tensor shows in detail. -/
structure TensorDetails where
  /-- The hooks that it carries. -/
  capabilities : CapabilitySet
  /-- Its logical shape. -/
  shape : Shape
  /-- Its elements. -/
  data : Array Float
  /-- The level of its tag. -/
  level? : Option Level
  /-- Its report text. -/
  text : String

mutual
/-- The result of a step. -/
inductive Reply where
  | done
  | refused (refusal : Refusal)
  | flag (value : Bool)
  | flags (first second : Bool)
  | number (value : Int)
  | numbers (values : List Nat)
  | text (text : String)
  | optionalText (text? : Option String)
  | texts (texts : List String)
  | tensor (view : TensorView)
  | tensors (views : List TensorView)
  | values (views : List ValueView)
  | details (details : TensorDetails)
  | dims (dims? : Option (List Size))
  /-- Values taken away and values left. -/
  | popped (popped rest : List ValueView)
  /-- Values left by a call, and how it failed. -/
  | boxed (values : List ValueView) (error? : Option DispatchError)
  /-- Whether a flag is alive, and its text. -/
  | liveness (alive : Bool) (text : String)
  | layer (layer : Layer)
  | noLayer
  | layers (layers : List Layer)
  | layerCount (count : Nat) (empty : Bool) (levels : List Level)
  | context (text : String) (layers : Nat)
  /-- The overlays between which the interceptors switch. -/
  | overlays (family owned : CapabilitySet) (zeroed entry front : Overlay)
  /-- A layer scope, with the level of its layer. -/
  | layerScope (departure : Departure) (level : Level) (steps : List Answer)
  /-- A recorded scope, with the traces found and whether recording goes on around it. -/
  | recordScope (departure : Departure) (steps : List Answer) (roots : List String)
      (recording : Bool)
  /-- A scope inside a node of the trace, and whether the node was opened. -/
  | spanScope (departure : Departure) (steps : List Answer) (opened : Bool)
  /-- A thread, with its state before and after its steps. -/
  | thread (before : StateView) (steps : List Answer) (after : StateView)

/-- The answer to a step. -/
inductive Answer where
  /-- The result, the state after the step, the traces of the step if they were asked for, and the
  log lines since the answer before. -/
  | mk (reply : Reply) (state : StateView) (traces? : Option (List String)) (log : List String)
end

instance : Inhabited Reply := ⟨.done⟩

instance : Inhabited Answer := ⟨.mk .done default none []⟩

/-- Whether a step has no result. -/
def Answer.isRefused : Answer → Bool
  | .mk (.refused _) .. => true
  | _ => false

end LayeredDispatch
