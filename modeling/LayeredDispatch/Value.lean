import LayeredDispatch.Tensor.Basic

/-! Boxed values: what operators consume and produce, and reading the arguments of a call as what a
kernel expects; `op` and `index` are named in a refusal.
-/

namespace LayeredDispatch

-----------------------------------------------------------------------------------------
-- Values and their tensors
-----------------------------------------------------------------------------------------

/-- An argument or a result. -/
inductive Value where
  /-- An optional value that is not given. -/
  | absent
  | bool (value : Bool)
  | int (value : Int)
  | float (value : Float)
  | ints (values : List Int)
  | tensor (tensor : Tensor)
  | list (items : List Value)
  deriving Inhabited

namespace Value

/-- The tensor, if the value is one. -/
def tensor? : Value → Option Tensor
  | .tensor handle => some handle
  | _ => none

mutual
/-- The tensors of a value in order, members of nested lists included. -/
def tensors : Value → List Tensor
  | .tensor handle => [handle]
  | .list items => tensorsAll items
  | _ => []

/-- The tensors of several values in order. -/
def tensorsAll : List Value → List Tensor
  | [] => []
  | value :: values => value.tensors ++ tensorsAll values
end

mutual
/-- The hooks that a value carries, members of nested lists included. -/
def capabilities (heap : Heap) : Value → CapabilitySet
  | .tensor handle => handle.capabilities heap
  | .list items => carried heap items
  | _ => .only .backend

/-- The hooks that several values carry, and in any case the base operators. -/
def carried (heap : Heap) : List Value → CapabilitySet
  | [] => .only .backend
  | value :: values => value.capabilities heap ∪ carried heap values
end

mutual
/-- Replaces the tensors of a value one after another, members of nested lists included. -/
def mapTensorsM [Monad m] (replace : Tensor → m Tensor) : Value → m Value
  | .tensor handle => return .tensor (← replace handle)
  | .list items => return .list (← mapTensorsAllM replace items)
  | .absent => return .absent
  | .bool value => return .bool value
  | .int value => return .int value
  | .float value => return .float value
  | .ints values => return .ints values

/-- Replaces the tensors of several values one after another. -/
def mapTensorsAllM [Monad m] (replace : Tensor → m Tensor) : List Value → m (List Value)
  | [] => return []
  | value :: values => do
      let replaced ← value.mapTensorsM replace
      let rest ← mapTensorsAllM replace values
      return replaced :: rest
end

end Value

-----------------------------------------------------------------------------------------
-- Arguments
-----------------------------------------------------------------------------------------

namespace Value

/-- Argument `index` as a tensor. -/
def tensorAt (arguments : List Value) (op : String) (index : Nat) : Outcome Tensor :=
  match arguments[index]? with
  | some (.tensor handle) => .ok handle
  | _ => Outcome.fail (.invalidArgument op index .expectedTensor)

/-- Argument `index` as a list of tensors. -/
def tensorsAt (arguments : List Value) (op : String) (index : Nat) : Outcome (List Tensor) :=
  match arguments[index]? with
  | some (.list items) =>
      items.mapM fun item =>
        match item with
        | .tensor handle => .ok handle
        | _ => Outcome.fail (.invalidArgument op index .expectedTensorList)
  | _ => Outcome.fail (.invalidArgument op index .expectedTensorList)

/-- Argument `index` as a list of sizes. -/
def sizesAt (arguments : List Value) (op : String) (index : Nat) : Outcome (List Size) :=
  match arguments[index]? with
  | some (.ints sizes) =>
      sizes.mapM fun size =>
        if 0 ≤ size then .ok size.toNat
        else Outcome.fail (.invalidArgument op index (.negativeSize size))
  | _ => Outcome.fail (.invalidArgument op index .expectedSizes)

/-- Argument `index` as an integer. -/
def intAt (arguments : List Value) (op : String) (index : Nat) : Outcome Int :=
  match arguments[index]? with
  | some (.int value) => .ok value
  | _ => Outcome.fail (.invalidArgument op index .expectedInteger)

end Value
end LayeredDispatch
