import LayeredDispatch.Session.State

/-! Steps on tensors and boxed values. -/

namespace LayeredDispatch

/-- A value as a step writes it. -/
inductive ValueSpec where
  | absent
  /-- A named tensor: the same handle, not a copy. -/
  | named (name : String)
  | bool (value : Bool)
  | int (value : Int)
  | float (value : Float)
  | ints (values : List Int)
  /-- A new dense tensor. -/
  | dense (shape : Shape) (data : Array Float)
  | list (items : List ValueSpec)
  deriving Inhabited

mutual
/-- Makes a value. -/
def ValueSpec.build : ValueSpec → Play Value
  | .absent => return .absent
  | .named name => return .tensor (← Play.tensor name)
  | .bool value => return .bool value
  | .int value => return .int value
  | .float value => return .float value
  | .ints values => return .ints values
  | .dense shape data => do
      let storage ← (Storage.ofData shape data : Run Storage)
      return .tensor (← (Run.newDense storage : Run Tensor))
  | .list items => return .list (← ValueSpec.buildAll items)

/-- Makes several values in order. -/
def ValueSpec.buildAll : List ValueSpec → Play (List Value)
  | [] => return []
  | spec :: specs => do
      let value ← spec.build
      let values ← ValueSpec.buildAll specs
      return value :: values
end

/-- As what an argument is read. -/
inductive ArgumentKind where
  | tensor
  | tensors
  | sizes
  | int
  deriving DecidableEq, Inhabited

/-- A step on values. -/
inductive ValueAction where
  /-- The hooks that a value carries. -/
  | capabilities (value : ValueSpec)
  /-- Replaces the tensors of a range of values by scalars that count them. -/
  | mapTensors (values : List ValueSpec) (start stop : Nat)
  /-- The shapes of the tensors of a value. -/
  | eachTensor (value : ValueSpec)
  /-- Takes the last values away. -/
  | pop (values : List ValueSpec) (count : Nat)
  /-- The range of the last values. -/
  | lastRange (values : List ValueSpec) (count : Nat)
  /-- Reads an argument. -/
  | argument (kind : ArgumentKind) (op : String) (values : List ValueSpec) (index : Nat)
  /-- Requires that a range of values is unwrapped. -/
  | requireUnwrapped (op : String) (values : List ValueSpec) (start stop : Nat)

namespace ValueAction

/-- Replaces a tensor by a scalar that counts the dense tensors made since there were `before`. -/
def countFrom (before : Nat) (_ : Tensor) : Run Tensor := do
  let made ← Run.read (·.heap.storages.size)
  Run.newDense (.scalar (Float.ofNat (made - before + 1)))

/-- Plays a step on values. -/
def play : ValueAction → Play Reply
  | .capabilities spec => do
      let value ← spec.build
      return .text (← Play.onHeap fun heap => (value.capabilities heap).render)
  | .mapTensors specs start stop => do
      let values ← ValueSpec.buildAll specs
      let before ← Play.onHeap fun heap => heap.storages.size
      let mapped ← (Run.onValues values (Run.mapRange start stop (countFrom before)) : Run _)
      return .values (← Play.view mapped.2)
  | .eachTensor spec => do
      let value ← spec.build
      return .texts (← Play.onHeap fun heap =>
        value.tensors.map fun tensor => (tensor.shape heap).render)
  | .pop specs count => do
      let values ← ValueSpec.buildAll specs
      let (popped, rest) ← (Run.onValues values (Run.pop count) : Run _)
      return .popped (← Play.view popped) (← Play.view rest)
  | .lastRange specs count => do
      let values ← ValueSpec.buildAll specs
      let (start, _) ← (Run.onValues values (Run.lastStart count) : Run _)
      return .numbers [start, values.length]
  | .argument kind op specs index => do
      let values ← ValueSpec.buildAll specs
      match kind with
      | .tensor => do
          let tensor ← (Value.tensorAt values op index : Run Tensor)
          Play.keep none tensor
      | .tensors => do
          let tensors ← (Value.tensorsAt values op index : Run (List Tensor))
          return .tensors (← Play.onHeap fun heap => tensors.map (TensorView.of heap))
      | .sizes => do
          return .numbers (← (Value.sizesAt values op index : Run (List Size)))
      | .int => do
          return .number (← (Value.intAt values op index : Run Int))
  | .requireUnwrapped op specs start stop => do
      let values ← ValueSpec.buildAll specs
      discard (Run.onValues values (Run.requireUnwrapped op start stop) : Run _)
      return .done

end ValueAction

/-- A step on tensors. -/
inductive TensorAction where
  /-- Makes a dense tensor whose elements must fit its shape. -/
  | ofData (shape : Shape) (data : Array Float) (out? : Option String)
  /-- Makes a dense tensor of zeros. -/
  | zeros (shape : Shape) (out? : Option String)
  /-- Makes a dense tensor whatever its shape and elements are. -/
  | ofStorage (storage : Storage) (out? : Option String)
  /-- Overwrites the shape or the elements of a dense tensor. -/
  | overwrite (name : String) (shape? : Option Shape) (data? : Option (Array Float))
  /-- Tags with a named flag. -/
  | tagged (name : String) (level : Level) (flag : String) (out? : Option String)
  /-- Tags with the flag of a registered level. -/
  | tagAt (name : String) (level : Level) (out? : Option String)
  | batched (name : String) (level : Level) (out? : Option String)
  | underlying (name : String) (out? : Option String)
  | unwrapDead (name : String) (out? : Option String)
  | materializeAt (name : String) (level : Level) (out? : Option String)
  | unwrapAt (name : String) (level : Level) (out? : Option String)
  | view (name : String)
  | details (name : String)
  | refresh (name : String)
  | recordGradFn (name : String) (op : String)
  | same (left right : String)

namespace TensorAction

/-- Plays a step on tensors. -/
def play : TensorAction → Play Reply
  | .ofData shape data out? => do
      let storage ← (Storage.ofData shape data : Run Storage)
      Play.keep out? (← (Run.newDense storage : Run Tensor))
  | .zeros shape out? => do
      let storage ← (Storage.zeros shape : Run Storage)
      Play.keep out? (← (Run.newDense storage : Run Tensor))
  | .ofStorage storage out? => do
      Play.keep out? (← (Run.newDense storage : Run Tensor))
  | .overwrite name shape? data? => do
      match ← Play.tensor name with
      | .dense cell => do
          (Run.onHeap fun heap =>
            let current := heap.storage cell
            heap.setStorage cell
              ⟨shape?.getD current.shape, data?.getD current.data⟩ : Run Unit)
          Play.keep none (.dense cell)
      | _ => throw .malformed
  | .tagged name level flag out? => do
      let tensor ← Play.tensor name
      let flag ← Play.resolve Session.flags flag
      Play.keep out? (← (Run.allocate fun heap => heap.newTagged tensor level flag : Run Tensor))
  | .tagAt name level out? => do
      let tensor ← Play.tensor name
      Play.keep out? (← (Run.tagAt tensor level : Run Tensor))
  | .batched name level out? => do
      let tensor ← Play.tensor name
      Play.keep out? (← (Run.batchAt tensor level : Run Tensor))
  | .underlying name out? => do
      match (← Play.tensor name).underlying? with
      | some value => Play.keep out? value
      | none => return .done
  | .unwrapDead name out? => do
      let tensor ← Play.tensor name
      Play.keep out? (← (Run.unwrapDead tensor : Run Tensor))
  | .materializeAt name level out? => do
      let tensor ← Play.tensor name
      Play.keep out? (← (Run.materializeAt tensor level : Run Tensor))
  | .unwrapAt name level out? => do
      let tensor ← Play.tensor name
      Play.keep out? (← (Run.unwrapAt tensor level : Run Tensor))
  | .view name => do
      Play.keep none (← Play.tensor name)
  | .details name => do
      let tensor ← Play.tensor name
      return .details (← Play.onHeap fun heap => {
        capabilities := tensor.capabilities heap
        shape := tensor.shape heap
        data := tensor.data heap
        level? := tensor.taggedLevel?
        text := tensor.render heap })
  | .refresh name => do
      let tensor ← Play.tensor name
      (Run.onHeap fun heap => heap.refresh tensor : Run Unit)
      match tensor.taggedLevel? with
      | some _ => return .dims (some (← Play.onHeap fun heap => (tensor.shape heap).dims))
      | none => return .dims none
  | .recordGradFn name op => do
      let tensor ← Play.tensor name
      (Run.onHeap fun heap => heap.recordGradFn op tensor : Run Unit)
      return .optionalText (tensor.taggedLevel?.map fun _ => op)
  | .same left right => do
      return .flag ((← Play.tensor left).isSame (← Play.tensor right))

end TensorAction
end LayeredDispatch
