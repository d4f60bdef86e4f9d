import LayeredDispatch.Session.Values

/-! Steps on the dispatcher: operators, kernels of simple behaviour, and calls. -/

namespace LayeredDispatch

/-- A kernel as a step describes it. -/
inductive KernelSpec where
  | entryInterceptor
  | exitInterceptor
  | deadWrapperFallback
  | differentiationBody
  /-- Replaces the arguments by scalars of one value, one for each return slot. -/
  | marker (value : Float)
  /-- Keeps as many arguments, from the first one on, as there are return slots. -/
  | echo
  /-- Replaces the arguments by a list of them. -/
  | listify
  /-- Takes the arguments away. -/
  | drop
  /-- Leaves everything as it is. -/
  | idle
  /-- Puts a scalar on top. -/
  | push (value : Float)
  /-- Takes the outermost tag off every tensor argument, and ends there. -/
  | untag
  /-- Replaces the arguments by the modes, the number of layers and the named bits of the
  overlay. -/
  | probe
  /-- Dispatches again with hooks hidden and forced on. -/
  | forward (hidden forced : CapabilitySet)
  /-- Dispatches another operator on the same values. -/
  | other (name : String)
  /-- Fails with an error of the given wording. -/
  | fail (reason : String)
  /-- Ends with a fault of the given wording. -/
  | fault (message : String)
  deriving Inhabited

namespace KernelSpec

/-- Puts scalars of one value on top. -/
def pushScalars (value : Float) : Nat → Run Unit
  | 0 => return
  | count + 1 => do
      Run.pushTensor (← Run.newDense (.scalar value))
      pushScalars value count

/-- The state that a probing kernel reports. -/
def probeState (machine : Machine) : List Int :=
  let flag (value : Bool) : Int := if value then 1 else 0
  let named (set : CapabilitySet) : Int := (set.bits.toNat % 256 : Nat)
  [flag machine.thread.grad, flag machine.thread.forwardGrad, machine.thread.layers.length,
    named machine.thread.overlay.included, named machine.thread.overlay.excluded]

/-- The behaviour that a description stands for. -/
def behave (calls : Calls) (op : Schema) : KernelSpec → Run Unit
  | .entryInterceptor => LayeredDispatch.entryInterceptor.run calls op
  | .exitInterceptor => LayeredDispatch.exitInterceptor.run calls op
  | .deadWrapperFallback => LayeredDispatch.deadWrapperFallback.run calls op
  | .differentiationBody => LayeredDispatch.differentiationBody.run calls op
  | .marker value => do
      discard (Run.pop op.arity)
      pushScalars value op.resultCount
  | .echo => do
      let arguments ← Run.pop op.arity
      Run.pushAll (arguments.take op.resultCount)
  | .listify => do
      let arguments ← Run.pop op.arity
      Run.push (.list arguments)
  | .drop => discard (Run.pop op.arity)
  | .idle => return
  | .push value => pushScalars value 1
  | .untag =>
      Run.mapLast op.arity fun tensor =>
        match tensor with
        | .tagged _ _ _ value => return value
        | bare => return bare
  | .probe => do
      discard (Run.pop op.arity)
      Run.push (.ints (← Run.read probeState))
  | .forward hidden forced =>
      Run.holding (Guard.hide hidden) <|
        Run.holding (Guard.forceOn forced) (calls.dispatch op)
  | .other name => do
      let found ← calls.require name
      calls.dispatch found
  | .fail reason => Run.fail (.invalidArgument op.name 0 (.stated reason))
  | .fault message => Run.fault (.stated message)

/-- The kernel that a description stands for. -/
def kernel (spec : KernelSpec) : Kernel where
  name := "Described"
  run calls op := spec.behave calls op

end KernelSpec

/-- Parts that can be installed on a dispatcher. -/
inductive Installable where
  | operators
  | interceptors
  | differentiation
  | batching
  | everything
  deriving DecidableEq, Inhabited

/-- The assembly of a part. -/
def Installable.assemble : Installable → Assemble Unit
  | .operators => Assemble.operators
  | .interceptors => Assemble.interceptors
  | .differentiation => Assemble.differentiation
  | .batching => Assemble.batching
  | .everything => Assemble.everything

/-- A typed call of a base operator; tensors are given by name. -/
inductive TypedCall where
  | add (left right : String)
  | mul (left right : String)
  | neg (input : String)
  | sum (input : String)
  | addAll (inputs : List ValueSpec)
  | unsqueeze (input : String) (dim : Int)
  | zeros (sizes : List Int)
  | rand (sizes : List Int)
  | addInPlace (target other : String)
  | resizeInPlace (target : String) (sizes : List Int)

/-- Makes a typed call. -/
def TypedCall.play (dispatcher : Dispatcher) : TypedCall → Play Tensor
  | .add left right => do
      let first ← Play.tensor left
      let second ← Play.tensor right
      (dispatcher.add first second : Run Tensor)
  | .mul left right => do
      let first ← Play.tensor left
      let second ← Play.tensor right
      (dispatcher.mul first second : Run Tensor)
  | .neg input => do
      let tensor ← Play.tensor input
      (dispatcher.neg tensor : Run Tensor)
  | .sum input => do
      let tensor ← Play.tensor input
      (dispatcher.sum tensor : Run Tensor)
  | .addAll inputs => do
      let values ← ValueSpec.buildAll inputs
      (dispatcher.addAll (values.filterMap Value.tensor?) : Run Tensor)
  | .unsqueeze input dim => do
      let tensor ← Play.tensor input
      (dispatcher.unsqueeze tensor dim : Run Tensor)
  | .zeros sizes => (dispatcher.zeros sizes : Run Tensor)
  | .rand sizes => (dispatcher.rand sizes : Run Tensor)
  | .addInPlace target other => do
      let first ← Play.tensor target
      let second ← Play.tensor other
      (dispatcher.addInPlace first second : Run Tensor)
  | .resizeInPlace target sizes => do
      let tensor ← Play.tensor target
      (dispatcher.resizeInPlace tensor sizes : Run Tensor)

/-- A step on the dispatcher. -/
inductive OperatorAction where
  | registerOperator (schema : Schema)
  | registerKernel (name : String) (capability : Capability) (kernel : KernelSpec)
  | registerFallback (capability : Capability) (kernel : KernelSpec)
  | install (part : Installable)
  | describe (name : String)
  | dispatcher
  | dispatchSet (name : String) (values : List ValueSpec)
  /-- Calls an operator and names its results in order, those that are tensors. -/
  | call (name : String) (arguments : List ValueSpec) (outs : List String)
  /-- Calls an operator on boxed values and shows what it leaves. -/
  | callBoxed (name : String) (values : List ValueSpec)
  | typedCall (call : TypedCall) (out? : Option String)

namespace OperatorAction

/-- The report text of an operator. -/
def renderOperator (schema : Schema) : String :=
  "OperatorHandle(" ++ schema.render ++ ")"

/-- Ends with an error. -/
def fail (error : DispatchError) : Play α :=
  throw (.exit (.error error))

/-- The schema of an operator. -/
def schemaOf (name : String) : Play Schema := do
  match (← get).dispatcher.schema? name with
  | some schema => return schema
  | none => fail (.unknownOperator name)

/-- Assembles a part onto the dispatcher; what was done before an error stays. -/
def installPart (part : Installable) : Play Unit := do
  let session ← get
  let conclude (assembly : Assembly) : Play Unit := do
    modify fun session => { session with dispatcher := assembly.dispatcher }
    (assembly.events.forM Run.log : Run Unit)
  match part.assemble { dispatcher := session.dispatcher } with
  | .ok _ assembly => conclude assembly
  | .error error assembly => do
      conclude assembly
      fail error

/-- Names the tensors among results, pairing names and results in order. -/
def keepResults (outs : List String) (results : List Value) : Play Unit :=
  (outs.zip results).forM fun (out, result) =>
    match result with
    | .tensor handle =>
        modify fun session => { session with tensors := session.tensors.define out handle }
    | _ => return

/-- Plays a step on the dispatcher. -/
def play : OperatorAction → Play Reply
  | .registerOperator schema => do
      modify fun session =>
        { session with dispatcher := session.dispatcher.registerOperator schema }
      return .text (renderOperator (← schemaOf schema.name))
  | .registerKernel name capability spec => do
      match (← get).dispatcher.registerKernel name capability spec.kernel with
      | .ok extended => do
          modify fun session => { session with dispatcher := extended }
          return .done
      | .error error => fail error
  | .registerFallback capability spec => do
      modify fun session =>
        { session with dispatcher := session.dispatcher.registerFallback capability spec.kernel }
      return .done
  | .install part => do
      installPart part
      return .done
  | .describe name => do
      let schema ← schemaOf name
      return .texts [schema.name, schema.render, renderOperator schema]
  | .dispatcher => return .text (← get).dispatcher.render
  | .dispatchSet name specs => do
      let schema ← schemaOf name
      let values ← ValueSpec.buildAll specs
      let (set, _) ← (Run.onValues values (Dispatcher.dispatchSet schema) : Run _)
      return .text set.render
  | .call name specs outs => do
      let arguments ← ValueSpec.buildAll specs
      let dispatcher := (← get).dispatcher
      let results ← (dispatcher.call name arguments : Run (List Value))
      keepResults outs results
      return .values (← Play.view results)
  | .callBoxed name specs => do
      let schema ← schemaOf name
      let values ← ValueSpec.buildAll specs
      let dispatcher := (← get).dispatcher
      let (result, left) ←
        (Run.onValues values (Run.attempt (dispatcher.dispatch schema)) : Run _)
      let error? :=
        match result with
        | .ok _ => none
        | .error error => some error
      return .boxed (← Play.view left) error?
  | .typedCall typed out? => do
      let session ← get
      Play.keep out? (← typed.play (session.typed?.getD session.dispatcher))

end OperatorAction
end LayeredDispatch
