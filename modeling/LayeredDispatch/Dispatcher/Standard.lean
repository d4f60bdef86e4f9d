import LayeredDispatch.Kernels.Base
import LayeredDispatch.Kernels.Batching
import LayeredDispatch.Kernels.Interception

/-! The standard dispatcher, assembled from the base operators, the interceptors, and the bodies of
both transforms. -/

namespace LayeredDispatch

/-- A dispatcher being assembled, with what there is to log about it. -/
structure Assembly where
  /-- The dispatcher so far. -/
  dispatcher : Dispatcher := {}
  /-- Events, oldest first. -/
  events : List Event := []

/-- A step of an assembly. One that fails leaves what was done before it in place. -/
abbrev Assemble := EStateM DispatchError Assembly

namespace Assemble

/-- Adds an event. -/
def log (event : Event) : Assemble Unit :=
  modify fun assembly => { assembly with events := assembly.events ++ [event] }

/-- Registers an operator. -/
def operator (schema : Schema) : Assemble Unit :=
  modify fun assembly =>
    { assembly with dispatcher := assembly.dispatcher.registerOperator schema }

/-- Registers the kernel of an operator. -/
def kernel (name : String) (capability : Capability) (kernel : Kernel) : Assemble Unit := do
  let assembly ← get
  match assembly.dispatcher.registerKernel name capability kernel with
  | .ok dispatcher => set { assembly with dispatcher }
  | .error error => throw error

/-- Registers a fallback. -/
def fallback (capability : Capability) (kernel : Kernel) : Assemble Unit :=
  modify fun assembly =>
    { assembly with dispatcher := assembly.dispatcher.registerFallback capability kernel }

/-- The base operators and their kernels. -/
def operators : Assemble Unit := do
  Base.schemas.forM operator
  kernel "add" .backend (Base.binary "Add" (· + ·))
  kernel "mul" .backend (Base.binary "Mul" (· * ·))
  kernel "neg" .backend Base.neg
  kernel "sum" .backend Base.sum
  kernel "add_n" .backend Base.addAll
  kernel "unsqueeze" .backend Base.unsqueeze
  kernel "zeros" .backend Base.zeros
  kernel "rand" .backend Base.rand
  kernel "add_" .backend Base.addInPlace
  kernel "resize_" .backend Base.resizeInPlace
  log (.registeredOperators Base.schemas.length)

/-- The interceptors around layers and the fallback for dead tags. -/
def interceptors : Assemble Unit := do
  fallback .entryInterceptor entryInterceptor
  fallback .exitInterceptor exitInterceptor
  fallback .taggedWrapper deadWrapperFallback
  log .installedInterceptors

/-- The body of differentiation layers. -/
def differentiation : Assemble Unit :=
  fallback .differentiation differentiationBody

/-- The bodies of batching layers. -/
def batching : Assemble Unit := do
  kernel "add" .batched Batching.pointwise
  kernel "mul" .batched Batching.pointwise
  kernel "neg" .batched Batching.pointwise
  kernel "unsqueeze" .batched Batching.unsqueeze
  kernel "add_" .batched Batching.addInPlace
  kernel "rand" .batchMode Batching.random
  fallback .batched Batching.missingRule

/-- Everything. -/
def everything : Assemble Unit := do
  operators
  interceptors
  differentiation
  batching

end Assemble

/-- The dispatcher with everything installed. -/
def Dispatcher.standard : Dispatcher :=
  match Assemble.everything {} with
  | .ok _ assembly => assembly.dispatcher
  | .error _ assembly => assembly.dispatcher

namespace Dispatcher

/-- The sum of two tensors. -/
def add (dispatcher : Dispatcher) (left right : Tensor) : Run Tensor :=
  dispatcher.callTensor "add" [.tensor left, .tensor right]

/-- The product of two tensors, element by element. -/
def mul (dispatcher : Dispatcher) (left right : Tensor) : Run Tensor :=
  dispatcher.callTensor "mul" [.tensor left, .tensor right]

/-- The negated tensor. -/
def neg (dispatcher : Dispatcher) (input : Tensor) : Run Tensor :=
  dispatcher.callTensor "neg" [.tensor input]

/-- The sum of all elements. -/
def sum (dispatcher : Dispatcher) (input : Tensor) : Run Tensor :=
  dispatcher.callTensor "sum" [.tensor input]

/-- The sum of a list of tensors. -/
def addAll (dispatcher : Dispatcher) (inputs : List Tensor) : Run Tensor :=
  dispatcher.callTensor "add_n" [.list (inputs.map Value.tensor)]

/-- The tensor with a dimension of size one inserted. -/
def unsqueeze (dispatcher : Dispatcher) (input : Tensor) (dim : Int) : Run Tensor :=
  dispatcher.callTensor "unsqueeze" [.tensor input, .int dim]

/-- A tensor of zeros. -/
def zeros (dispatcher : Dispatcher) (sizes : List Int) : Run Tensor :=
  dispatcher.callTensor "zeros" [.ints sizes]

/-- A tensor of random numbers. -/
def rand (dispatcher : Dispatcher) (sizes : List Int) : Run Tensor :=
  dispatcher.callTensor "rand" [.ints sizes]

/-- Adds to a tensor in place and gives its handle as the caller's layer sees it. -/
def addInPlace (dispatcher : Dispatcher) (target other : Tensor) : Run Tensor :=
  dispatcher.callTensor "add_" [.tensor target, .tensor other]

/-- Changes the shape of a tensor in place. -/
def resizeInPlace (dispatcher : Dispatcher) (target : Tensor) (sizes : List Int) : Run Tensor :=
  dispatcher.callTensor "resize_" [.tensor target, .ints sizes]

end Dispatcher
end LayeredDispatch
