import LayeredDispatch.Dispatcher.Basic
import LayeredDispatch.Storage.Arithmetic
import LayeredDispatch.Value
import LayeredDispatch.Wrapping

/-! The base operators: their schemas and their kernels on dense tensors. -/

namespace LayeredDispatch
namespace Base

/-- A tensor slot. -/
def tensorSlot (name : String) : Slot :=
  { name, type := .tensor }

/-- An operator on two tensors. -/
def binarySchema (name : String) : Schema :=
  { name, arguments := [tensorSlot "self", tensorSlot "other"], returns := [tensorSlot "out"] }

/-- An operator on one tensor. -/
def unarySchema (name : String) : Schema :=
  { name, arguments := [tensorSlot "self"], returns := [tensorSlot "out"] }

/-- An operator that makes a tensor of a given size. -/
def factorySchema (name : String) : Schema :=
  { name, arguments := [{ name := "size", type := .intList }], returns := [tensorSlot "out"] }

/-- The schemas of the base operators. -/
def schemas : List Schema :=
  [ binarySchema "add",
    binarySchema "mul",
    unarySchema "neg",
    unarySchema "sum",
    { name := "add_n", arguments := [{ name := "tensors", type := .tensorList }],
      returns := [tensorSlot "out"] },
    { name := "unsqueeze", arguments := [tensorSlot "self", { name := "dim", type := .int }],
      returns := [tensorSlot "out"] },
    factorySchema "zeros",
    factorySchema "rand",
    { name := "add_", arguments := [(tensorSlot "self").mutating 'a', tensorSlot "other"],
      returns := [(tensorSlot "out").mutating 'a'] },
    { name := "resize_",
      arguments := [(tensorSlot "self").mutating 'a', { name := "size", type := .intList }],
      returns := [(tensorSlot "out").mutating 'a'] } ]

-----------------------------------------------------------------------------------------
-- Kernels
-----------------------------------------------------------------------------------------

/-- The storage of a tensor, which must be dense. -/
def storageOf (tensor : Tensor) (op : String) (index : Nat) : Run Storage := do
  match tensor with
  | .dense cell => Run.read fun machine => machine.heap.storage cell
  | _ => Run.fail (.invalidArgument op index .expectedDense)

/-- The storage of argument `index`, which must be a dense tensor. -/
def denseAt (arguments : List Value) (op : String) (index : Nat) : Run Storage := do
  storageOf (← Value.tensorAt arguments op index) op index

/-- Puts a new dense tensor on top. -/
def pushDense (storage : Storage) : Run Unit := do
  Run.pushTensor (← Run.newDense storage)

/-- An element-wise operator on two tensors. -/
def binary (name : String) (combine : Float → Float → Float) : Kernel where
  name := name
  run _ op := do
    let arguments ← Run.pop 2
    let left ← denseAt arguments op.name 0
    let right ← denseAt arguments op.name 1
    pushDense (← Storage.broadcastBinary op.name left right combine)

/-- Negates every element. -/
def neg : Kernel where
  name := "Neg"
  run _ op := do
    let arguments ← Run.pop 1
    let input ← denseAt arguments op.name 0
    pushDense (input.map fun element => -element)

/-- Adds up all elements. -/
def sum : Kernel where
  name := "Sum"
  run _ op := do
    let arguments ← Run.pop 1
    let input ← denseAt arguments op.name 0
    pushDense (.scalar input.sum)

/-- Adds up the tensors of a list, which must not be empty. -/
def addAll : Kernel where
  name := "AddAll"
  run _ op := do
    let arguments ← Run.pop 1
    match ← Value.tensorsAt arguments op.name 0 with
    | [] => Run.fail (.invalidArgument op.name 0 .expectedNonempty)
    | first :: others => do
        let start ← storageOf first op.name 0
        let total ← others.foldlM (fun (total : Storage) tensor => do
          let next ← storageOf tensor op.name 0
          (Storage.broadcastBinary op.name total next (· + ·) : Outcome Storage)) start
        pushDense total

/-- Inserts a dimension of size one. -/
def unsqueeze : Kernel where
  name := "Unsqueeze"
  run _ op := do
    let arguments ← Run.pop 2
    let input ← denseAt arguments op.name 0
    let dim ← Value.intAt arguments op.name 1
    match if 0 ≤ dim then input.shape.unsqueeze? dim.toNat else none with
    | some shape => pushDense { input with shape }
    | none =>
        Run.fail (.invalidArgument op.name 1 (.dimOutOfRange dim input.shape.rank))

/-- Makes a tensor of zeros. -/
def zeros : Kernel where
  name := "Zeros"
  run _ op := do
    let arguments ← Run.pop 1
    let sizes ← Value.sizesAt arguments op.name 0
    pushDense (← Storage.zeros ⟨sizes⟩)

/-- Draws numbers from the generator of the running thread. -/
def drawUniform (count : Size) : Run (List Float) := do
  Outcome.checkCapacity count
  let (numbers, generator) := (← Run.read (·.thread.generator)).draw count
  Run.onThread fun thread => { thread with generator }
  return numbers

/-- Makes a tensor of random numbers from the unit interval. -/
def rand : Kernel where
  name := "Rand"
  run _ op := do
    let arguments ← Run.pop 1
    let shape : Shape := ⟨← Value.sizesAt arguments op.name 0⟩
    let count ← Outcome.orFault shape.numel? .overflow
    let numbers ← drawUniform count
    pushDense ⟨shape, numbers.toArray⟩

/-- Adds to a tensor in place. The sum may not outgrow the target. -/
def addInPlace : Kernel where
  name := "AddInPlace"
  run _ op := do
    let arguments ← Run.pop 2
    let target ← Value.tensorAt arguments op.name 0
    let other ← denseAt arguments op.name 1
    let current ← storageOf target op.name 0
    let updated ← Storage.broadcastBinary op.name current other (· + ·)
    if updated.shape = current.shape then
      Run.onHeap fun heap => heap.setStorage target.baseCell updated
      Run.pushTensor target
    else Run.fail (.shapeMismatch op.name current.shape other.shape)

/-- Changes the shape of a tensor in place. -/
def resizeInPlace : Kernel where
  name := "ResizeInPlace"
  run _ op := do
    let arguments ← Run.pop 2
    let target ← Value.tensorAt arguments op.name 0
    let shape : Shape := ⟨← Value.sizesAt arguments op.name 1⟩
    let current ← storageOf target op.name 0
    let resized ← current.resize shape
    Run.onHeap fun heap => heap.setStorage target.baseCell resized
    Run.pushTensor target

end Base
end LayeredDispatch
