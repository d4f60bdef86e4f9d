import LayeredDispatch.Kernels.Base
import LayeredDispatch.Proofs.Dispatch.Selection
import LayeredDispatch.Proofs.Dispatch.ValueStack
import LayeredDispatch.Proofs.Families.Slices
import Mathlib.Algebra.BigOperators.Group.List.Basic

/-! Calls of the operators that batching layers have rules for, apart from in-place ones. Main
statements: the base kernel does to storages what `onDense` says, and entry by entry the same to
batches of them.
-/

namespace LayeredDispatch

open Run

/-- The element-wise operators on two tensors. -/
inductive Arithmetic where
  | add
  | mul
  deriving DecidableEq

namespace Arithmetic

/-- The name of the operator. -/
def name : Arithmetic → String
  | .add => "add"
  | .mul => "mul"

/-- The name of its base kernel. -/
def kernelName : Arithmetic → String
  | .add => "Add"
  | .mul => "Mul"

/-- What it does to two elements. -/
def combine : Arithmetic → Float → Float → Float
  | .add => (· + ·)
  | .mul => (· * ·)

end Arithmetic

/-- An operator with its arguments. The operands may be tensors, or what stands for them. -/
inductive Request (α : Type) where
  | binary (op : Arithmetic) (left right : α)
  | neg (input : α)
  | unsqueeze (input : α) (dim : Int)

/-- A dimension that is inserted one place further behind a leading one is inserted into the shape
behind that.
-/
theorem Shape.unsqueeze?_withLeading (shape : Shape) (batch dim : Nat)
    : (shape.withLeading batch).unsqueeze? (dim + 1)
      = (shape.unsqueeze? dim).map (·.withLeading batch) := by
  by_cases inside : dim ≤ shape.dims.length <;> simp [unsqueeze?, withLeading, rank, inside]

theorem Heap.storage_newDense (heap : Heap) (storage : Storage)
    : (heap.newDense storage).2.storage heap.storages.size = storage := by
  simp [Heap.storage, Heap.newDense]

namespace Request

/-- The operands in order. -/
def operands : Request α → List α
  | .binary _ left right => [left, right]
  | .neg input | .unsqueeze input _ => [input]

/-- The request with other operands. -/
def map (change : α → β) : Request α → Request β
  | .binary op left right => .binary op (change left) (change right)
  | .neg input => .neg (change input)
  | .unsqueeze input dim => .unsqueeze (change input) dim

/-- The request with its operands replaced one after another. -/
def traverse [Monad m] (visit : α → m β) : Request α → m (Request β)
  | .binary op left right => return .binary op (← visit left) (← visit right)
  | .neg input => return .neg (← visit input)
  | .unsqueeze input dim => return .unsqueeze (← visit input) dim

/-- Two requests that differ in their operands only, which are related. -/
inductive Related (relation : α → β → Prop) : Request α → Request β → Prop where
  | binary {op : Arithmetic} {left right : α} {first second : β} (ofLeft : relation left first)
    (ofRight : relation right second)
    : Related relation (.binary op left right) (.binary op first second)
  | neg {input : α} {other : β} (ofInput : relation input other)
    : Related relation (.neg input) (.neg other)
  | unsqueeze {input : α} {other : β} (dim : Int) (ofInput : relation input other)
    : Related relation (.unsqueeze input dim) (.unsqueeze other dim)

/-- The schema of the operator. -/
def schema : Request α → Schema
  | .binary op .. => Base.binarySchema op.name
  | .neg _ => Base.unarySchema "neg"
  | .unsqueeze .. => Base.schemas[5]

/-- The boxed arguments. -/
def arguments : Request Tensor → List Value
  | .binary _ left right => [.tensor left, .tensor right]
  | .neg input => [.tensor input]
  | .unsqueeze input dim => [.tensor input, .int dim]

/-- The base kernel of the operator. -/
def kernel : Request α → Kernel
  | .binary op .. => Base.binary op.kernelName op.combine
  | .neg _ => Base.neg
  | .unsqueeze .. => Base.unsqueeze

variable {α β : Type} (request : Request α)

/-- The dispatcher knows the operators of requests. -/
theorem schema?_standard : Dispatcher.standard.schema? request.schema.name = some request.schema := by
  cases request with
  | binary op left right => cases op <;> rfl
  | neg input => rfl
  | unsqueeze input dim => rfl

/-- Their base kernels are those of requests. -/
theorem baseKernel?_schema
    : Dispatcher.baseKernel? request.schema.name = some request.kernel := by
  cases request with
  | binary op left right => cases op <;> rfl
  | neg input => rfl
  | unsqueeze input dim => rfl

theorem schema_map (change : α → β) : (request.map change).schema = request.schema := by
  cases request <;> rfl

theorem map_map {γ : Type} (change : α → β) (next : β → γ)
    : (request.map change).map next = request.map (next ∘ change) := by
  cases request <;> rfl

/-- What is made of a request depends on what is made of its operands. -/
theorem map_congr {change change' : α → β}
    (same : ∀ operand ∈ request.operands, change operand = change' operand)
    : request.map change = request.map change' := by
  cases request with
  | binary op left right =>
      simp only [map, same left (by simp [operands]), same right (by simp [operands])]
  | neg input => simp only [map, same input (by simp [operands])]
  | unsqueeze input dim => simp only [map, same input (by simp [operands])]

theorem length_arguments (request : Request Tensor)
    : request.arguments.length = request.schema.arity := by
  cases request <;> rfl

theorem tensorsAll_arguments (request : Request Tensor)
    : Value.tensorsAll request.arguments = request.operands := by
  cases request <;> rfl

theorem operands_map (change : α → β)
    : (request.map change).operands = request.operands.map change := by
  cases request <;> rfl

-----------------------------------------------------------------------------------------
-- Shapes and storages
-----------------------------------------------------------------------------------------

/-- The shape of the result, if the shapes of the operands suit the operator. -/
def onShape : Request Shape → Option Shape
  | .binary _ left right => left.broadcast? right
  | .neg input => some input
  | .unsqueeze input dim => if 0 ≤ dim then input.unsqueeze? dim.toNat else none

/-- The result on dense operands. -/
def onDense : Request Storage → Outcome Storage
  | .binary op left right => Storage.broadcastBinary op.name left right op.combine
  | .neg input => .ok (input.map fun element => -element)
  | .unsqueeze input dim =>
      match if 0 ≤ dim then input.shape.unsqueeze? dim.toNat else none with
      | some shape => .ok { input with shape }
      | none =>
          Outcome.fail (.invalidArgument "unsqueeze" 1 (.dimOutOfRange dim input.shape.rank))

/-- A dense tensor among the arguments is read, and its storage is given. -/
theorem denseAt_apply {arguments : List Value} {index cell : Nat} (op : String)
    (found : arguments[index]? = some (.tensor (.dense cell))) (machine : Machine)
    : Base.denseAt arguments op index machine = .ok (machine.heap.storage cell) machine := by
  have tensor : Value.tensorAt arguments op index = .ok (.dense cell) := by
    rw [Value.tensorAt, found]
  rw [Base.denseAt, tensor, bind_apply, lift_ok_apply]
  rfl

/-- The base kernel does to dense operands what `onDense` says: the result is stored behind the
others and boxed in the place of the arguments. The arguments are gone where there is no result.
-/
theorem kernel_run (cells : Request Nat) (calls : Calls) {machine : Machine} {outer : List Value}
    (values : machine.values = outer ++ (cells.map Tensor.dense).arguments)
    : cells.kernel.run calls cells.schema machine =
        match (cells.map machine.heap.storage).onDense with
        | .ok result =>
            .ok () { machine with
              values := outer ++ [.tensor (machine.heap.newDense result).1],
              heap := (machine.heap.newDense result).2 }
        | .error exit => .error exit { machine with values := outer } := by
  have popped := pop_append values
  rw [length_arguments, schema_map] at popped
  cases cells with
  | binary op left right =>
      have popped : pop 2 machine = _ := popped
      simp only [kernel, Base.binary, bind_apply, popped, map, arguments,
        @denseAt_apply [.tensor (.dense left), .tensor (.dense right)] 0 left _ rfl,
        @denseAt_apply [.tensor (.dense left), .tensor (.dense right)] 1 right _ rfl]
      simp only [schema, Base.binarySchema, onDense]
      cases Storage.broadcastBinary op.name (machine.heap.storage left)
          (machine.heap.storage right) op.combine with
      | ok result => rfl
      | error exit => rfl
  | neg input =>
      have popped : pop 1 machine = _ := popped
      simp only [kernel, Base.neg, bind_apply, popped, map, arguments,
        @denseAt_apply [.tensor (.dense input)] 0 input _ rfl]
      rfl
  | unsqueeze input dim =>
      have popped : pop 2 machine = _ := popped
      simp only [kernel, Base.unsqueeze, bind_apply, popped, map, arguments,
        @denseAt_apply [.tensor (.dense input), .int dim] 0 input _ rfl]
      have given (op : String) : Value.intAt [.tensor (.dense input), .int dim] op 1 = .ok dim :=
        rfl
      simp only [onDense, given, lift_ok_apply]
      cases if 0 ≤ dim then (machine.heap.storage input).shape.unsqueeze? dim.toNat else none with
      | some shape => rfl
      | none => rfl

/-- A result has the shape that `onShape` says, and as many elements. -/
theorem onDense_ok {request : Request Storage} {result : Storage}
    (h : request.onDense = .ok result) (sized : ∀ operand ∈ request.operands, operand.Sized)
    : (request.map Storage.shape).onShape = some result.shape ∧ result.Sized := by
  cases request with
  | binary op left right =>
      obtain ⟨shape, found, room, -, rfl⟩ := Storage.broadcastBinary_ok h
      exact ⟨found, Storage.sized_combined room⟩
  | neg input =>
      cases h
      have sized : input.Sized := sized input (List.mem_singleton_self input)
      exact ⟨rfl, by simpa [Storage.Sized, Storage.map] using sized⟩
  | unsqueeze input dim =>
      have sized : input.Sized := sized input (List.mem_singleton_self input)
      simp only [onDense] at h
      split at h
      · rename_i shape found
        cases h
        refine ⟨found, ?_⟩
        split at found
        · exact Shape.numel?_insert sized found
        · cases found
      · cases h

/-- Without a result the shapes do not suit the operator, or some size is too large. Nothing else
goes wrong as long as the operands hold what their shapes say.
-/
theorem onDense_error {request : Request Storage} {exit : Exit}
    (h : request.onDense = .error exit) (sized : ∀ operand ∈ request.operands, operand.Sized)
    : (request.map Storage.shape).onShape = none ∨ exit.TooLarge := by
  cases request with
  | binary op left right =>
      exact Storage.broadcastBinary_error (sized left (by simp [operands]))
        (sized right (by simp [operands])) h
  | neg input => cases h
  | unsqueeze input dim =>
      simp only [onDense] at h
      split at h
      · cases h
      · rename_i found
        exact Or.inl found

-----------------------------------------------------------------------------------------
-- Batches
-----------------------------------------------------------------------------------------

/-- Whether the operator works element by element. -/
def isPointwise : Request α → Bool
  | .binary .. | .neg _ => true
  | .unsqueeze .. => false

theorem isPointwise_map {α β : Type} (request : Request α) (change : α → β)
    : (request.map change).isPointwise = request.isPointwise := by
  cases request <;> rfl

/-- The greatest rank among the operands. -/
def rank : Request Shape → Nat
  | .binary _ left right => max left.rank right.rank
  | .neg input | .unsqueeze input _ => input.rank

/-- No operand has a greater rank than the greatest. -/
theorem le_rank {request : Request Shape} {shape : Shape} (member : shape ∈ request.operands)
    : shape.rank ≤ request.rank := by
  cases request with
  | binary op left right =>
      simp only [operands, List.mem_cons, List.not_mem_nil, or_false] at member
      rcases member with rfl | rfl
      · exact Nat.le_max_left _ _
      · exact Nat.le_max_right _ _
  | neg input => exact Nat.le_of_eq (congrArg Shape.rank (List.mem_singleton.mp member))
  | unsqueeze input dim => exact Nat.le_of_eq (congrArg Shape.rank (List.mem_singleton.mp member))

/-- The shape of a batch is that of its entries with the batch dimension in front. The operands must
be aligned, and one of them must be a batch.
-/
theorem onShape_entry {batch : Nat} {whole entry : Request Shape}
    (pointwise : whole.isPointwise = true)
    (related : whole.Related (Shape.Entry batch entry.rank) entry)
    (batched : ∃ shape ∈ whole.operands, entry.rank < shape.rank)
    : whole.onShape = entry.onShape.map (·.withLeading batch) := by
  obtain ⟨shape, member, larger⟩ := batched
  cases related with
  | binary ofLeft ofRight =>
      refine Shape.broadcast?_entry ofLeft ofRight rfl ?_
      simp only [operands, List.mem_cons, List.not_mem_nil, or_false] at member
      rcases member with rfl | rfl
      · exact Or.inl larger
      · exact Or.inr larger
  | neg ofInput =>
      obtain rfl := List.mem_singleton.mp member
      cases ofInput with
      | batched dims ones padded =>
          obtain rfl : ones = 0 := Nat.add_eq_left.mp padded
          rfl
      | shared _ short => exact absurd short (Nat.not_le_of_gt larger)
  | unsqueeze dim ofInput => cases pointwise

theorem slice_map (storage : Storage) (change : Float → Float) (index : Nat)
    : (storage.map change).slice index = (storage.slice index).map change := by
  simp [Storage.slice, Storage.map]

/-- What an element-wise operator makes of batches it makes of each entry. For two operands this is
the statement about broadcasting, for one it is about slices.
-/
theorem onDense_entry {batch index : Nat} {whole entry : Request Storage} {result : Storage}
    (pointwise : whole.isPointwise = true)
    (related : whole.Related (Storage.Entry batch index (entry.map Storage.shape).rank) entry)
    (batched : ∃ storage ∈ whole.operands, (entry.map Storage.shape).rank < storage.shape.rank)
    (inBatch : index < batch) (sized : ∀ operand ∈ entry.operands, operand.Sized)
    (h : whole.onDense = .ok result)
    : entry.onDense = .ok (result.slice index) := by
  obtain ⟨storage, member, larger⟩ := batched
  cases related with
  | binary ofLeft ofRight =>
      refine Storage.broadcastBinary_entry ofLeft ofRight rfl ?_ inBatch (sized _ (by simp [operands]))
        (sized _ (by simp [operands])) h
      simp only [operands, List.mem_cons, List.not_mem_nil, or_false] at member
      rcases member with rfl | rfl
      · exact Or.inl larger
      · exact Or.inr larger
  | neg ofInput =>
      obtain rfl := List.mem_singleton.mp member
      cases h
      cases ofInput with
      | batched dims ones data padded =>
          obtain rfl : ones = 0 := Nat.add_eq_left.mp padded
          exact congrArg Except.ok (slice_map _ _ index).symm
      | shared _ short => exact absurd short (Nat.not_le_of_gt larger)
  | unsqueeze dim ofInput => cases pointwise

/-- Behind the batch dimension the position of the new dimension is one more. -/
theorem onShape_unsqueeze {batch : Nat} (dims : List Nat) {dim : Int} (natural : 0 ≤ dim)
    : (unsqueeze ⟨batch :: dims⟩ (dim + 1)).onShape
      = (unsqueeze ⟨dims⟩ dim).onShape.map (·.withLeading batch) := by
  have next : (dim + 1).toNat = dim.toNat + 1 := by omega
  simp only [onShape, natural, Int.le_add_one natural, if_true, next]
  exact Shape.unsqueeze?_withLeading ⟨dims⟩ batch dim.toNat

/-- Behind the batch dimension a dimension is inserted into each entry. The elements are the same on
both sides, so only the shapes are compared.
-/
theorem onDense_unsqueeze {batch : Nat} {dims : List Nat} {data : Array Float} {result : Storage}
    {dim : Int} (natural : 0 ≤ dim) (index : Nat)
    (h : (unsqueeze ⟨⟨batch :: dims⟩, data⟩ (dim + 1)).onDense = .ok result)
    : (unsqueeze (Storage.slice ⟨⟨batch :: dims⟩, data⟩ index) dim).onDense
      = .ok (result.slice index) := by
  have shapes := @onShape_unsqueeze batch dims dim natural
  simp only [onShape] at shapes
  simp only [onDense, shapes] at h
  simp only [onDense, Storage.slice, Shape.dropLeading, List.drop_succ_cons, List.drop_zero]
  cases inserted : if 0 ≤ dim then Shape.unsqueeze? ⟨dims⟩ dim.toNat else none with
  | none =>
      rw [inserted] at h
      cases h
  | some shape =>
      rw [inserted] at h
      cases h
      have same : shape.dims.prod = dims.prod := by
        rw [if_pos natural, Shape.unsqueeze?] at inserted
        split at inserted
        · rename_i inside
          cases inserted
          rw [List.CommMonoid.prod_insertIdx inside, Nat.one_mul]
        · cases inserted
      simp only [Shape.withLeading, List.drop_succ_cons, List.drop_zero, same]

/-- The same request of the dense tensors of a heap, numbered in order. -/
def cells : Request α → Request Nat
  | .binary op _ _ => .binary op 0 1
  | .neg _ => .neg 0
  | .unsqueeze _ dim => .unsqueeze 0 dim

/-- A state that holds nothing but the operands, on a thread without layers. -/
def alone (request : Request Storage) : Machine where
  heap := { storages := request.operands.toArray }
  values := (request.cells.map Tensor.dense).arguments

/-- What the base kernel of the operator makes of storages. -/
def atBase (request : Request Storage) : Outcome Storage :=
  match request.kernel.run ⟨fun _ => Run.fault .diverged, fun _ => none⟩ request.schema
      request.alone with
  | .ok _ reached =>
      match reached.values with
      | [.tensor result] => .ok (reached.heap.storage result.baseCell)
      | _ => Outcome.fault .outOfBounds
  | .error exit _ => .error exit

/-- What the base kernel makes of storages, run on a thread with nothing else, is what `onDense`
says.
-/
theorem atBase_eq (request : Request Storage) : request.atBase = request.onDense := by
  have stored : request.cells.map request.alone.heap.storage = request := by
    cases request <;> rfl
  have same : request.cells.kernel = request.kernel ∧ request.cells.schema = request.schema := by
    cases request <;> exact ⟨rfl, rfl⟩
  have ran := @kernel_run request.cells ⟨fun _ => Run.fault .diverged, fun _ => none⟩
    request.alone [] rfl
  rw [same.1, same.2, stored] at ran
  rw [atBase, ran]
  cases request.onDense with
  | ok result => exact congrArg Except.ok (Heap.storage_newDense _ _)
  | error exit => rfl

end Request
end LayeredDispatch
