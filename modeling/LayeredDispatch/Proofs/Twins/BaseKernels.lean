import LayeredDispatch.Proofs.Twins.Operands

/-! The base operators in two runs. Below all layers both runs give them the same dense tensors, whose
storages are the same in both heaps. Main statement: base kernels end alike on the same arguments.
-/

namespace LayeredDispatch

open Run Dispatcher

/-- A computation that puts a result on top and ends alike in two runs, which may differ in where tags
are.
-/
structure Run.Repeats (body : Run Unit) : Prop where
  beside
    : ∀ {pairing : Pairing} {machine twin : Machine} {failed : Exit → Exit → Prop},
        pairing.Agrees machine.memory twin.memory
        → (∀ exit exit', exit.Alike exit' → failed exit exit')
        → Beside True body body machine twin
            (fun _ values memory _ values' memory' =>
              pairing.Answers machine.values twin.values values memory values' memory')
            failed

namespace Run.Repeats

variable {next : α → Run Unit}

theorem fail (error : DispatchError) : Repeats (Run.fail error) :=
  ⟨fun _ alike => beside_fail (alike _ _ (.same _))⟩

/-- What depends on the arguments only is the same in two runs that are given the same arguments,
and so is what goes on with it.
-/
theorem lift {outcome : Outcome α} (orderly : outcome.Orderly)
    (tail : ∀ value, Repeats (next value))
    : Repeats (liftM outcome >>= next) :=
  ⟨fun agrees alike => .lift rfl orderly alike fun value _ => (tail value).beside agrees alike⟩

/-- A dense tensor is read alike in two runs, as both heaps have the same storages. Other tensors
are refused in both.
-/
theorem storageOf {next : Storage → Run Unit} (tensor : Tensor) (name : String) (index : Nat)
    (tail : ∀ storage, Repeats (next storage))
    : Repeats (Base.storageOf tensor name index >>= next) := by
  refine ⟨fun {pairing machine twin failed} agrees alike => ?_⟩
  have orderly : Exit.Orderly (.error (.invalidArgument name index .expectedDense)) := trivial
  cases tensor with
  | dense cell =>
      have read
          : Base.storageOf (.dense cell) name index twin = .ok (machine.heap.storage cell) twin := by
        have same : twin.heap.storage cell = machine.heap.storage cell :=
          agrees.heap.storage_eq cell
        rw [← same]
        rfl
      exact .step rfl read ((tail _).beside agrees alike)
  | tagged cell level flag value => exact .ended rfl rfl orderly orderly (alike _ _ (.same _))
  | batched handle level value => exact .ended rfl rfl orderly orderly (alike _ _ (.same _))

theorem denseAt {next : Storage → Run Unit} (given : List Value) (name : String) (index : Nat)
    (tail : ∀ storage, Repeats (next storage))
    : Repeats (Base.denseAt given name index >>= next) := by
  unfold Base.denseAt
  rw [bind_assoc]
  exact .lift (Value.plain_tensorAt _ _ _).orderly fun tensor => .storageOf tensor name index tail

/-- Computations that go on alike with each item go on alike with all of them, by induction on the
items.
-/
theorem foldlM {step : α → β → Run α} (start : α) (items : List β)
    (each
      : ∀ total item {next : α → Run Unit},
          (∀ value, Repeats (next value)) → Repeats (step total item >>= next))
    (tail : ∀ value, Repeats (next value))
    : Repeats (items.foldlM step start >>= next) := by
  induction items generalizing start with
  | nil => exact tail start
  | cons item items ih =>
      rw [List.foldlM_cons, bind_assoc]
      exact each start item ih

/-- Both runs draw the same numbers, since their generators are in the same state. -/
theorem drawUniform {next : List Float → Run Unit} (count : Size)
    (tail : ∀ numbers, Repeats (next numbers))
    : Repeats (Base.drawUniform count >>= next) := by
  unfold Base.drawUniform
  simp only [bind_assoc, pure_bind]
  refine .lift (Outcome.plain_checkCapacity count).orderly fun _ => ?_
  refine ⟨fun {pairing machine twin failed} agrees alike => ?_⟩
  have drawn
      : Run.read (fun machine => machine.thread.generator) twin
        = .ok machine.thread.generator twin := by
    rw [read_apply, show twin.thread.generator = machine.thread.generator from agrees.generator]
  refine .step (read_apply _ machine) drawn ?_
  have moved (start : Machine) (generator : Generator)
      : start.Returns { start with thread := { start.thread with generator } } :=
    .of_eq rfl rfl rfl rfl rfl
  refine .step_left (moved machine _) rfl (.step_right (moved twin _) rfl ?_)
  exact (tail _).beside ⟨agrees.heap, rfl⟩ alike

/-- A new storage gets the same number in both runs. -/
theorem pushDense (storage : Storage) : Repeats (Base.pushDense storage) := by
  refine ⟨fun {pairing machine twin failed} agrees alike => ?_⟩
  rcases agrees.heap.newDense storage with ⟨same, heaps⟩
  have faces
      : pairing.Faces (machine.heap.newDense storage).1 (twin.heap.newDense storage).1 := by
    rw [show (twin.heap.newDense storage).1 = _ from same]
    exact .dense _
  exact .of_values rfl rfl (.of_eq rfl rfl rfl rfl rfl) (.of_eq rfl rfl rfl rfl rfl)
    ⟨_, _, rfl, rfl, ⟨heaps, agrees.generator⟩, faces⟩

/-- In-place operators write the same storage in both runs. -/
theorem writeDense (cell : Nat) (storage : Storage)
    : Repeats
        (do
          Run.onHeap fun heap => heap.setStorage cell storage
          Run.pushTensor (.dense cell)) := by
  refine ⟨fun {pairing machine twin failed} agrees alike => ?_⟩
  have heaps := agrees.heap.setStorage cell storage
  exact .of_values rfl rfl (.of_eq rfl rfl rfl rfl rfl) (.of_eq rfl rfl rfl rfl rfl)
    ⟨.dense cell, .dense cell, rfl, rfl, ⟨heaps, agrees.generator⟩, .dense cell⟩

end Run.Repeats

/-- A kernel that ends alike in two runs that give it the same arguments. -/
structure Run.Mirrors (body : Run Unit) (arity : Nat) : Prop where
  beside
    : ∀ {pairing : Pairing} {machine twin : Machine} {failed : Exit → Exit → Prop}
        {given outer outer' : List Value},
        machine.values = outer ++ given
        → twin.values = outer' ++ given
        → given.length = arity
        → pairing.Agrees machine.memory twin.memory
        → (∀ exit exit', exit.Alike exit' → failed exit exit')
        → Beside True body body machine twin
            (fun _ values memory _ values' memory' =>
              pairing.Answers outer outer' values memory values' memory')
            failed

section

variable {calls : Calls} {op : Schema}

/-- A kernel that takes its arguments off the stack first mirrors itself in another run, if what
follows ends alike on the same arguments.
-/
theorem Run.mirrors_pop {arity : Nat} {next : List Value → Run Unit}
    (tail : ∀ given, Repeats (next given))
    : Mirrors (pop arity >>= next) arity := by
  refine ⟨fun {pairing machine twin failed given outer outer'} values values' size agrees alike => ?_⟩
  refine .pop values values' size size ?_
  exact @(tail given).beside pairing { machine with values := outer }
    { twin with values := outer' } failed agrees alike

theorem mirrors_binary (name : String) (combine : Float → Float → Float)
    : ((Base.binary name combine).run calls op).Mirrors 2 :=
  mirrors_pop fun given =>
    .denseAt given op.name 0 fun _ =>
      .denseAt given op.name 1 fun _ =>
        .lift (Storage.orderly_broadcastBinary _ _ _ _) fun total => .pushDense total

/-- The base kernel that adds up a list reads one storage after another. -/
theorem mirrors_addAll : (Base.addAll.run calls op).Mirrors 1 := by
  refine mirrors_pop fun given => .lift (Value.plain_tensorsAt _ _ _).orderly fun tensors => ?_
  cases tensors with
  | nil => exact .fail _
  | cons first others =>
      refine .storageOf first op.name 0 fun start => ?_
      refine .foldlM start others ?_ fun total => .pushDense total
      intro total tensor next tail
      rw [bind_assoc]
      exact .storageOf tensor op.name 0 fun added =>
        .lift (Storage.orderly_broadcastBinary _ _ _ _) tail

/-- The base kernel that inserts a dimension reads a storage and makes a new one, or refuses. -/
theorem mirrors_unsqueeze : (Base.unsqueeze.run calls op).Mirrors 2 := by
  refine mirrors_pop fun given => .denseAt given op.name 0 fun input => ?_
  refine .lift (Value.plain_intAt _ _ _).orderly fun dim => ?_
  split
  · exact .pushDense _
  · exact .fail _

theorem mirrors_rand : (Base.rand.run calls op).Mirrors 1 :=
  mirrors_pop fun _ =>
    .lift (Value.plain_sizesAt _ _ _).orderly fun _ =>
      .lift (Outcome.plain_orOverflow _).orderly fun count =>
        .drawUniform count fun _ => .pushDense _

/-- In-place addition reads two storages and writes to the first one. -/
theorem mirrors_addInPlace : (Base.addInPlace.run calls op).Mirrors 2 := by
  refine mirrors_pop fun given => .lift (Value.plain_tensorAt _ _ _).orderly fun target => ?_
  refine .denseAt given op.name 1 fun other => ?_
  cases target with
  | dense cell =>
      refine .storageOf (.dense cell) op.name 0 fun current => ?_
      refine .lift (Storage.orderly_broadcastBinary _ _ _ _) fun updated => ?_
      split
      · exact .writeDense cell updated
      · exact .fail _
  | tagged cell level flag value => exact .fail _
  | batched handle level value => exact .fail _

/-- Resizing reads one storage and writes to it. -/
theorem mirrors_resizeInPlace : (Base.resizeInPlace.run calls op).Mirrors 2 := by
  refine mirrors_pop fun given => .lift (Value.plain_tensorAt _ _ _).orderly fun target => ?_
  refine .lift (Value.plain_sizesAt _ _ _).orderly fun sizes => ?_
  cases target with
  | dense cell =>
      refine .storageOf (.dense cell) op.name 0 fun current => ?_
      exact .lift (Storage.plain_resize _ _).orderly fun resized => .writeDense cell resized
  | tagged cell level flag value => exact .fail _
  | batched handle level value => exact .fail _

/-- Base kernels end alike in two runs that give them the same arguments, one operator after
another.
-/
theorem mirrors_baseKernel {kernel : Kernel} (member : op ∈ Base.schemas)
    (found : baseKernel? op.name = some kernel)
    : (kernel.run calls op).Mirrors op.arity := by
  simp only [Base.schemas, List.mem_cons, List.not_mem_nil, or_false] at member
  rcases member with rfl | rfl | rfl | rfl | rfl | rfl | rfl | rfl | rfl | rfl <;> cases found
  · exact mirrors_binary "Add" _
  · exact mirrors_binary "Mul" _
  · exact mirrors_pop fun given => .denseAt given _ 0 fun _ => .pushDense _
  · exact mirrors_pop fun given => .denseAt given _ 0 fun _ => .pushDense _
  · exact mirrors_addAll
  · exact mirrors_unsqueeze
  · exact mirrors_pop fun _ =>
      .lift (Value.plain_sizesAt _ _ _).orderly fun _ =>
        .lift (Storage.plain_zeros _).orderly fun storage => .pushDense storage
  · exact mirrors_rand
  · exact mirrors_addInPlace
  · exact mirrors_resizeInPlace

end

end LayeredDispatch
