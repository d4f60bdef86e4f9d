import LayeredDispatch.Proofs.Effects.Frames
import LayeredDispatch.Proofs.Families.Growth
import LayeredDispatch.Proofs.Randomness.Generators

/-! What the base operators do to the memory that they find. All of them but two make a dense tensor;
these two write the storage of their first argument, as their last step but one that cannot fail.
-/

namespace LayeredDispatch

open Run Dispatcher

namespace Memory

variable (memory : Memory)

/-- A new storage is put behind the others, which spares them. -/
theorem spares_newDense (storage : Storage)
    : memory.Spares { memory with heap := (memory.heap.newDense storage).2 } :=
  ⟨rfl, (Heap.grows_newDense memory.heap storage).storages, fun _ present => ⟨present, rfl⟩, rfl⟩

/-- So is the cell of a new tag. -/
theorem spares_newTagged (value : Tensor) (level : Level) (flag : Nat)
    : memory.Spares { memory with heap := (memory.heap.newTagged value level flag).2 } := by
  refine ⟨rfl, fun _ present => ⟨present, rfl⟩, fun cell present => ?_, rfl⟩
  refine ⟨((Heap.grows_newTagged memory.heap value level flag).wrappers cell present).1, ?_⟩
  simp only [Heap.wrapper, Heap.newTagged, Array.getD_eq_getD_getElem?, Array.getElem?_push,
    Nat.ne_of_lt present, if_false]

theorem spares_newBatched (value : Tensor) (level : Level)
    : memory.Spares { memory with heap := (memory.heap.newBatched value level).2 } :=
  ⟨rfl, fun _ present => ⟨present, rfl⟩, fun _ present => ⟨present, rfl⟩, rfl⟩

/-- Looking again at the shape of a tag changes that shape only, and not which operator produced the
value.
-/
theorem spares_refresh (tensor : Tensor)
    : memory.Spares { memory with heap := memory.heap.refresh tensor } := by
  cases tensor with
  | dense cell => exact .refl memory
  | batched handle level value => exact .refl memory
  | tagged cell level flag value =>
      refine ⟨rfl, fun _ present => ⟨present, rfl⟩, fun other present => ?_, rfl⟩
      refine ⟨by simpa [Heap.refresh, Heap.setWrapper] using present, ?_⟩
      by_cases apart : cell = other
      · subst apart
        have read := Heap.wrapper_setWrapper_same memory.heap cell
          { memory.heap.wrapper cell with shape := value.shape memory.heap } present
        have same := congrArg Wrapper.gradFn read
        exact same
      · have same := @Heap.wrapper_refresh_other value memory.heap cell other level flag apart
        exact congrArg Wrapper.gradFn same

end Memory

/-- The operators that requests are about are given what these say. -/
def Schema.Typed (op : Schema) (arguments : List Value) : Prop :=
  op.name ∈ ["add", "mul", "neg", "unsqueeze"]
  → ∃ request : Request Tensor, request.schema = op ∧ request.arguments = arguments

/-- What is known of a storage that an operator makes of dense arguments. -/
structure Schema.Makes (op : Schema) (heap : Heap) (arguments : List Value) (storage : Storage)
    : Prop where
  typed : op.Typed arguments
  sized
    : (∀ tensor ∈ Value.tensorsAll arguments, (heap.storage tensor.baseCell).Sized)
      → storage.Sized
  drawn
    : op.name = "rand"
      → ∃ sizes, Value.sizesAt arguments op.name 0 = .ok sizes ∧ storage.shape = ⟨sizes⟩

/-- What an in-place operator writes into the storage of its target. -/
structure Schema.Writes (op : Schema) (heap : Heap) (arguments : List Value) (target : Tensor)
    (storage : Storage)
    : Prop where
  inPlace : op.isInPlace = true
  first : arguments.head? = some (.tensor target)
  dense : target.isDense = true
  sized : storage.Sized
  steady : op.name ≠ "resize_" → storage.shape = (heap.storage target.baseCell).shape
  added
    : op.name = "add_"
      → ∃ other,
          arguments = [.tensor target, .tensor other]
          ∧ other.isDense = true
          ∧ Storage.broadcastBinary op.name (heap.storage target.baseCell)
              (heap.storage other.baseCell) (· + ·)
            = .ok storage

/-- A computation that puts a new dense tensor in the place of the arguments. -/
def Run.Makes (body : Run Unit) (op : Schema) (machine : Machine) : Prop :=
  body.Leaves machine
    (fun _ values memory =>
      ∃ storage,
        op.Makes machine.heap (machine.lastValues op.arity) storage
        ∧ values = machine.firstValues op.arity ++ [.tensor (machine.heap.newDense storage).1]
        ∧ memory.heap = (machine.heap.newDense storage).2
        ∧ (op.name ≠ "rand" → memory.generator = machine.memory.generator))
    (fun _ memory => memory = machine.memory)

/-- A computation that writes to the first argument and puts it in the place of the arguments. -/
def Run.Writes (body : Run Unit) (op : Schema) (machine : Machine) : Prop :=
  body.Leaves machine
    (fun _ values memory =>
      ∃ target storage,
        op.Writes machine.heap (machine.lastValues op.arity) target storage
        ∧ values = machine.firstValues op.arity ++ [.tensor target]
        ∧ memory
          = { machine.memory with
              heap := machine.heap.setStorage target.baseCell storage })
    (fun _ memory => memory = machine.memory)

/-- A storage of zeros holds as many of them as its shape says. -/
theorem Storage.sized_zeros {shape : Shape} {storage : Storage} (h : zeros shape = .ok storage)
    : storage.Sized := by
  obtain ⟨count, counted, h⟩ := Outcome.bind_ok h
  obtain ⟨_, _, h⟩ := Outcome.bind_ok h
  cases h
  simp only [Sized, Outcome.orFault_ok counted, Array.size_replicate]

/-- A resized storage holds as many elements as its new shape says, whatever it held before. -/
theorem Storage.sized_resize {shape : Shape} {storage resized : Storage}
    (h : storage.resize shape = .ok resized)
    : resized.Sized := by
  obtain ⟨count, counted, h⟩ := Outcome.bind_ok h
  obtain ⟨_, _, h⟩ := Outcome.bind_ok h
  cases h
  simp only [Sized, Outcome.orFault_ok counted, Array.size_append, Array.size_replicate,
    Option.some.injEq]
  have kept : (storage.data.take count).size ≤ count := by
    rw [Array.take, Array.size_extract]
    exact Nat.le_trans (Nat.sub_le _ 0) (Nat.min_le_left _ _)
  exact (Nat.add_sub_cancel' kept).symm

theorem Storage.sized_map {storage : Storage} (sized : storage.Sized) (change : Float → Float)
    : (storage.map change).Sized := by
  simpa [Sized, map] using sized

namespace Value

/-- What is read of values as tensors are their tensors. -/
theorem tensorsAll_of_mapM {read : Value → Outcome Tensor}
    (tensors : ∀ value tensor, read value = .ok tensor → value = .tensor tensor)
    {items : List Value} {found : List Tensor} (h : items.mapM read = .ok found)
    : tensorsAll items = found := by
  induction items generalizing found with
  | nil =>
      cases h
      rfl
  | cons item items ih =>
      rw [List.mapM_cons] at h
      obtain ⟨first, head, h⟩ := Outcome.bind_ok h
      obtain ⟨others, rest, h⟩ := Outcome.bind_ok h
      cases h
      rw [tensors item first head, tensorsAll, ih rest]
      rfl

/-- The tensors of a list that is an argument are among those of the arguments. -/
theorem mem_of_tensorsAt {arguments : List Value} {name : String} {index : Nat}
    {tensors : List Tensor} (h : tensorsAt arguments name index = .ok tensors) {tensor : Tensor}
    (member : tensor ∈ tensors)
    : tensor ∈ tensorsAll arguments := by
  unfold tensorsAt at h
  split at h
  · rename_i items found
    refine mem_tensorsAll (List.mem_of_getElem? found) ?_
    rw [Value.tensors, tensorsAll_of_mapM ?_ h]
    · exact member
    · intro value tensor read
      split at read
      · cases read
        rfl
      · cases read
  · cases h

end Value

namespace Base

variable {op : Schema} {machine : Machine} (calls : Calls)

/-- A storage that is read is that of a dense tensor. -/
theorem storageOf_ok {tensor : Tensor} {name : String} {index : Nat} {storage : Storage}
    {reached : Machine} (ended : storageOf tensor name index machine = .ok storage reached)
    : tensor.isDense = true ∧ storage = machine.heap.storage tensor.baseCell := by
  cases tensor with
  | dense cell =>
      cases ended
      exact ⟨rfl, rfl⟩
  | tagged cell level flag value => cases ended
  | batched handle level value => cases ended

/-- An argument that a base kernel reads is a dense tensor. -/
theorem denseAt_ok {arguments : List Value} {name : String} {index : Nat} {storage : Storage}
    {reached : Machine} (ended : denseAt arguments name index machine = .ok storage reached)
    : ∃ tensor,
        arguments[index]? = some (.tensor tensor)
        ∧ tensor.isDense = true
        ∧ storage = machine.heap.storage tensor.baseCell := by
  obtain ⟨tensor, middle, looked, read⟩ := bind_ok ended
  obtain ⟨found, rfl⟩ := lift_ok looked
  exact ⟨tensor, Value.tensorAt_ok found, storageOf_ok read⟩

/-- The last step of the operators that make a tensor. It stores the outcome behind the other
storages and boxes it, neither of which can fail.
-/
theorem leaves_pushDense {start : Machine} {failed : Exit → Memory → Prop} {storage : Storage}
    (makes : op.Makes machine.heap (machine.lastValues op.arity) storage)
    (values : start.values = machine.firstValues op.arity) (heap : start.heap = machine.heap)
    (generator : op.name ≠ "rand" → start.thread.generator = machine.thread.generator)
    : (pushDense storage).Leaves start
        (fun _ values memory =>
          ∃ storage,
            op.Makes machine.heap (machine.lastValues op.arity) storage
            ∧ values = machine.firstValues op.arity ++ [.tensor (machine.heap.newDense storage).1]
            ∧ memory.heap = (machine.heap.newDense storage).2
            ∧ (op.name ≠ "rand" → memory.generator = machine.memory.generator))
        failed := by
  refine (quiet_writing.pushDense storage).leaves rfl ⟨storage, makes, ?_, ?_, generator⟩
  · exact congrArg₂ (fun values heap => values ++ [.tensor (Heap.newDense heap storage).1])
      values heap
  · exact congrArg (fun heap => (Heap.newDense heap storage).2) heap

/-- Operators that neither draw numbers nor are asked for in requests. -/
theorem makes_sized {arguments : List Value} {heap : Heap} {storage : Storage}
    (named : op.name ∉ ["add", "mul", "neg", "unsqueeze"]) (drawless : op.name ≠ "rand")
    (sized
      : (∀ tensor ∈ Value.tensorsAll arguments, (heap.storage tensor.baseCell).Sized)
        → storage.Sized)
    : op.Makes heap arguments storage :=
  ⟨fun typed => absurd typed named, sized, fun random => absurd random drawless⟩

/-- Binary operators make what they combine of two dense tensors. It holds as many elements as its
shape says, whatever the operands hold.
-/
theorem makes_binary (enough : 2 ≤ machine.values.length) (arithmetic : Arithmetic)
    : ((binary arithmetic.kernelName arithmetic.combine).run calls
        (binarySchema arithmetic.name)).Makes (binarySchema arithmetic.name) machine := by
  have drawless : (binarySchema arithmetic.name).name ≠ "rand" := by
    cases arithmetic <;> exact (by decide)
  have size : (machine.lastValues 2).length = 2 := Machine.lastValues_length enough
  refine (still_pop 2).leaves_bind (fun _ => rfl) ?_
  intro arguments popped ended _ _
  obtain ⟨rfl, -, rfl⟩ := pop_ok ended
  refine (idle_reading.denseAt _ _ _).leaves_bind (fun _ => rfl) fun left leftAt => ?_
  refine (idle_reading.denseAt _ _ _).leaves_bind (fun _ => rfl) fun right rightAt => ?_
  obtain ⟨first, firstAt, -, -⟩ := denseAt_ok leftAt
  obtain ⟨second, secondAt, -, -⟩ := denseAt_ok rightAt
  have pair := Value.eq_pair size firstAt secondAt
  refine (idle_lift (Storage.orderly_broadcastBinary _ _ _ _)).leaves_bind (fun _ => rfl) ?_
  intro result made
  obtain ⟨shape, -, room, -, rfl⟩ := Storage.broadcastBinary_ok (lift_ok made).1
  refine leaves_pushDense ⟨fun _ => ?_, fun _ => Storage.sized_combined room, ?_⟩ rfl rfl fun _ => rfl
  · exact ⟨.binary arithmetic first second, rfl, pair.symm⟩
  · exact fun random => absurd random drawless

/-- The negative of a dense tensor has its shape and as many elements. -/
theorem makes_neg (enough : 1 ≤ machine.values.length)
    : (neg.run calls (unarySchema "neg")).Makes (unarySchema "neg") machine := by
  have size : (machine.lastValues 1).length = 1 := Machine.lastValues_length enough
  refine (still_pop 1).leaves_bind (fun _ => rfl) ?_
  intro arguments popped ended _ _
  obtain ⟨rfl, -, rfl⟩ := pop_ok ended
  refine (idle_reading.denseAt _ _ _).leaves_bind (fun _ => rfl) fun input inputAt => ?_
  obtain ⟨tensor, found, -, rfl⟩ := denseAt_ok inputAt
  have single := Value.eq_single size found
  refine leaves_pushDense ⟨fun _ => ⟨.neg tensor, rfl, single.symm⟩, fun sized => ?_, ?_⟩ rfl rfl
    fun _ => rfl
  · refine Storage.sized_map (sized tensor ?_) _
    rw [show (unarySchema "neg").arity = 1 from rfl, single]
    exact List.mem_singleton_self tensor
  · exact fun random => absurd random (by decide)

theorem makes_sum : (sum.run calls (unarySchema "sum")).Makes (unarySchema "sum") machine := by
  refine (still_pop 1).leaves_bind (fun _ => rfl) ?_
  intro arguments popped ended _ _
  obtain ⟨rfl, -, -⟩ := pop_ok ended
  refine (idle_reading.denseAt _ _ _).leaves_bind (fun _ => rfl) fun input _ => ?_
  exact leaves_pushDense (makes_sized (by decide) (by decide) fun _ => rfl) rfl rfl fun _ => rfl

/-- Adding storages to one whose number of elements fits its shape gives such a storage. -/
theorem sized_foldlM {tensors : List Tensor} {name : String} {start total : Storage}
    {reached : Machine} (sized : start.Sized)
    (ended
      : (tensors.foldlM (fun (total : Storage) tensor => do
            let next ← storageOf tensor name 0
            (Storage.broadcastBinary name total next (· + ·) : Outcome Storage)) start
          : Run Storage) machine
        = .ok total reached)
    : total.Sized := by
  induction tensors generalizing start machine with
  | nil =>
      cases ended
      exact sized
  | cons tensor tensors ih =>
      rw [List.foldlM_cons] at ended
      obtain ⟨later, middle, stepped, ended⟩ := bind_ok ended
      obtain ⟨next, _, _, added⟩ := bind_ok stepped
      obtain ⟨shape, -, room, -, rfl⟩ := Storage.broadcastBinary_ok (lift_ok added).1
      exact ih (Storage.sized_combined room) ended

/-- Sums of lists are made by adding one tensor after another to the first, which need not hold what
its shape says if it is the only one.
-/
theorem makes_addAll (enough : 1 ≤ machine.values.length)
    : (addAll.run calls schemas[4]).Makes schemas[4] machine := by
  have size : (machine.lastValues 1).length = 1 := Machine.lastValues_length enough
  refine (still_pop 1).leaves_bind (fun _ => rfl) ?_
  intro arguments popped ended _ _
  obtain ⟨rfl, -, rfl⟩ := pop_ok ended
  refine (idle_lift (Value.plain_tensorsAt _ _ _).orderly).leaves_bind (fun _ => rfl) ?_
  intro tensors listed
  split
  · exact leaves_fail rfl
  rename_i first others
  refine (idle_reading.storageOf _ _ _).leaves_bind (fun _ => rfl) fun start started => ?_
  refine (idle_reading.foldlM (fun total tensor => ?_) _ _).leaves_bind (fun _ => rfl)
    fun total added => ?_
  · exact (idle_reading.storageOf _ _ _).bind fun next =>
      idle_lift (Storage.orderly_broadcastBinary _ _ _ _)
  refine leaves_pushDense (makes_sized (by decide) (by decide) fun sized => ?_) rfl rfl fun _ => rfl
  obtain ⟨-, rfl⟩ := storageOf_ok started
  exact sized_foldlM (sized first (Value.mem_of_tensorsAt (lift_ok listed).1 List.mem_cons_self)) added

/-- An inserted dimension changes the shape, and the number of elements that it says stays. -/
theorem makes_unsqueeze (enough : 2 ≤ machine.values.length)
    : (unsqueeze.run calls schemas[5]).Makes schemas[5] machine := by
  have size : (machine.lastValues 2).length = 2 := Machine.lastValues_length enough
  refine (still_pop 2).leaves_bind (fun _ => rfl) ?_
  intro arguments popped ended _ _
  obtain ⟨rfl, -, rfl⟩ := pop_ok ended
  refine (idle_reading.denseAt _ _ _).leaves_bind (fun _ => rfl) fun input inputAt => ?_
  obtain ⟨tensor, found, -, rfl⟩ := denseAt_ok inputAt
  refine (idle_lift (Value.plain_intAt _ _ _).orderly).leaves_bind (fun _ => rfl) fun dim dimAt => ?_
  have pair := Value.eq_pair size found (Value.intAt_ok (lift_ok dimAt).1)
  split
  · rename_i shape inserted
    refine leaves_pushDense ⟨fun _ => ⟨.unsqueeze tensor dim, rfl, pair.symm⟩, fun sized => ?_, ?_⟩
      rfl rfl fun _ => rfl
    · split at inserted
      · refine Shape.numel?_insert (sized tensor ?_) inserted
        rw [show schemas[5].arity = 2 from rfl, pair]
        exact List.mem_singleton_self tensor
      · cases inserted
    · exact fun random => absurd random (by decide)
  · exact leaves_fail rfl

/-- Zeros are made of sizes alone. -/
theorem makes_zeros : (zeros.run calls (factorySchema "zeros")).Makes (factorySchema "zeros") machine := by
  refine (still_pop 1).leaves_bind (fun _ => rfl) ?_
  intro arguments popped ended _ _
  obtain ⟨rfl, -, -⟩ := pop_ok ended
  refine (idle_lift (Value.plain_sizesAt _ _ _).orderly).leaves_bind (fun _ => rfl) fun sizes _ => ?_
  refine (idle_lift (Storage.plain_zeros _).orderly).leaves_bind (fun _ => rfl) fun storage made => ?_
  have sized := Storage.sized_zeros (lift_ok made).1
  exact leaves_pushDense (makes_sized (by decide) (by decide) fun _ => sized) rfl rfl fun _ => rfl

/-- Numbers are drawn only when it is certain that there is room for them. So a refused draw leaves
the generator as it was.
-/
theorem leaves_drawUniform {start : Machine} {failed : Exit → Memory → Prop} (count : Size)
    (refused : ∀ exit, failed exit start.memory)
    : (drawUniform count).Leaves start
        (fun numbers values memory =>
          numbers.length = count ∧ values = start.values ∧ memory.heap = start.heap)
        failed := by
  refine (idle_lift (Outcome.plain_checkCapacity _).orderly).leaves_bind refused fun _ _ => ?_
  refine (quiet_read _).leaves_step rfl ?_
  exact ⟨.of_eq rfl rfl rfl rfl, Generator.length_draw count _, rfl, rfl⟩

/-- Random tensors have the shape that the sizes say. Of the operators that make a tensor this is
the one that moves the generator.
-/
theorem makes_rand : (rand.run calls (factorySchema "rand")).Makes (factorySchema "rand") machine := by
  refine (still_pop 1).leaves_bind (fun _ => rfl) ?_
  intro arguments popped ended _ _
  obtain ⟨rfl, -, rfl⟩ := pop_ok ended
  refine (idle_lift (Value.plain_sizesAt _ _ _).orderly).leaves_bind (fun _ => rfl)
    fun sizes given => ?_
  refine (idle_lift (Outcome.plain_orOverflow _).orderly).leaves_bind (fun _ => rfl)
    fun count counted => ?_
  have drawn := @leaves_drawUniform { machine with values := machine.firstValues 1 }
    (fun _ memory => memory = machine.memory) count fun _ => rfl
  refine drawn.bind ?_
  intro numbers reached _ _ left
  rcases left with ⟨many, values, heap⟩
  refine leaves_pushDense ⟨?_, fun _ => ?_, fun _ => ?_⟩ values heap fun named => absurd rfl named
  · exact fun typed => absurd typed (by decide)
  · simp only [Storage.Sized, Outcome.orFault_ok (lift_ok counted).1, List.size_toArray, many]
  · exact ⟨sizes, (lift_ok given).1, rfl⟩

/-- The operators that do not work in place make a tensor. The cases are the base operators. -/
theorem makes_baseKernel {kernel : Kernel} (poses : machine.Poses op)
    (found : baseKernel? op.name = some kernel) (pure : op.isInPlace = false)
    : (kernel.run calls op).Makes op machine := by
  obtain ⟨member, enough⟩ := poses
  simp only [schemas, List.mem_cons, List.not_mem_nil, or_false] at member
  rcases member with rfl | rfl | rfl | rfl | rfl | rfl | rfl | rfl | rfl | rfl
  · cases found; exact makes_binary calls enough .add
  · cases found; exact makes_binary calls enough .mul
  · cases found; exact makes_neg calls enough
  · cases found; exact makes_sum calls
  · cases found; exact makes_addAll calls enough
  · cases found; exact makes_unsqueeze calls enough
  · cases found; exact makes_zeros calls
  · cases found; exact makes_rand calls
  · cases pure
  · cases pure

/-- In-place addition writes only what has the shape of the target. A sum of another shape is
refused before anything is written.
-/
theorem writes_addInPlace (enough : 2 ≤ machine.values.length)
    : (addInPlace.run calls schemas[8]).Writes schemas[8] machine := by
  have size : (machine.lastValues 2).length = 2 := Machine.lastValues_length enough
  refine (still_pop 2).leaves_bind (fun _ => rfl) ?_
  intro arguments popped ended _ _
  obtain ⟨rfl, -, rfl⟩ := pop_ok ended
  refine (idle_lift (Value.plain_tensorAt _ _ _).orderly).leaves_bind (fun _ => rfl) ?_
  intro target targetAt
  refine (idle_reading.denseAt _ _ _).leaves_bind (fun _ => rfl) fun other otherAt => ?_
  obtain ⟨addend, addendAt, bare, rfl⟩ := denseAt_ok otherAt
  have pair := Value.eq_pair size (Value.tensorAt_ok (lift_ok targetAt).1) addendAt
  refine (idle_reading.storageOf _ _ _).leaves_bind (fun _ => rfl) fun current read => ?_
  obtain ⟨dense, rfl⟩ := storageOf_ok read
  refine (idle_lift (Storage.orderly_broadcastBinary _ _ _ _)).leaves_bind (fun _ => rfl) ?_
  intro updated added
  have added := (lift_ok added).1
  split
  · rename_i same
    obtain ⟨shape, -, room, -, made⟩ := Storage.broadcastBinary_ok added
    refine ⟨.of_eq rfl rfl rfl rfl, target, updated, ⟨rfl, ?_, dense, ?_, fun _ => same, fun _ => ?_⟩,
      rfl, rfl⟩
    · rw [show schemas[8].arity = 2 from rfl, pair]
      rfl
    · rw [made]
      exact Storage.sized_combined room
    · exact ⟨addend, pair, bare, added⟩
  · exact leaves_fail rfl

/-- Resizing writes the cut or extended storage below its target. -/
theorem writes_resizeInPlace
    : (resizeInPlace.run calls schemas[9]).Writes schemas[9] machine := by
  refine (still_pop 2).leaves_bind (fun _ => rfl) ?_
  intro arguments popped ended _ _
  obtain ⟨rfl, -, rfl⟩ := pop_ok ended
  refine (idle_lift (Value.plain_tensorAt _ _ _).orderly).leaves_bind (fun _ => rfl) ?_
  intro target targetAt
  refine (idle_lift (Value.plain_sizesAt _ _ _).orderly).leaves_bind (fun _ => rfl) ?_
  intro sizes _
  refine (idle_reading.storageOf _ _ _).leaves_bind (fun _ => rfl) fun current read => ?_
  obtain ⟨dense, rfl⟩ := storageOf_ok read
  refine (idle_lift (Storage.plain_resize _ _).orderly).leaves_bind (fun _ => rfl) ?_
  intro resized made
  have first := Value.tensorAt_ok (lift_ok targetAt).1
  rw [← List.head?_eq_getElem?] at first
  refine ⟨.of_eq rfl rfl rfl rfl, target, resized, ⟨rfl, first, dense, ?_, fun named => ?_, ?_⟩, rfl,
    rfl⟩
  · exact Storage.sized_resize (lift_ok made).1
  · exact absurd rfl named
  · exact fun named => absurd named (by decide)

/-- The operators that work in place write to their first argument, and give it back. -/
theorem writes_baseKernel {kernel : Kernel} (poses : machine.Poses op)
    (found : baseKernel? op.name = some kernel) (inPlace : op.isInPlace = true)
    : (kernel.run calls op).Writes op machine := by
  obtain ⟨member, enough⟩ := poses
  rcases Schema.inPlace_cases member inPlace with rfl | rfl
  · cases found; exact writes_addInPlace calls enough
  · cases found; exact writes_resizeInPlace calls

end Base

-----------------------------------------------------------------------------------------
-- The contract at the base
-----------------------------------------------------------------------------------------

section

variable {census : Census} {op : Schema} {machine : Machine} {arguments : List Value}
  {heap : Heap}

theorem Tensor.known_of_dense {tensor : Tensor} (dense : tensor.isDense = true)
    : tensor.Known census := by
  cases tensor with
  | dense cell => trivial
  | tagged cell level flag value => cases dense
  | batched handle level value => cases dense

/-- Around dense tensors there are no tags to be brought up to date. -/
theorem Tensor.settled_of_dense {tensor : Tensor} (dense : tensor.isDense = true)
    : tensor.Settled census heap := by
  cases tensor with
  | dense cell => trivial
  | tagged cell level flag value => cases dense
  | batched handle level value => cases dense

theorem settled_of_all_dense
    (dense : (Value.tensorsAll arguments).all Tensor.isDense = true)
    : ∀ tensor ∈ Value.tensorsAll arguments, tensor.Settled census heap :=
  fun tensor member => tensor.settled_of_dense (List.all_eq_true.mp dense tensor member)

/-- Operators that make a tensor do what their calls may: all that was there is spared. -/
theorem Run.Makes.affects {body : Run Unit} (h : body.Makes op machine)
    (dense : (Value.tensorsAll (machine.lastValues op.arity)).all Tensor.isDense = true)
    : body.Affects census op [] (machine.lastValues op.arity) (machine.firstValues op.arity)
        machine.memory machine := by
  refine h.mono ?_ ?_
  · rintro _ _ ⟨heap, generator⟩ ⟨storage, -, left, rfl, drawn⟩
    have spares := machine.memory.spares_newDense storage
    refine ⟨_, left, ?_, trivial, ?_, fun _ => settled_of_all_dense dense⟩
    · refine ⟨spares.flags, fun cell present => ?_, spares.wrappers, drawn, fun _ => ?_⟩
      · obtain ⟨inside, same⟩ := spares.storages cell present
        exact ⟨inside, fun _ => same⟩
      · exact ⟨spares.holds, .of_eq fun _ _ => rfl⟩
    · intro layer top
      cases top
  · rintro exit _ rfl
    exact (Census.Keeps.refl census machine.memory).undone

/-- Writing the storage of the first argument is allowed to operators that work in place. If the
shape stays, everything that tags remember of it stays right.
-/
theorem Census.allows_setStorage {target : Tensor} {storage : Storage} {memory : Memory}
    (pure : op.isInPlace = true) (first : arguments.head? = some (.tensor target))
    (steady
      : op.name ≠ "resize_"
        → storage.shape = (memory.heap.storage target.baseCell).shape ∧ storage.Sized)
    : census.Allows op arguments memory
        { memory with heap := memory.heap.setStorage target.baseCell storage } := by
  have written : op.written? arguments = some target.baseCell := by
    simp [Schema.written?, pure, first, Value.tensor?]
  have inside {cell : Nat} (present : cell < memory.heap.storages.size)
      : cell < (memory.heap.setStorage target.baseCell storage).storages.size := by
    simpa [Heap.setStorage] using present
  refine ⟨rfl, fun cell present => ⟨inside present, fun other => ?_⟩,
    fun cell present => ⟨present, rfl⟩, fun _ => rfl, fun named => ⟨fun cell present => ?_, ?_⟩⟩
  · rw [written] at other
    exact Heap.storage_setStorage_other memory.heap storage fun same => other (congrArg some same)
  · obtain ⟨shape, sized⟩ := steady named
    refine ⟨inside present, ?_⟩
    by_cases same : target.baseCell = cell
    · subst same
      rw [Heap.storage_setStorage_same memory.heap _ storage present]
      exact ⟨shape, fun _ => sized⟩
    · rw [Heap.storage_setStorage_other memory.heap storage same]
      exact ⟨rfl, id⟩
  · exact .of_eq fun _ _ => rfl

/-- Operators that write to their first argument do what their calls may. -/
theorem Run.Writes.affects {body : Run Unit} (h : body.Writes op machine)
    (dense : (Value.tensorsAll (machine.lastValues op.arity)).all Tensor.isDense = true)
    : body.Affects census op [] (machine.lastValues op.arity) (machine.firstValues op.arity)
        machine.memory machine := by
  refine h.mono ?_ ?_
  · intro _ _ _ left
    rcases left with ⟨target, storage, writes, left, rfl⟩
    refine ⟨target, left, ?_, target.known_of_dense writes.dense, ?_,
      fun _ => settled_of_all_dense dense⟩
    · exact Census.allows_setStorage writes.inPlace writes.first
        fun named => ⟨writes.steady named, writes.sized⟩
    · intro layer top
      cases top
  · intro exit _ same
    subst same
    exact (Census.Keeps.refl census machine.memory).undone

/-- What the base operators do is what their calls may, whether they make a tensor or write to one.
-/
theorem affects_baseKernel (calls : Calls) {kernel : Kernel} (poses : machine.Poses op)
    (found : baseKernel? op.name = some kernel)
    (dense : (Value.tensorsAll (machine.lastValues op.arity)).all Tensor.isDense = true)
    : (kernel.run calls op).Affects census op [] (machine.lastValues op.arity)
        (machine.firstValues op.arity) machine.memory machine := by
  cases inPlace : op.isInPlace with
  | false => exact (Base.makes_baseKernel calls poses found inPlace).affects dense
  | true => exact (Base.writes_baseKernel calls poses found inPlace).affects dense

end

end LayeredDispatch
