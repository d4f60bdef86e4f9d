import LayeredDispatch.Proofs.Dispatch.Selection
import LayeredDispatch.Proofs.Families.Gathering
import LayeredDispatch.Proofs.Storages.Stocks
import LayeredDispatch.Proofs.Wrappers.Ownership

/-! What every kernel does to the storages. Base kernels make storages that fit their shapes, and write
only such storages; everything above the base makes and takes off wrappers. Main statement: a call on
tensors that have storages keeps all storages fitting their shapes, however it ends, and it ends neither
at a position outside of a sequence nor in a division by zero.
-/

namespace LayeredDispatch

open Run Dispatcher

/-- The calls that kernels issue keep storages fitting their shapes. -/
def Calls.Stock (calls : Calls) : Prop :=
  ∀ op, (calls.dispatch op).Stocks 0 fun _ _ => True

section

variable {machine : Machine} {present : Nat} {tensor : Tensor} {arguments : List Value}
  {level : Level} {calls : Calls} {op : Schema} {storage : Storage}

-----------------------------------------------------------------------------------------
-- Element-wise operators
-----------------------------------------------------------------------------------------

/-- Operands that fit their shapes have all the elements that are read of them.
An element-wise operator fails for them in two ways only, for shapes that clash and for sizes that
are
too large, and both are in range.
-/
theorem Storage.inRange_broadcastBinary {name : String} {left right : Storage}
    (combine : Float → Float → Float) (leftSized : left.Sized) (rightSized : right.Sized)
    : (broadcastBinary name left right combine).Confined Exit.InRange := by
  intro exit ended
  rcases broadcastBinary_error leftSized rightSized ended with apart | tooLarge
  · simp only [broadcastBinary, apart] at ended
    cases ended
    trivial
  · exact tooLarge.inRange

/-- The result of an element-wise operator fits its shape: it has as many elements as were combined,
and
they are counted by the joined shape.
-/
theorem Storage.sized_broadcastBinary {name : String} {left right result : Storage}
    {combine : Float → Float → Float}
    (ended : broadcastBinary name left right combine = .ok result)
    : result.Sized := by
  obtain ⟨shape, -, room, -, rfl⟩ := broadcastBinary_ok ended
  exact sized_combined room

-----------------------------------------------------------------------------------------
-- Base kernels
-----------------------------------------------------------------------------------------

namespace Base

/-- Reading the storage of an operand gives one that fits its shape, since all of them do.
The cell of the operand is one of those that are there; a tensor that is not dense is refused.
-/
theorem stocks_storageOf (based : tensor.Based present) (name : String) (index : Nat)
    : (storageOf tensor name index).Stocks present fun _ storage => storage.Sized := by
  unfold storageOf
  split
  · exact fun _ stocked enough =>
      ⟨stocked, le_rfl, stocked.sized _ (Nat.lt_of_lt_of_le based enough)⟩
  · exact stocks_fail _

/-- The same of an operand that is read at a position of the arguments. -/
theorem stocks_denseAt (based : Value.Based present arguments) (name : String) (index : Nat)
    : (denseAt arguments name index).Stocks present fun _ storage => storage.Sized :=
  (stocks_tensorAt based name index).bind fun _ _ _ known => stocks_storageOf known _ _

/-- A new dense tensor is put on top of the boxed values together with its storage.
The values below keep theirs, since the number of storages grows by one, and the new tensor has the
last.
-/
theorem stocks_pushDense (sized : storage.Sized)
    : (pushDense storage).Stocks present fun _ _ => True := by
  intro machine stocked _
  have grown : machine.heap.storages.size ≤ (machine.heap.newDense storage).2.storages.size := by
    simp [Heap.newDense]
  refine ⟨⟨stocked.sized.newDense sized, Value.based_append.mpr ⟨stocked.based.mono grown, ?_⟩⟩,
    grown, trivial⟩
  refine Value.based_tensor.mpr ?_
  simp [Tensor.Based, Tensor.baseCell]

/-- A storage is written, and the tensor above it put on top.
Their number stays, so whatever had a storage before has one afterwards.
-/
theorem stocks_write (sized : storage.Sized) (cell : Nat) (based : tensor.Based present)
    : (do
        onHeap fun heap => heap.setStorage cell storage
        pushTensor tensor : Run Unit).Stocks present fun _ _ => True := by
  intro machine stocked enough
  have same
      : (machine.heap.setStorage cell storage).storages.size = machine.heap.storages.size := by
    simp [Heap.setStorage]
  refine ⟨⟨stocked.sized.setStorage sized cell, ?_⟩, Nat.le_of_eq same.symm, trivial⟩
  change Value.Based (machine.heap.setStorage cell storage).storages.size _
  rw [same]
  exact Value.based_append.mpr ⟨stocked.based, Value.based_tensor.mpr (based.mono enough)⟩

/-- An element-wise operator on storages that fit their shapes, as a step of a kernel. -/
theorem stocks_broadcast {name : String} {left right : Storage} (combine : Float → Float → Float)
    (leftSized : left.Sized) (rightSized : right.Sized)
    : Run.Stocks present
        (liftM (Storage.broadcastBinary name left right combine) : Run Storage)
        fun _ storage => storage.Sized :=
  stocks_lift (Storage.inRange_broadcastBinary combine leftSized rightSized)
    fun _ ended _ _ => Storage.sized_broadcastBinary ended

/-- The kernel of an element-wise operator takes off two operands, reads both, and pushes what it
makes.
Each step keeps the storages and hands on that what it has read fits.
-/
theorem stocks_binary (name : String) (combine : Float → Float → Float)
    : ((binary name combine).run calls op).Stocks present fun _ _ => True := by
  refine (stocks_pop 2).bind fun arguments _ _ based => ?_
  refine (stocks_denseAt based _ _).bind fun left _ more leftSized => ?_
  refine (stocks_denseAt (based.mono more) _ _).bind fun right _ _ rightSized => ?_
  exact (stocks_broadcast combine leftSized rightSized).bind fun _ _ _ => stocks_pushDense

/-- The storages of a list are added up one after another.
Induction on the list, for every total so far that fits its shape and every number of storages.
-/
theorem stocks_addUp {tensors : List Tensor} (name : String)
    (based : ∀ tensor ∈ tensors, tensor.Based present) (sized : storage.Sized)
    : (tensors.foldlM (fun (total : Storage) tensor => do
          let next ← storageOf tensor name 0
          (Storage.broadcastBinary name total next (· + ·) : Outcome Storage)) storage : Run Storage).Stocks
        present fun _ total => total.Sized := by
  induction tensors generalizing storage present with
  | nil => exact stocks_pure fun _ _ => sized
  | cons tensor tensors ih =>
      obtain ⟨head, tail⟩ := List.forall_mem_cons.mp based
      rw [List.foldlM_cons]
      refine Stocks.bind ((stocks_storageOf head _ _).bind fun next _ _ nextSized =>
        stocks_broadcast _ sized nextSized) fun total _ more totalSized => ?_
      exact ih (fun other member => (tail other member).mono more) totalSized

/-- The kernel that adds up a list keeps the storages: without tensors it refuses, and otherwise the
first
storage is where adding up starts.
-/
theorem stocks_addAll : (addAll.run calls op).Stocks present fun _ _ => True := by
  refine (stocks_pop 1).bind fun arguments count _ based => ?_
  have listed
      : Run.Stocks count (liftM (Value.tensorsAt arguments op.name 0) : Run (List Tensor))
          fun later tensors => ∀ tensor ∈ tensors, tensor.Based later :=
    stocks_lift ((Value.plain_tensorsAt _ _ _).regular.mono fun _ => Exit.Regular.inRange)
      fun tensors found _ more tensor member =>
        (Value.based_iff.mp based tensor (Value.mem_of_tensorsAt found member)).mono more
  refine listed.bind fun tensors _ _ known => ?_
  split
  · exact stocks_fail _
  · obtain ⟨first, others⟩ := List.forall_mem_cons.mp known
    refine (stocks_storageOf first _ _).bind fun start _ more sized => ?_
    refine (stocks_addUp op.name (fun other member => (others other member).mono more) sized).bind ?_
    exact fun _ _ _ => stocks_pushDense

/-- Inserting a dimension of size one leaves the number of elements, so the new storage fits its
shape.
-/
theorem stocks_unsqueeze : (unsqueeze.run calls op).Stocks present fun _ _ => True := by
  refine (stocks_pop 2).bind fun arguments _ _ based => ?_
  refine (stocks_denseAt based _ _).bind fun input _ _ sized => ?_
  refine (stocks_lift_regular (Value.plain_intAt _ _ _).regular).then fun dim _ _ => ?_
  split
  · rename_i shape found
    split at found
    · exact stocks_pushDense (Shape.numel?_insert sized found)
    · cases found
  · exact stocks_fail _

/-- Drawing gives as many numbers as are asked for, and changes the generator only. -/
theorem stocks_drawUniform (count : Size)
    : (drawUniform count).Stocks present fun _ numbers => numbers.length = count :=
  (stocks_lift_regular (Outcome.plain_checkCapacity count).regular).then
    fun _ _ _ _ stocked _ =>
      ⟨⟨stocked.sized, stocked.based⟩, le_rfl, Generator.length_draw count _⟩

/-- The kernel that draws numbers asks for as many as the shape of its result has elements. -/
theorem stocks_rand : (rand.run calls op).Stocks present fun _ _ => True := by
  refine (stocks_pop 1).then fun arguments _ _ => ?_
  refine (stocks_lift_regular (Value.plain_sizesAt _ _ _).regular).then fun sizes _ _ => ?_
  refine Stocks.bind (stocks_lift (Outcome.confined_orFault _ trivial) fun _ found _ _ => found) ?_
  intro count _ _ counted
  refine (stocks_drawUniform count).bind fun numbers _ _ drawn => stocks_pushDense ?_
  unfold Storage.Sized
  rw [Outcome.orFault_ok counted, List.size_toArray, drawn]

/-- In-place addition writes what an element-wise operator makes of two storages that fit their
shapes.
It is the only step that writes, and the target has a storage by the time it comes to it.
-/
theorem stocks_addInPlace : (addInPlace.run calls op).Stocks present fun _ _ => True := by
  refine (stocks_pop 2).bind fun arguments _ _ based => ?_
  refine (stocks_tensorAt based _ _).bind fun target _ more known => ?_
  refine (stocks_denseAt (based.mono more) _ _).bind fun addend _ grown addendSized => ?_
  refine (stocks_storageOf (known.mono grown) _ _).bind fun current _ again currentSized => ?_
  refine (stocks_broadcast _ currentSized addendSized).bind fun updated _ final updatedSized => ?_
  refine .ite (stocks_write updatedSized _ ?_) (stocks_fail _)
  exact (known.mono grown).mono (again.trans final)

/-- In-place resizing writes a storage with as many elements as the sizes ask for. -/
theorem stocks_resizeInPlace : (resizeInPlace.run calls op).Stocks present fun _ _ => True := by
  refine (stocks_pop 2).bind fun arguments _ _ based => ?_
  refine (stocks_tensorAt based _ _).bind fun target _ _ known => ?_
  refine (stocks_lift_regular (Value.plain_sizesAt _ _ _).regular).then fun sizes _ more => ?_
  refine (stocks_storageOf (known.mono more) _ _).then fun current _ grown => ?_
  refine Stocks.bind
    (stocks_lift ((Storage.plain_resize current _).regular.mono fun _ => Exit.Regular.inRange)
      fun _ resized _ _ => resized) fun updated _ again resized => ?_
  exact stocks_write (Storage.sized_resize resized) _ ((known.mono more).mono (grown.trans again))

/-- Every base kernel keeps the storages. One case for each name; the kernels with one step, which
make
something of the operand that they read, are done on the spot.
-/
theorem stocks_baseKernel {name : String} {kernel : Kernel}
    (found : Dispatcher.baseKernel? name = some kernel)
    : (kernel.run calls op).Stocks present fun _ _ => True := by
  unfold Dispatcher.baseKernel? at found
  split at found <;> cases found
  · exact stocks_binary _ _
  · exact stocks_binary _ _
  · exact (stocks_pop 1).bind fun _ _ _ based => (stocks_denseAt based _ _).bind
      fun _ _ _ sized => stocks_pushDense (Storage.sized_map sized _)
  · exact (stocks_pop 1).bind fun _ _ _ based => (stocks_denseAt based _ _).then
      fun _ _ _ => stocks_pushDense rfl
  · exact stocks_addAll
  · exact stocks_unsqueeze
  · refine (stocks_pop 1).then fun _ _ _ => ?_
    refine (stocks_lift_regular (Value.plain_sizesAt _ _ _).regular).then fun sizes _ _ => ?_
    refine Stocks.bind
      (stocks_lift ((Storage.plain_zeros _).regular.mono fun _ => Exit.Regular.inRange)
        fun _ made _ _ => made) fun _ _ _ made => ?_
    exact stocks_pushDense (Storage.sized_zeros made)
  · exact stocks_rand
  · exact stocks_addInPlace
  · exact stocks_resizeInPlace

end Base

-----------------------------------------------------------------------------------------
-- Wrappers
-----------------------------------------------------------------------------------------

namespace Run

/-- A tensor without its dead tags has the storage that it had with them. -/
theorem stocks_unwrapDead (based : tensor.Based present)
    : (unwrapDead tensor).Stocks present Tensor.Based :=
  fun machine stocked enough => ⟨stocked, le_rfl, (based.unwrapDead machine.heap).mono enough⟩

/-- A tagged tensor has the storage of the tensor that it wraps. Tagging changes the wrappers only.
-/
theorem stocks_tagAt (based : tensor.Based present) (level : Level)
    : (tagAt tensor level).Stocks present Tensor.Based := by
  refine (apart_tagAt tensor level).stocks_giving (regular_writing.tagAt tensor level) ?_
  intro _ _ _ ended _ more
  obtain ⟨cell, flag, rfl⟩ := tagAt_ok ended
  exact based.mono more

/-- Making sure of a tag keeps the storage: the tensor is tagged, or left as it is, or refused as
one that
has escaped, which is an end in range.
-/
theorem stocks_materializeAt (based : tensor.Based present) (level : Level)
    : (materializeAt tensor level).Stocks present Tensor.Based := by
  unfold materializeAt
  split
  · exact stocks_tagAt based level
  · exact .ite (stocks_pure fun _ => based.mono)
      (.ite (stocks_tagAt based level) (stocks_fault trivial))

/-- Taking off a tag keeps the storage. What is given is the tensor itself or the one that it wraps.
-/
theorem stocks_unwrapAt (based : tensor.Based present) (level : Level)
    : (unwrapAt tensor level).Stocks present Tensor.Based := by
  refine (apart_noting.unwrapAt tensor level).stocks_giving (regular_writing.unwrapAt tensor level) ?_
  intro _ _ _ ended _ more
  rcases unwrapAt_ok ended with rfl | ⟨cell, flag, rfl⟩ <;> exact based.mono more

theorem stocks_batchAt (based : tensor.Based present) (level : Level)
    : (batchAt tensor level).Stocks present Tensor.Based :=
  fun _ stocked enough => ⟨⟨stocked.sized, stocked.based⟩, le_rfl, based.mono enough⟩

/-- What the entry interceptor makes of a tensor has the storage of the tensor. -/
theorem stocks_receive (layer : Layer) (based : tensor.Based present)
    : (receive layer tensor).Stocks present Tensor.Based := by
  refine (stocks_unwrapDead based).bind fun bare _ _ known => ?_
  split
  · exact stocks_materializeAt known layer.level
  · exact stocks_pure fun _ => known.mono

theorem stocks_currentLayer : currentLayer.Stocks present fun _ _ => True :=
  apart_noting.currentLayer.stocks regular_writing.currentLayer

theorem stocks_logDispatch (event : Event) : (logDispatch event).Stocks present fun _ _ => True :=
  (apart_noting.logDispatch event).stocks (regular_writing.logDispatch event)

/-- A number of values to be taken off the end, of which there may be fewer. -/
theorem stocks_orOverflow (count? : Option Size)
    : Run.Stocks present (liftM (Outcome.orFault count? .overflow) : Run Size)
        fun _ _ => True :=
  stocks_lift_regular (Outcome.confined_orFault count? trivial)

/-- Results that are marked as batched have the storages that they had.
They are the last boxed values; the ones below them are put back as they were.
-/
theorem stocks_wrapResults (count : Nat) (level : Level)
    : (Batching.wrapResults count level).Stocks present fun _ _ => True := by
  refine stocks_values.bind fun values _ _ based => ?_
  refine (stocks_orOverflow _).then fun start _ more => ?_
  have known := based.mono more
  refine (stocks_mapM (fun value _ _ item => ?_) (known.subset (List.drop_subset start _))).bind ?_
  · split
    · refine (stocks_batchAt (Value.based_tensor.mp item) level).bind fun result _ _ wrapped => ?_
      exact stocks_pure fun _ grown => Value.based_tensor.mpr (wrapped.mono grown)
    · exact stocks_pure fun _ => item.mono
  · intro wrapped _ grown results
    refine stocks_replaceValues fun _ later _ _ => Value.based_append.mpr ⟨?_, results.mono later⟩
    exact (known.mono (grown.trans later)).subset (List.take_subset start _)

/-- The last boxed value may be replaced by one that has a storage. -/
theorem stocks_replaceLast {value : Value} (based : Value.Based present [value])
    : (Batching.replaceLast value).Stocks present fun _ _ => True := by
  refine stocks_values.bind fun values _ more known => ?_
  refine (stocks_orOverflow _).then fun start _ grown => ?_
  refine stocks_replaceValues fun _ later _ _ => Value.based_append.mpr ⟨?_, ?_⟩
  · exact (known.mono (grown.trans later)).subset (List.take_subset start _)
  · exact based.mono (more.trans (grown.trans later))

/-- Copies of the arguments without the tags of a layer have the storages of the arguments. -/
theorem stocks_copyUntagged (op : Schema) (level : Level)
    : (copyUntagged op level).Stocks present fun _ _ => True :=
  (stocks_peek _).bind fun _ _ _ based => (stocks_pushAll based).then fun _ _ _ =>
    stocks_mapLast (fun _ _ _ known => stocks_unwrapAt known level) _

/-- On the way out of a layer results are tagged, the shapes that the tags around the arguments
remember are
corrected, and the arguments are dropped. The first of these replaces tensors by others above the
same
storage, the second does not touch storages, and the third leaves a part of the values.
-/
theorem stocks_tagResults (op : Schema) (level : Level)
    : (tagResults op level).Stocks present fun _ _ => True := by
  refine stocks_lastStart_bind fun stop machine stocked enough inside => ?_
  have tagged (tensor : Tensor) (count : Nat) (_ : present ≤ count) (based : tensor.Based count) :=
    stocks_tagAt based level
  refine (stocks_mapRange tagged stocked enough inside).bind fun _ _ _ _ => ?_
  refine (stocks_orOverflow _).then fun start _ _ => (stocks_read _).then fun values _ _ => ?_
  have refreshes
      : Apart (forTensors ((values.take stop).drop start) fun tensor =>
          onHeap fun heap => heap.refresh tensor) :=
    apart_noting.forTensors (fun tensor => apart_onHeap fun heap => by cases tensor <;> rfl) _
  have regular := regular_writing.forTensors
    (fun tensor => confined_onHeap fun heap => heap.refresh tensor) ((values.take stop).drop start)
  refine (refreshes.stocks regular).then fun _ _ _ => ?_
  refine stocks_replaceValues fun _ _ values known => Value.based_append.mpr ⟨?_, ?_⟩
  · exact known.subset (List.take_subset _ _)
  · exact known.subset (List.drop_subset _ _)

end Run

-----------------------------------------------------------------------------------------
-- Interceptors and bodies
-----------------------------------------------------------------------------------------

namespace Calls.Stock

/-- A call that a kernel issues may be started with any number of storages. -/
theorem dispatches (stock : calls.Stock) : (calls.dispatch op).Stocks present fun _ _ => True :=
  fun machine stocked _ => stock op machine stocked (Nat.zero_le _)

/-- A call by name works on values of its own.
It is refused before it starts, with nothing changed, or it is a body on the arguments alone, and
what
was on the stack of values before is there afterwards.
-/
theorem ends_call (stock : calls.Stock) (name : String) (sized : machine.heap.Sized)
    (based : Value.Based machine.heap.storages.size arguments)
    : (calls.call name arguments).Ends machine
        (fun results reached =>
          reached.heap.Holding machine.heap.storages.size
          ∧ reached.values = machine.values
          ∧ Value.Based reached.heap.storages.size results)
        (fun exit reached =>
          reached.heap.Holding machine.heap.storages.size ∧ exit.InRange) := by
  have refused : machine.heap.Holding machine.heap.storages.size := ⟨sized, le_rfl⟩
  unfold Calls.call
  rw [ends_bind, ends_lift]
  unfold Calls.require
  cases calls.schema? name with
  | none => exact ⟨refused, trivial⟩
  | some op =>
      by_cases count : arguments.length = op.arity
      · dsimp only
        rw [if_pos count, ends_bind]
        refine (ends_onValues sized based stock.dispatches).mono ?_ fun _ _ => id
        exact fun _ _ ⟨holding, same, _, known⟩ => ⟨holding, same, known⟩
      · dsimp only
        rw [if_neg count]
        exact ⟨refused, trivial⟩

/-- The values around a call keep their storages, since none is taken away, and the results have
theirs.
-/
theorem call (stock : calls.Stock) (name : String) (based : Value.Based present arguments)
    : (calls.call name arguments).Stocks present Value.Based := by
  intro machine stocked enough
  refine (stock.ends_call name stocked.sized (based.mono enough)).mono ?_ fun _ _ => id
  rintro results reached ⟨holding, same, known⟩
  refine ⟨⟨holding.sized, ?_⟩, holding.enough, known⟩
  rw [same]
  exact stocked.based.mono holding.enough

/-- A call that gives one tensor gives one that has a storage; any other number of results is
refused.
-/
theorem callTensor (stock : calls.Stock) (name : String) (based : Value.Based present arguments)
    : (calls.callTensor name arguments).Stocks present Tensor.Based := by
  refine (stock.call name based).bind fun results _ _ known => ?_
  split
  · exact stocks_pure fun _ more => (known.of_mem List.mem_cons_self).mono more
  · exact stocks_fail _

/-- Padding gives a tensor that has a storage. Induction on the number of insertions that are left:
each is a
call on the tensor so far, and what the call gives is the tensor for the next.
-/
theorem pad (stock : calls.Stock) (rank budget : Nat) (based : tensor.Based present)
    : (Batching.pad calls rank budget tensor).Stocks present Tensor.Based := by
  induction budget generalizing tensor present with
  | zero =>
      unfold Batching.pad
      refine (stocks_read _).then fun _ _ more => .ite (stocks_fault trivial) ?_
      exact stocks_pure fun _ grown => based.mono (more.trans grown)
  | succ budget ih =>
      unfold Batching.pad
      refine (stocks_read _).then fun _ _ more => .ite ?_ ?_
      · have single : Value.Based _ [.tensor tensor, .int 1] :=
          Value.based_cons.mpr ⟨Value.based_tensor.mpr (based.mono more), Value.based_int 1⟩
        exact (stock.callTensor _ single).bind fun padded _ _ known => ih known
      · exact stocks_pure fun _ grown => based.mono (more.trans grown)

/-- A call that is handed to the layer below runs under up to four guards.
They hide the top layer, switch off gradient modes where the layer says so, and replace the overlay;
no
guard touches storages or boxed values, so the cases of the modes are alike.
-/
theorem dispatchBelow (stock : calls.Stock) (layer : Layer)
    : (LayeredDispatch.dispatchBelow calls op layer).Stocks present fun _ _ => True := by
  have below
      : Run.Stocks present (do
          let overlay ← overlayBelow op layer
          Run.holding (Guard.replaceOverlay overlay) do
            calls.dispatch op
            if (← Run.layerCount) = 0 then Run.logDispatch (.reentering op.name))
          fun _ _ => True := by
    refine Stocks.then (Apart.stocks (apart_noting.overlayBelow op layer)
      (regular_writing.overlayBelow op layer)) fun overlay _ _ => ?_
    refine Stocks.holding (apart_layering.replaceOverlay overlay) (fun _ => trivial) ?_
    refine stock.dispatches.then fun _ _ _ => (stocks_read _).then fun _ _ _ => ?_
    exact .ite (stocks_logDispatch _) stocks_done
  refine Stocks.holding apart_layering.hideTop regular_layering.hideTop ?_
  refine .ite (Stocks.holding (apart_layering.gradMode _) (fun _ => trivial) ?_) ?_
  all_goals refine .ite (Stocks.holding (apart_layering.forwardGradMode _) ?_ below) below
  all_goals exact regular_layering.forwardGradMode _

end Calls.Stock

namespace Run

/-- The entry interceptor keeps the storages: it may refuse to write to a captured value, prepares
the
tensors among the arguments one by one, and hands the call on under another overlay.
-/
theorem stocks_entryInterceptor (stock : calls.Stock)
    : (entryInterceptor.run calls op).Stocks present fun _ _ => True := by
  refine (stocks_read _).then fun top? _ _ => ?_
  split
  · exact stocks_fault trivial
  · rename_i layer
    refine (Apart.stocks apart_noting.renderLayers regular_writing.renderLayers).then
      fun shown _ _ => ?_
    refine (stocks_logDispatch _).then fun _ _ _ => ?_
    refine ((apart_noting.refuseCapturedMutation op layer).stocks
      (regular_writing.refuseCapturedMutation op layer)).then fun _ _ _ => ?_
    refine (stocks_mapLast (fun _ _ _ known => stocks_receive layer known) _).then fun _ _ _ => ?_
    refine (stocks_read _).then fun overlay _ _ => ?_
    exact Stocks.holding (apart_layering.replaceOverlay _) (fun _ => trivial) stock.dispatches

/-- The exit interceptor keeps the storages, with and without copies of the arguments to hand on.
-/
theorem stocks_exitInterceptor (stock : calls.Stock)
    : (exitInterceptor.run calls op).Stocks present fun _ _ => True := by
  refine stocks_currentLayer.then fun layer _ _ => ?_
  split
  · exact stock.dispatchBelow layer
  · exact (stocks_copyUntagged op _).then fun _ _ _ => (stock.dispatchBelow layer).then
      fun _ _ _ => stocks_tagResults op _

/-- The body of a differentiation layer hands the call on and afterwards writes into tags. -/
theorem stocks_differentiationBody (stock : calls.Stock)
    : (differentiationBody.run calls op).Stocks present fun _ _ => True :=
  stocks_currentLayer.then fun layer _ _ => (stocks_read _).then fun recording _ _ =>
    (stock.dispatches.hiding _).then fun _ _ _ =>
      (apart_recordGradFns op layer.level recording).stocks
        (regular_writing.recordGradFns op layer.level recording)

/-- Outside all layers dead tags are taken off, or the call faults in range, and it is handed on.
-/
theorem stocks_deadWrapperFallback (stock : calls.Stock)
    : (deadWrapperFallback.run calls op).Stocks present fun _ _ => True := by
  refine (stocks_mapLast (fun tensor _ _ known => ?_) _).then fun _ _ _ => stock.dispatches
  refine (stocks_unwrapDead known).bind fun bare _ _ bareKnown => ?_
  split
  · exact stocks_fault trivial
  · exact stocks_pure fun _ => bareKnown.mono

-----------------------------------------------------------------------------------------
-- Batching rules
-----------------------------------------------------------------------------------------

/-- The tensor inside a batch has the storage of the batch. -/
theorem based_physical {argument : Value} {physical : Tensor}
    (found : Batching.physicalArgument? level argument = some physical)
    (based : Value.Based present [argument])
    : physical.Based present := by
  obtain ⟨tensor, given, at_level⟩ := Option.bind_eq_some_iff.mp found
  obtain ⟨handle, rfl⟩ := Tensor.physicalAt?_eq_some at_level
  rw [Value.tensor?_eq_some given] at based
  have whole : (Tensor.batched handle level physical).Based present := Value.based_tensor.mp based
  exact whole

/-- The rule for element-wise operators pads the physical values one after another, calls the
operator on
them, and marks its results.
-/
theorem stocks_pointwise (stock : calls.Stock)
    : (Batching.pointwise.run calls op).Stocks present fun _ _ => True := by
  refine stocks_currentLayer.then fun layer _ _ => (stocks_pop _).bind fun arguments _ _ based => ?_
  refine (stocks_read _).then fun rank _ more => Stocks.hiding _ ?_
  refine (stocks_mapM (fun argument _ _ item => ?_) (based.mono more)).bind ?_
  · split
    · exact stocks_pure fun _ => item.mono
    · rename_i physical found
      refine (stock.pad rank _ (based_physical found item)).bind fun result _ _ known => ?_
      exact stocks_pure fun _ grown => Value.based_tensor.mpr (known.mono grown)
  · intro padded _ _ prepared
    refine (stocks_pushAll prepared).then fun _ _ _ => stock.dispatches.then fun _ _ _ => ?_
    exact .ite (stocks_wrapResults _ _) stocks_done

/-- The rule for inserting a dimension calls the operator on the physical value, or, for a value
that is not
batched here, on the arguments as they are.
-/
theorem stocks_unsqueezeRule (stock : calls.Stock)
    : (Batching.unsqueeze.run calls op).Stocks present fun _ _ => True := by
  refine stocks_currentLayer.then fun layer _ _ => (stocks_pop _).bind fun arguments _ _ based => ?_
  refine (stocks_tensorAt based _ _).bind fun input _ more known => ?_
  refine (stocks_lift_regular (Value.plain_intAt _ _ _).regular).then fun dim _ grown =>
    Stocks.hiding _ ?_
  split
  · rename_i physical found
    obtain ⟨handle, rfl⟩ := Tensor.physicalAt?_eq_some found
    refine (stocks_read _).then fun shape _ again => .ite ?_ (stocks_fail _)
    refine (stocks_pushAll ?_).then fun _ _ _ => stock.dispatches.then fun _ _ _ =>
      stocks_wrapResults _ _
    have inner : physical.Based _ := known.mono (grown.trans again)
    exact Value.based_cons.mpr ⟨Value.based_tensor.mpr inner, Value.based_int _⟩
  · exact (stocks_pushAll (based.mono (more.trans grown))).then fun _ _ _ => stock.dispatches

/-- The rule for in-place addition pads the addend, calls the operator on the physical values, and
gives back
the batch that it was called with, which still has its storage.
The step that issues the call is stated once: the addend may be batched here or not.
-/
theorem stocks_addInPlaceRule (stock : calls.Stock)
    : (Batching.addInPlace.run calls op).Stocks present fun _ _ => True := by
  refine stocks_currentLayer.then fun layer _ _ => (stocks_pop _).bind fun arguments _ _ based => ?_
  refine (stocks_tensorAt based _ _).bind fun target _ more targetKnown => ?_
  refine (stocks_tensorAt (based.mono more) _ _).bind fun other count grown known => Stocks.hiding _ ?_
  have target_based : target.Based count := targetKnown.mono grown
  have adds {physical addend : Tensor} {later : Nat} (more : count ≤ later)
      (found : target.physicalAt? layer.level = some physical) (addendKnown : addend.Based later)
      : Run.Stocks later
          (do
            pushAll [.tensor physical, .tensor addend]
            calls.dispatch op
            Batching.replaceLast (.tensor target))
          fun _ _ => True := by
    obtain ⟨handle, rfl⟩ := Tensor.physicalAt?_eq_some found
    have physical_based : physical.Based later := target_based.mono more
    refine (stocks_pushAll (Value.based_cons.mpr ⟨Value.based_tensor.mpr physical_based,
      Value.based_tensor.mpr addendKnown⟩)).then fun _ _ again => ?_
    refine stock.dispatches.then fun _ _ final => stocks_replaceLast (Value.based_tensor.mpr ?_)
    exact target_based.mono (more.trans (again.trans final))
  split
  · exact stocks_fail _
  · exact (stocks_pushAll (based.mono (more.trans grown))).then fun _ _ _ => stock.dispatches
  · rename_i physical found
    refine (stocks_read _).then fun shape _ again => ?_
    split
    · rename_i batch batched
      obtain ⟨handle, rfl⟩ := Tensor.physicalAt?_eq_some batched
      have batch_based : batch.Based _ := known.mono again
      refine (stock.pad _ _ batch_based).bind fun addend _ final padded => ?_
      exact adds (again.trans final) found padded
    · exact Stocks.bind (stocks_pure fun _ more => known.mono (again.trans more))
        fun addend _ final given => adds (again.trans final) found given

/-- The rule for random numbers refuses, hands the call on, or asks for more numbers and marks them.
-/
theorem stocks_random (stock : calls.Stock)
    : (Batching.random.run calls op).Stocks present fun _ _ => True := by
  refine stocks_currentLayer.then fun layer _ _ => Stocks.hiding _ ?_
  split
  · exact stocks_fault trivial
  · exact stocks_fail _
  · exact stock.dispatches
  · rename_i batch policy
    refine (stocks_pop _).then fun arguments _ _ => ?_
    refine (stocks_lift_regular (Value.plain_sizesAt _ _ _).regular).then fun sizes _ _ => ?_
    refine (stocks_pushAll (Value.based_ints _)).then fun _ _ _ => ?_
    exact stock.dispatches.then fun _ _ _ => stocks_wrapResults _ _

/-- Every batching rule keeps the storages; an operator without a rule is refused after a line in
the log.
-/
theorem stocks_batchRule (stock : calls.Stock)
    : ((batchRule op.name).run calls op).Stocks present fun _ _ => True := by
  unfold batchRule
  split
  · exact stocks_pointwise stock
  · exact stocks_pointwise stock
  · exact stocks_pointwise stock
  · exact stocks_unsqueezeRule stock
  · exact stocks_addInPlaceRule stock
  · exact ((apart_noting.log _).stocks (regular_writing.log _)).then fun _ _ _ => stocks_fail _

-----------------------------------------------------------------------------------------
-- Calls
-----------------------------------------------------------------------------------------

/-- Whatever kernel is chosen keeps the storages, if the calls that it issues do.
The cases are the hooks in the order in which they are consulted.
-/
theorem stocks_of_select {set : CapabilitySet} {capability : Capability} {kernel : Kernel}
    (stock : calls.Stock) (selected : standard.select op set = some (capability, kernel))
    : (kernel.run calls op).Stocks present fun _ _ => True := by
  rw [select_standard] at selected
  split at selected
  · cases selected
    exact stocks_entryInterceptor stock
  split at selected
  · cases selected
    exact stocks_random stock
  split at selected
  · cases selected
    exact stocks_batchRule stock
  split at selected
  · cases selected
    exact stocks_differentiationBody stock
  split at selected
  · cases selected
    exact stocks_deadWrapperFallback stock
  split at selected
  · cases selected
    exact stocks_exitInterceptor stock
  split at selected
  · obtain ⟨base, found, chosen⟩ := Option.map_eq_some_iff.mp selected
    cases chosen
    exact Base.stocks_baseKernel found
  · cases selected

/-- Calls keep the storages however deeply they nest. Induction over how deeply they may: at depth
zero a call
faults in range; at any other the chosen kernel issues calls that have one level less.
-/
theorem stocks_dispatchWithin (budget : Nat)
    : Calls.Stock ⟨standard.dispatchWithin budget, standard.schema?⟩ := by
  induction budget with
  | zero => exact fun _ => stocks_fault trivial
  | succ budget ih =>
      intro op
      refine ((stocks_peek _).then fun _ _ _ => stocks_read _).then fun set _ _ => ?_
      cases selected : standard.select op set with
      | none => exact stocks_fail _
      | some chosen => exact (stocks_of_select ih selected).traced op.name chosen.1

end Run

/-- A call on tensors that have storages leaves storages that fit their shapes, however it ends; a call
that gives a value gives tensors that have storages, and any other one ends in range.
-/
theorem Dispatcher.stocks_call (name : String) (sized : machine.heap.Sized)
    (based : Value.Based machine.heap.storages.size arguments)
    : (standard.call name arguments).Ends machine
        (fun results reached =>
          reached.heap.Holding machine.heap.storages.size
          ∧ Value.Based reached.heap.storages.size results)
        (fun exit reached =>
          reached.heap.Holding machine.heap.storages.size ∧ exit.InRange) := by
  let budget := standard.budget machine.thread.layers.length
  have starts
      : standard.call name arguments machine
        = Calls.call ⟨standard.dispatchWithin budget, standard.schema?⟩ name arguments machine :=
    rfl
  unfold Ends
  rw [starts]
  apply Ends.mono ((stocks_dispatchWithin budget).ends_call name sized based)
  · exact fun _ _ ⟨holding, _, known⟩ => ⟨holding, known⟩
  · exact fun _ _ => id

end
end LayeredDispatch
