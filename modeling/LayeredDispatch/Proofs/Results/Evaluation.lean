import LayeredDispatch.Proofs.Dispatch.Unreached
import LayeredDispatch.Proofs.Results.Fitting
import LayeredDispatch.Proofs.Twins.Outside

/-! What the base operators without a rule for batches compute. They read the storages of dense
arguments and make a new one, whatever else there is in the state. Main statements: on dense arguments
their kernels do so, and arguments with the same storages below their tensors come to the same.
-/

namespace LayeredDispatch

open Run Dispatcher

/-- What a base operator without a rule makes of its arguments if their tensors are read as storages by
`read`.
-/
def Base.evaluate (read : Tensor → Storage) (name : String) (arguments : List Value)
    : Outcome Storage :=
  match name with
  | "sum" => do
      let input ← read <$> Value.tensorAt arguments name 0
      return .scalar input.sum
  | "add_n" => do
      match ← List.map read <$> Value.tensorsAt arguments name 0 with
      | [] => Outcome.fail (.invalidArgument name 0 .expectedNonempty)
      | first :: others =>
          others.foldlM (fun total next => Storage.broadcastBinary name total next (· + ·)) first
  | _ => do
      let sizes ← Value.sizesAt arguments name 0
      Storage.zeros ⟨sizes⟩

/-- The storage below all wrappers. -/
def Heap.below (heap : Heap) (tensor : Tensor) : Storage :=
  heap.storage tensor.baseCell

/-- The dense tensor below all wrappers. -/
def Tensor.bottom (tensor : Tensor) : Tensor :=
  .dense tensor.baseCell

section

variable {read read' : Tensor → Storage} {among : Tensor → Tensor → Prop}
  {arguments inner outer items replaced : List Value} {machine : Machine} {op : Schema}
  {kernel : Kernel}

-----------------------------------------------------------------------------------------
-- Arguments that are read alike
-----------------------------------------------------------------------------------------

namespace Value

/-- Lists of values in which related tensors stand in the same places give the same readings of
their tensors, and are refused in the same way where something else than a tensor stands in them.
-/
theorem RelatedAll.mapM_tensors (related : RelatedAll among items replaced)
    (same : ∀ tensor ∈ tensorsAll items, ∀ result, among tensor result → read tensor = read' result)
    {tensorOf : Value → Outcome Tensor} (refusal : Exit)
    (accepts : ∀ tensor, tensorOf (.tensor tensor) = .ok tensor)
    (refuses : ∀ value, value.tensor? = none → tensorOf value = .error refusal)
    : List.map read <$> items.mapM tensorOf = List.map read' <$> replaced.mapM tensorOf := by
  have shift (read : Tensor → Storage) (first : Tensor) (rest : Outcome (List Tensor))
      : List.map read
            <$> (do
              let first ← Except.ok first
              let others ← rest
              pure (first :: others))
        = (read first :: ·) <$> List.map read <$> rest := by
    cases rest <;> rfl
  induction items generalizing replaced with
  | nil =>
      cases related
      rfl
  | cons item items ih =>
      cases related with
      | cons head tail =>
          obtain ⟨own, others⟩ := List.forall_mem_append.mp same
          rw [List.mapM_cons, List.mapM_cons]
          cases head with
          | @tensor tensor result among =>
              rw [accepts, accepts, shift, shift, ih tail others,
                own tensor (List.mem_singleton_self tensor) result among]
          | list _ =>
              rw [refuses _ rfl, refuses _ rfl]
              rfl
          | plain bare =>
              have refused : item.tensor? = none := by
                cases item with
                | tensor tensor => cases bare
                | list _ | absent | bool _ | int _ | float _ | ints _ => rfl
              rw [refuses item refused]
              rfl

/-- The tensors of a list argument are read alike on both sides, where related tensors are. -/
theorem RelatedAll.tensorsAt_eq (related : RelatedAll among arguments inner)
    (same
      : ∀ tensor ∈ tensorsAll arguments, ∀ result, among tensor result → read tensor = read' result)
    (name : String)
    : List.map read <$> tensorsAt arguments name 0 = List.map read' <$> tensorsAt inner name 0 := by
  have listed {items replaced : List Value} (related : RelatedAll among items replaced)
      (same
        : ∀ tensor ∈ tensorsAll items, ∀ result, among tensor result → read tensor = read' result)
      : List.map read <$> tensorsAt [.list items] name 0
        = List.map read' <$> tensorsAt [.list replaced] name 0 := by
    refine related.mapM_tensors same (.error (.invalidArgument name 0 .expectedTensorList))
      (fun _ => rfl) fun value none => ?_
    cases value with
    | tensor tensor => cases none
    | list _ | absent | bool _ | int _ | float _ | ints _ => rfl
  cases related with
  | nil => rfl
  | @cons value _ _ _ head _ =>
      obtain ⟨own, -⟩ := List.forall_mem_append.mp same
      cases head with
      | tensor _ => rfl
      | list related => exact listed related own
      | plain bare =>
          cases value with
          | list items =>
              have bare : tensorsAll items = [] := bare
              have none {holds : Tensor → Prop} : ∀ tensor ∈ tensorsAll items, holds tensor := by
                rw [bare]
                exact List.forall_mem_nil _
              exact listed (.refl items none) none
          | tensor _ | absent | bool _ | int _ | float _ | ints _ => rfl

/-- So is a tensor argument. -/
theorem RelatedAll.tensorAt_eq (related : RelatedAll among arguments inner)
    (same
      : ∀ tensor ∈ tensorsAll arguments, ∀ result, among tensor result → read tensor = read' result)
    (name : String)
    : read <$> tensorAt arguments name 0 = read' <$> tensorAt inner name 0 := by
  cases related with
  | nil => rfl
  | @cons value _ _ _ head _ =>
      obtain ⟨own, -⟩ := List.forall_mem_append.mp same
      cases head with
      | @tensor tensor result among =>
          exact congrArg Except.ok (own tensor (List.mem_singleton_self tensor) result among)
      | list _ => rfl
      | plain bare =>
          cases value with
          | tensor tensor => cases bare
          | list _ | absent | bool _ | int _ | float _ | ints _ => rfl

/-- Only the storages below the tensors count. An operator without a rule has one argument, which is
sizes, a tensor or a list of tensors, and it is read alike in each of these cases.
-/
theorem RelatedAll.evaluate_eq (related : RelatedAll among arguments inner)
    (same
      : ∀ tensor ∈ tensorsAll arguments, ∀ result, among tensor result → read tensor = read' result)
    (name : String)
    : Base.evaluate read name arguments = Base.evaluate read' name inner := by
  unfold Base.evaluate
  split
  · rw [related.tensorAt_eq same]
  · rw [related.tensorsAt_eq same]
  · rw [related.sizesAt_eq]

mutual
/-- A value is related to the value in which every tensor has been replaced. The proof follows the
shape of the value.
-/
theorem related_mapTensors (replace : Tensor → Tensor) (value : Value)
    : Related (fun tensor result => result = replace tensor) value (value.mapTensors replace) := by
  cases value with
  | tensor handle => exact .tensor rfl
  | list items => exact .list (related_mapTensorsAll replace items)
  | absent | bool _ | int _ | float _ | ints _ => exact .plain rfl

/-- What is put in the places of tensors is related to them, value by value. -/
theorem related_mapTensorsAll (replace : Tensor → Tensor) (values : List Value)
    : RelatedAll (fun tensor result => result = replace tensor) values
        (mapTensorsAll replace values) := by
  cases values with
  | nil => exact .nil
  | cons value values =>
      exact .cons (related_mapTensors replace value) (related_mapTensorsAll replace values)
end

end Value

/-- Wrappers around the arguments are of no account: the dense tensors at their bottoms are
evaluated to the same storage.
-/
theorem Base.evaluate_bottom (heap : Heap) (name : String) (arguments : List Value)
    : evaluate heap.below name (Value.mapTensorsAll Tensor.bottom arguments)
      = evaluate heap.below name arguments := by
  symm
  apply (Value.related_mapTensorsAll Tensor.bottom arguments).evaluate_eq
  rintro tensor _ _ rfl
  rfl

-----------------------------------------------------------------------------------------
-- The kernels
-----------------------------------------------------------------------------------------

namespace Base

theorem storageOf_dense {tensor : Tensor} (dense : tensor.isDense = true) (name : String)
    (index : Nat)
    : storageOf tensor name index machine = .ok (machine.heap.below tensor) machine := by
  cases tensor with
  | dense cell => rfl
  | tagged cell level flag value => cases dense
  | batched handle level value => cases dense

/-- Adding up dense tensors one after another is adding up their storages, by induction on the
tensors that are left. Looking into the state between the additions makes no difference.
-/
theorem foldlM_storageOf {tensors : List Tensor} (dense : ∀ tensor ∈ tensors, tensor.isDense = true)
    (name : String) (start : Storage)
    : (tensors.foldlM
          (fun (total : Storage) tensor => do
            let next ← storageOf tensor name 0
            (Storage.broadcastBinary name total next (· + ·) : Outcome Storage)) start
          : Run Storage) machine
      = (liftM
          ((tensors.map machine.heap.below).foldlM
            (fun total next => Storage.broadcastBinary name total next (· + ·)) start)
          : Run Storage) machine := by
  induction tensors generalizing start with
  | nil => rfl
  | cons tensor tensors ih =>
      obtain ⟨first, others⟩ := List.forall_mem_cons.mp dense
      rw [List.foldlM_cons, List.map_cons, List.foldlM_cons, bind_apply, bind_apply,
        storageOf_dense first]
      cases added : Storage.broadcastBinary name start (machine.heap.below tensor) (· + ·) with
      | ok total =>
          simp only [added]
          exact ih others total
      | error exit =>
          simp only [added]
          rfl

/-- A dense argument is read off the state, and an argument that is no tensor is refused before the
state is looked at.
-/
theorem denseAt_dense (dense : ∀ tensor ∈ Value.tensorsAll arguments, tensor.isDense = true)
    (name : String) (index : Nat)
    : denseAt arguments name index machine
      = (liftM (machine.heap.below <$> Value.tensorAt arguments name index) : Run Storage)
          machine := by
  rw [denseAt, bind_apply]
  cases found : Value.tensorAt arguments name index with
  | ok tensor =>
      have member := Value.mem_tensorsAll (List.mem_of_getElem? (Value.tensorAt_ok found))
        (List.mem_singleton_self tensor)
      exact storageOf_dense (dense tensor member) name index
  | error exit => rfl

section

variable (values : machine.values = outer ++ arguments) (size : arguments.length = 1)
  (dense : ∀ tensor ∈ Value.tensorsAll arguments, tensor.isDense = true) (calls : Calls)

include values size

theorem pop_argument : pop 1 machine = .ok arguments { machine with values := outer } := by
  rw [← size]
  exact pop_append values

/-- The base kernel for zeros stores what its argument is evaluated to. No tensor is among the
arguments, so that nothing is asked of them.
-/
theorem zeros_apply (named : op.name = "zeros")
    : zeros.run calls op machine
      = ((liftM (evaluate machine.heap.below op.name arguments) : Run Storage) >>= pushDense)
          { machine with values := outer } := by
  have evaluated
      : evaluate machine.heap.below "zeros" arguments
        = (do
          let sizes ← Value.sizesAt arguments "zeros" 0
          Storage.zeros ⟨sizes⟩) :=
    rfl
  simp only [zeros, named]
  rw [bind_apply, pop_argument values size]
  simp only
  rw [bind_apply, bind_apply, evaluated]
  cases Value.sizesAt arguments "zeros" 0 with
  | error exit => rfl
  | ok sizes => exact bind_apply _ _ _

include dense

/-- The base kernel for sums stores what its argument is evaluated to. -/
theorem sum_apply (named : op.name = "sum")
    : sum.run calls op machine
      = ((liftM (evaluate machine.heap.below op.name arguments) : Run Storage) >>= pushDense)
          { machine with values := outer } := by
  simp only [sum, named]
  rw [bind_apply, pop_argument values size]
  simp only
  rw [bind_apply, denseAt_dense dense, bind_apply, evaluate]
  cases Value.tensorAt arguments "sum" 0 <;> rfl

/-- The base kernel that adds up a list stores what the list is evaluated to. It refuses an empty
list before it looks at any storage, as the evaluation does.
-/
theorem addAll_apply (named : op.name = "add_n")
    : addAll.run calls op machine
      = ((liftM (evaluate machine.heap.below op.name arguments) : Run Storage) >>= pushDense)
          { machine with values := outer } := by
  simp only [addAll, named]
  rw [bind_apply, pop_argument values size]
  simp only
  rw [bind_apply, bind_apply, evaluate]
  cases listed : Value.tensorsAt arguments "add_n" 0 with
  | error exit => rfl
  | ok tensors =>
      cases tensors with
      | nil => rfl
      | cons first others =>
          have dense : ∀ tensor ∈ first :: others, tensor.isDense = true :=
            fun tensor member => dense tensor (Value.mem_of_tensorsAt listed member)
          obtain ⟨head, tail⟩ := List.forall_mem_cons.mp dense
          let popped : Machine := { machine with values := outer }
          have added := @foldlM_storageOf popped others tail "add_n" (machine.heap.below first)
          change (storageOf first "add_n" 0 >>= _) popped = _
          rw [bind_apply, storageOf_dense head]
          change (others.foldlM _ _ >>= pushDense) popped = _
          rw [bind_apply, added]
          rfl

/-- On dense arguments the kernels of operators without a rule make a tensor of what they evaluate to,
and do nothing else.
-/
theorem kernel_apply (ruleless : op.name ∈ ruleless) (found : baseKernel? op.name = some kernel)
    : kernel.run calls op machine
      = ((liftM (evaluate machine.heap.below op.name arguments) : Run Storage) >>= pushDense)
          { machine with values := outer } := by
  rcases ruleless_cases ruleless with named | named | named
  · rw [named] at found
    cases found
    exact sum_apply values size dense calls named
  · rw [named] at found
    cases found
    exact addAll_apply values size dense calls named
  · rw [named] at found
    cases found
    exact zeros_apply values size calls named

end
end Base

end
end LayeredDispatch
