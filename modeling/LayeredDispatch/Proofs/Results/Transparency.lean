import LayeredDispatch.Proofs.Framing.Calls
import LayeredDispatch.Proofs.Nesting.Termination
import LayeredDispatch.Proofs.Results.Evaluation
import LayeredDispatch.Proofs.Results.Handlers

/-! Operators without a rule for batches see through tags, but not through batches. Main statement: under
every built stack, a call of one of them on well-formed arguments is refused before any base kernel has
run, if there is a batch around some tensor among the arguments, whatever else is around it; otherwise
the call does what the base kernel does on the dense tensors below the arguments.
-/

namespace LayeredDispatch

open Run Dispatcher

/-- What becomes of a call of an operator without a rule: a refusal if some argument is a batch below
its tags, and otherwise what the base operator makes of the storages below the arguments.
-/
def Heap.verdict (heap : Heap) (name : String) (arguments : List Value) : Outcome Storage :=
  if ∀ tensor ∈ Value.tensorsAll arguments, tensor.batches = 0 then
    Base.evaluate heap.below name arguments
  else Outcome.fail (.missingBatchRule name)

/-- The result of a call of an operator without a rule. There may be tags around it, and the storage
below them is what the call came to.
-/
structure Tensor.Delivered (layers : List Layer) (before : Heap) (name : String)
    (arguments : List Value) (after : Heap) (result : Tensor)
    : Prop where
  fits : result.Fits after layers
  unbatched : result.batches = 0
  grows : before.Grows after
  made : before.verdict name arguments = .ok (after.below result)

/-- The computation puts the result of a call in the place of its arguments, or ends as the call does,
unless calls nest too deep.
-/
def Run.Delivers (body : Run Unit) (name : String) (layers : List Layer)
    (outer arguments : List Value) (machine : Machine)
    : Prop :=
  body.Leaves machine
    (fun _ values memory =>
      ∃ result,
        values = outer ++ [.tensor result]
        ∧ result.Delivered layers machine.heap name arguments memory.heap)
    (fun exit _ => exit = .fault .diverged ∨ machine.heap.verdict name arguments = .error exit)

/-- Calls of operators without a rule deliver their results. -/
def Contract.delivers : Contract :=
  fun budget owners op machine body =>
    op.name ∈ ruleless
    → ∀ outer arguments,
        machine.Supplied budget op owners outer arguments
        → body.Delivers op.name owners outer arguments machine

/-- A call ends as a base kernel does by itself: with a tensor of the same shape and the same elements,
or without a value for the same reason.
-/
def Dispatcher.SameEnd (called : EStateM.Result Exit Machine (List Value))
    (alone : EStateM.Result Exit Machine Unit)
    : Prop :=
  match called, alone with
  | .ok results reached, .ok _ own =>
      ∃ result made : Tensor,
        results = [.tensor result]
        ∧ own.values = [.tensor made]
        ∧ result.shape reached.heap = made.shape own.heap
        ∧ result.data reached.heap = made.data own.heap
  | .error exit _, .error other _ => exit = other
  | .ok _ _, .error _ _ | .error _ _, .ok _ _ => False

section

variable {machine held : Machine} {op : Schema} {owners below layers : List Layer} {layer : Layer}
  {arguments inner outer : List Value} {tensor result : Tensor} {budget : Nat} {name : String}
  {heap before after later : Heap}

-----------------------------------------------------------------------------------------
-- Below the tags
-----------------------------------------------------------------------------------------

namespace Tensor

theorem batches_bare (tensor : Tensor) : tensor.bare.batches = tensor.batches := by
  induction tensor with
  | dense cell => rfl
  | tagged cell level flag value ih => exact ih
  | batched handle level value ih => exact congrArg Nat.succ ih

/-- Where there are only tags around a tensor, they remember the shape of the storage below: each of
them is up to date with the value in it.
-/
theorem Fits.shape_eq (fits : tensor.Fits heap layers) (unbatched : tensor.batches = 0)
    : tensor.shape heap = (heap.below tensor).shape := by
  induction fits with
  | dense present sized => rfl
  | alone fits ih => exact ih unbatched
  | tagged kind alive present accurate fits ih =>
      rw [shape, if_pos alive, accurate]
      exact ih unbatched
  | batched batch outermost fits ih => cases unbatched

theorem Fits.below_eq (fits : tensor.Fits before layers) (grows : before.Grows after)
    : after.below tensor = before.below tensor :=
  (grows.storages _ fits.suits.stored).2

namespace Delivered

theorem grown (h : result.Delivered layers before name arguments after) (grows : after.Grows later)
    : result.Delivered layers before name arguments later where
  fits := (h.fits.grows grows).fits
  unbatched := h.unbatched
  grows := h.grows.trans grows
  made := by rw [h.made, h.fits.below_eq grows]

theorem above (h : result.Delivered below before name arguments after)
    : result.Delivered (layer :: below) before name arguments after :=
  { h with fits := .alone h.fits }

/-- A new tag around a result. The tags around the arguments, which are looked at again, are up to date.
-/
theorem tagged {flag : Nat} (h : result.Delivered below before name arguments after)
    (kind : layer.kind = .differentiation) (alive : after.isAlive flag = true)
    (fits : ∀ tensor ∈ Value.tensorsAll arguments, tensor.Fits before layers)
    : (after.newTagged result layer.level flag).1.Delivered (layer :: below) before name arguments
        ((Value.tensorsAll arguments).foldl Heap.refresh
          (after.newTagged result layer.level flag).2) := by
  have grown := after.grows_newTagged result layer.level flag
  have refreshed
      : (after.newTagged result layer.level flag).2.Grows
          ((Value.tensorsAll arguments).foldl Heap.refresh
            (after.newTagged result layer.level flag).2) :=
    Heap.grows_refreshAll fun tensor member =>
      ((fits tensor member).grows (h.grows.trans grown)).fits
  exact
    { fits := ((h.fits.standsFor_newTagged kind alive).fits.grows refreshed).fits
      unbatched := h.unbatched
      grows := (h.grows.trans grown).trans refreshed
      made := by
        rw [h.made, ← h.fits.below_eq (grown.trans refreshed)]
        rfl }

end Delivered
end Tensor

-----------------------------------------------------------------------------------------
-- From an inner call to the call around it
-----------------------------------------------------------------------------------------

/-- What becomes of a call does not change when it is handed on. What takes the places of the
arguments differs from them in tags only, so that there are as many batches and the same storages.
-/
theorem Machine.HandsOn.verdict_eq
    (handed : machine.HandsOn held budget op owners outer arguments inner)
    (fits : ∀ tensor ∈ Value.tensorsAll arguments, tensor.Fits machine.heap layers) (name : String)
    : held.heap.verdict name inner = machine.heap.verdict name arguments := by
  have batches {tensor result : Tensor}
      (replaces : Tensor.Replaces owners machine.heap tensor held.heap result)
      : result.batches = tensor.batches := by
    rw [← result.batches_bare, replaces.bare, tensor.batches_bare]
  have unbatched
      : (∀ tensor ∈ Value.tensorsAll inner, tensor.batches = 0)
        ↔ ∀ tensor ∈ Value.tensorsAll arguments, tensor.batches = 0 :=
    ⟨fun all => handed.related.forall_left all fun _ _ replaces => (batches replaces).symm.trans,
      fun all => handed.related.forall_right all fun _ _ replaces => (batches replaces).trans⟩
  have evaluated
      : Base.evaluate machine.heap.below name arguments
        = Base.evaluate held.heap.below name inner := by
    apply handed.related.evaluate_eq
    intro tensor member result replaces
    have cell : result.baseCell = tensor.baseCell := by
      rw [← result.baseCell_bare, replaces.bare, tensor.baseCell_bare]
    rw [← (fits tensor member).below_eq handed.grows, Heap.below, Heap.below, cell]
  rw [Heap.verdict, Heap.verdict, evaluated]
  exact if_congr unbatched rfl rfl

/-- A call that is handed on delivers the result of the call that hands it on, and is refused for
the same reason.
-/
theorem Contract.Holds.delivers (holds : Contract.delivers.Holds budget)
    (ruleless : op.name ∈ ruleless)
    (handed : machine.HandsOn held budget op owners outer arguments inner)
    (fits : ∀ tensor ∈ Value.tensorsAll arguments, tensor.Fits machine.heap layers)
    : ((nested budget).dispatch op).Leaves held
        (fun _ values memory =>
          ∃ result,
            values = outer ++ [.tensor result]
            ∧ result.Delivered owners machine.heap op.name arguments memory.heap)
        (fun exit _ =>
          exit = .fault .diverged ∨ machine.heap.verdict op.name arguments = .error exit) := by
  have same := handed.verdict_eq fits op.name
  have called := holds handed.supplied.toCalling ruleless outer inner handed.supplied
  apply Leaves.mono called
  · intro _ _ _ left
    rcases left with ⟨result, values, delivered⟩
    exact ⟨result, values, delivered.fits, delivered.unbatched, handed.grows.trans delivered.grows,
      same.symm.trans delivered.made⟩
  · exact fun exit _ => Or.imp_right same.symm.trans

-----------------------------------------------------------------------------------------
-- The kernels around layers
-----------------------------------------------------------------------------------------

/-- No operator without a rule writes to an argument. -/
theorem isInPlace_ruleless (member : op ∈ Base.schemas) (ruleless : op.name ∈ ruleless)
    : op.isInPlace = false := by
  cases inPlace : op.isInPlace with
  | false => rfl
  | true =>
      rcases Schema.inPlace_cases member inPlace with rfl | rfl <;>
        exact absurd ruleless (by decide)

/-- In front of a layer the call is handed to its body. Only in-place operators may be refused
there.
-/
theorem delivers_enter (holds : Contract.delivers.Holds budget) (ruleless : op.name ∈ ruleless)
    (supplied : machine.Supplied (budget + 1) op (layer :: below) outer arguments)
    (above : machine.Above layer below)
    (front : machine.thread.overlay.forces .entryInterceptor)
    : (entryInterceptor.run (nested budget) op).Delivers op.name (layer :: below) outer arguments
        machine := by
  have kept := isInPlace_ruleless supplied.member ruleless
  refine leaves_entry supplied above front (fun inPlace => ?_) fun held given handed =>
    holds.delivers ruleless handed supplied.fits
  rw [kept] at inPlace
  cases inPlace

/-- The body of a differentiation layer hands the call on and records it, which leaves the result in
its place and all storages as they are.
-/
theorem delivers_differentiate (holds : Contract.delivers.Holds budget)
    (ruleless : op.name ∈ ruleless)
    (supplied : machine.Supplied (budget + 1) op (layer :: below) outer arguments)
    (within : machine.InBody layer below) (kind : layer.kind = .differentiation)
    (shown : machine.thread.overlay.excluded.contains .differentiation = false)
    : (differentiationBody.run (nested budget) op).Delivers op.name (layer :: below) outer arguments
        machine := by
  refine quiet_writing.currentLayer.leaves_step (currentLayer_apply within.top) ?_
  refine (quiet_read _).leaves_step rfl ?_
  refine Leaves.bind (leaves_hidden supplied within kind shown fun held handed =>
    holds.delivers ruleless handed supplied.fits) ?_
  intro _ reached _ _ left
  rcases left with ⟨result, values, delivered⟩
  have single := Schema.resultCount_eq_one supplied.member
  refine Leaves.mono (leaves_recordGradFns _ single values) ?_ fun _ _ => id
  intro _ _ _ left
  exact ⟨result, left.1.trans values, delivered.grown left.2.1⟩

/-- On the way out of a differentiation layer the result from below gets a tag, below which the
storage is the same.
-/
theorem delivers_leaveDifferentiation (holds : Contract.delivers.Holds budget)
    (ruleless : op.name ∈ ruleless)
    (supplied : machine.Supplied (budget + 1) op (layer :: below) outer arguments)
    (within : machine.InBody layer below) (kind : layer.kind = .differentiation)
    : (exitInterceptor.run (nested budget) op).Delivers op.name (layer :: below) outer arguments
        machine := by
  refine leaves_tagging supplied within kind
    (fun held given handed => holds.delivers ruleless handed supplied.fits) ?_
  intro result flag memory alive delivered
  exact ⟨_, rfl, delivered.tagged kind alive supplied.fits⟩

/-- On the way out of a batching layer the result is delivered as it comes from below. -/
theorem delivers_leaveBatching (holds : Contract.delivers.Holds budget)
    (ruleless : op.name ∈ ruleless)
    (supplied : machine.Supplied (budget + 1) op owners outer arguments)
    (within : machine.InBody layer below) (kind : layer.kind = .batching)
    (owned
      : owners = below
        ∨ (owners = layer :: below
          ∧ (Value.carried machine.heap (machine.lastValues op.arity)).contains .batched = false))
    : (exitInterceptor.run (nested budget) op).Delivers op.name owners outer arguments machine := by
  apply Leaves.mono (leaves_unbatched supplied within kind owned fun held _ handed =>
    holds.delivers ruleless handed supplied.fits)
  · intro _ values _ left
    rcases left with ⟨result, values, delivered⟩
    rcases owned with rfl | ⟨rfl, -⟩
    · exact ⟨result, values, delivered⟩
    · exact ⟨result, values, delivered.above⟩
  · exact fun _ _ => id

/-- A tensor with the hook of batching layers is a batch. A tag hides this hook of the value in it,
so that the converse fails.
-/
theorem Tensor.batches_of_carries (carries : (tensor.capabilities heap).contains .batched = true)
    : tensor.batches ≠ 0 := by
  cases tensor with
  | dense cell => simp [capabilities, CapabilitySet.only] at carries
  | batched handle level value => exact Nat.succ_ne_zero _
  | tagged cell level flag value =>
      rw [capabilities] at carries
      split at carries <;> cases carries

/-- Where some argument carries the hook of batching layers, a call of an operator without a rule is
refused.
-/
theorem Heap.verdict_of_carried
    (carries : (Value.carried heap arguments).contains .batched = true)
    : heap.verdict name arguments = .error (.error (.missingBatchRule name)) := by
  rw [contains_carried (by decide), List.any_eq_true] at carries
  rcases carries with ⟨tensor, member, carries⟩
  exact if_neg fun unbatched => tensor.batches_of_carries carries (unbatched tensor member)

/-- In the body of a batching layer a batch is refused, after a line has been logged. -/
theorem delivers_missingRule
    (carries : (Value.carried machine.heap arguments).contains .batched = true)
    : (Batching.missingRule.run (nested budget) op).Delivers op.name owners outer arguments
        machine := by
  refine (quiet_log _).leaves_step rfl (leaves_fail (.inr ?_))
  exact Heap.verdict_of_carried carries

-----------------------------------------------------------------------------------------
-- The base
-----------------------------------------------------------------------------------------

/-- There is an operator for each name without a rule, and it takes one argument. -/
theorem exists_ruleless (ruleless : name ∈ ruleless)
    : ∃ op, standard.schema? name = some op ∧ op.arity = 1 := by
  rcases ruleless_cases ruleless with rfl | rfl | rfl <;> exact ⟨_, rfl, rfl⟩

theorem arity_ruleless (member : op ∈ Base.schemas) (ruleless : op.name ∈ ruleless)
    : op.arity = 1 := by
  obtain ⟨other, found, arity⟩ := exists_ruleless ruleless
  rw [schema?_of_mem member] at found
  rwa [Option.some.inj found]

theorem Tensor.batches_of_isDense (dense : tensor.isDense = true) : tensor.batches = 0 := by
  cases tensor with
  | dense cell => rfl
  | tagged cell level flag value => cases dense
  | batched handle level value => cases dense

/-- Below all layers the base kernel evaluates the arguments, which are dense, and so not batched.
It makes a new storage of what they are evaluated to, or refuses as the evaluation does.
-/
theorem evaluates_base {kernel : Kernel} (ruleless : op.name ∈ ruleless)
    (found : baseKernel? op.name = some kernel)
    (supplied : machine.Supplied (budget + 1) op [] outer arguments)
    : (kernel.run (nested budget) op).Leaves machine
        (fun _ values memory =>
          ∃ result : Tensor,
            values = outer ++ [.tensor result]
            ∧ result.batches = 0
            ∧ machine.heap.Grows memory.heap
            ∧ machine.heap.verdict op.name arguments = .ok (memory.heap.below result))
        (fun exit _ => machine.heap.verdict op.name arguments = .error exit) := by
  have dense := supplied.dense
  have unbatched := fun tensor member => Tensor.batches_of_isDense (dense tensor member)
  have verdict
      : machine.heap.verdict op.name arguments
        = Base.evaluate machine.heap.below op.name arguments :=
    if_pos unbatched
  have size := supplied.size.trans (arity_ruleless supplied.member ruleless)
  have run := Base.kernel_apply supplied.values size dense (nested budget) ruleless found
  have quiet := quiet_baseKernel found (nested budget) op
  rw [verdict]
  cases evaluated : Base.evaluate machine.heap.below op.name arguments with
  | ok storage =>
      rw [evaluated] at run
      refine quiet.leaves run ⟨.dense machine.heap.storages.size, rfl, rfl,
        machine.heap.grows_newDense storage, ?_⟩
      exact congrArg Except.ok (machine.heap.storage_newDense storage).symm
  | error exit =>
      rw [evaluated] at run
      exact quiet.leaves_error run rfl

/-- Below all layers the base kernel delivers its result. That the result is placed where it fits
has been shown for base kernels in general, and what is stored in it is what the arguments are
evaluated to.
-/
theorem delivers_base {kernel : Kernel} (ruleless : op.name ∈ ruleless)
    (found : baseKernel? op.name = some kernel)
    (supplied : machine.Supplied (budget + 1) op [] outer arguments)
    : (kernel.run (nested budget) op).Delivers op.name [] outer arguments machine := by
  have poses : machine.Poses op :=
    ⟨supplied.member, supplied.size ▸ length_le_append supplied.values⟩
  have named : op.name ∉ ["add", "mul", "neg", "unsqueeze"] := by
    rcases ruleless_cases ruleless with same | same | same <;> rw [same] <;> decide
  have places := places_base poses found outer arguments named (List.forall_mem_nil _) supplied
  apply ((evaluates_base ruleless found supplied).and places).mono
  · intro _ values memory both
    rcases both with ⟨⟨result, left, unbatched, grows, made⟩, other, left', places⟩
    obtain rfl : result = other := by
      rw [left] at left'
      simpa using left'
    exact ⟨result, left, places.fits, unbatched, grows, made⟩
  · exact fun _ _ refused => .inr refused.1

-----------------------------------------------------------------------------------------
-- All calls
-----------------------------------------------------------------------------------------

/-- Wherever an operator without a rule is called, the kernel that handles the call delivers its result.
-/
theorem Contract.Holds.delivers_handled {kernel : Kernel} (holds : Contract.delivers.Holds budget)
    (ruleless : op.name ∈ ruleless)
    (supplied : machine.Supplied (budget + 1) op owners outer arguments)
    (handled : machine.HandledBy op arguments owners kernel)
    : (kernel.run (nested budget) op).Delivers op.name owners outer arguments machine := by
  cases handled with
  | base atBase found => exact delivers_base ruleless found supplied
  | enter above front => exact delivers_enter holds ruleless supplied above front
  | differentiate within kind shown =>
      exact delivers_differentiate holds ruleless supplied within kind shown
  | leaveDifferentiation within kind =>
      exact delivers_leaveDifferentiation holds ruleless supplied within kind
  | rule within kind shown carries =>
      rw [batchRule_ruleless ruleless]
      exact delivers_missingRule carries
  | leaveBatching within kind owned =>
      exact delivers_leaveBatching holds ruleless supplied within kind owned

/-- However deep calls nest, those of operators without a rule deliver their results, by induction
on the depth. Calls with no depth left diverge, which the contract allows.
-/
theorem Contract.delivers_holds (budget : Nat) : Contract.delivers.Holds budget := by
  induction budget with
  | zero =>
      intro op machine owners _ _ outer arguments _
      exact leaves_fault trivial (.inl rfl)
  | succ budget ih =>
      intro op machine owners _ ruleless outer arguments supplied
      have drawless := ne_of_ruleless ruleless (by decide : "rand" ∉ Dispatcher.ruleless)
      exact supplied.leaves_dispatch drawless fun _ _ handled =>
        ih.delivers_handled ruleless (supplied.inSpan _) handled

/-- Under a built stack a call by name of an operator without a rule delivers its result or is
refused. It does not diverge, as it starts with depth enough.
-/
theorem Dispatcher.call_delivers (built : machine.Built) (ruleless : name ∈ ruleless)
    (size : arguments.length = 1)
    (fits : ∀ tensor ∈ Value.tensorsAll arguments, tensor.Fits machine.heap machine.thread.layers)
    : (standard.call name arguments).Leaves machine
        (fun results _ memory =>
          ∃ result,
            results = [.tensor result]
            ∧ result.Delivered machine.thread.layers machine.heap name arguments memory.heap)
        (fun exit _ => machine.heap.verdict name arguments = .error exit) := by
  have founded := built.founded
  have delivers
      : (standard.call name arguments).Leaves machine
          (fun results _ memory =>
            ∃ result,
              results = [.tensor result]
              ∧ result.Delivered machine.thread.layers machine.heap name arguments memory.heap)
          (fun exit _ =>
            exit = .fault .diverged ∨ machine.heap.verdict name arguments = .error exit) := by
    refine leaves_standard built (fun error miscounted => ?_) ?_
    · obtain ⟨op, found, arity⟩ := exists_ruleless ruleless
      exact absurd (size.trans arity.symm) (miscounted op found)
    · intro op same count calling
      subst same
      have supplied := founded.supplied calling count fits
      exact Contract.delivers_holds _ calling ruleless [] arguments supplied
  obtain ⟨-, finishes⟩ := call_nesting built name arguments (Nat.le_refl _)
  apply (delivers.and finishes).mono
  · exact fun _ _ _ => And.left
  · rintro exit _ ⟨cut | refused, finished⟩
    · exact absurd cut finished
    · exact refused

/-- On the dense tensors below its argument a base kernel comes to what the argument is evaluated
to, because wrappers are of no account to the evaluation.
-/
theorem Base.kernel_bottom {argument : Value} {kernel : Kernel} (ruleless : op.name ∈ ruleless)
    (found : baseKernel? op.name = some kernel) (calls : Calls)
    : kernel.run calls op { machine with values := [argument.mapTensors Tensor.bottom] }
      = ((liftM (evaluate machine.heap.below op.name [argument]) : Run Storage) >>= pushDense)
          { machine with values := [] } := by
  have dense
      : ∀ tensor ∈ Value.tensorsAll [argument.mapTensors Tensor.bottom], tensor.isDense = true := by
    rw [Value.tensorsAll, tensors_mapTensors, Value.tensorsAll, List.append_nil]
    exact List.forall_mem_map.mpr fun _ _ => rfl
  let posed : Machine := { machine with values := [argument.mapTensors Tensor.bottom] }
  have run := @Base.kernel_apply _ [] posed op kernel rfl rfl dense calls ruleless found
  rw [← evaluate_bottom machine.heap op.name [argument]]
  exact run

/-- Where there is a batch among the arguments, the call is refused before any base kernel has run.
With every base kernel changed in any way the call is the same.
-/
theorem Dispatcher.call_unruled (built : machine.Built) (ruleless : name ∈ ruleless)
    (size : arguments.length = 1)
    (fits : ∀ tensor ∈ Value.tensorsAll arguments, tensor.Fits machine.heap machine.thread.layers)
    (batched : ∃ tensor ∈ Value.tensorsAll arguments, tensor.batches ≠ 0)
    : (∃ reached,
        standard.call name arguments machine = .error (.error (.missingBatchRule name)) reached)
      ∧ ∀ change : Kernel → Kernel,
          (standard.overBase change).call name arguments machine
          = standard.call name arguments machine := by
  have delivers := call_delivers built ruleless size fits
  have verdict
      : machine.heap.verdict name arguments = .error (.error (.missingBatchRule name)) :=
    if_neg fun unbatched =>
      batched.elim fun tensor wrapped => wrapped.2 (unbatched tensor wrapped.1)
  cases ended : standard.call name arguments machine with
  | ok results reached =>
      obtain ⟨-, result, -, delivered⟩ := Ends.of_ok delivers ended
      cases verdict.symm.trans delivered.made
  | error exit reached =>
      obtain ⟨-, -, refused⟩ := Ends.of_error delivers ended
      cases verdict.symm.trans refused
      exact ⟨⟨reached, rfl⟩, fun change => call_unreached ruleless change (.refused name) ended⟩

/-- Where there are only tags around the arguments, the call makes a tensor of what they are evaluated
to, or ends for the reason for which there is no such storage.
-/
theorem Dispatcher.call_evaluates (built : machine.Built) (ruleless : name ∈ ruleless)
    (size : arguments.length = 1)
    (fits : ∀ tensor ∈ Value.tensorsAll arguments, tensor.Fits machine.heap machine.thread.layers)
    (unbatched : ∀ tensor ∈ Value.tensorsAll arguments, tensor.batches = 0)
    : SameEnd (standard.call name arguments machine)
        (((liftM (Base.evaluate machine.heap.below name arguments) : Run Storage) >>= Base.pushDense)
          { machine with values := [] }) := by
  have delivers := call_delivers built ruleless size fits
  have verdict
      : machine.heap.verdict name arguments
        = Base.evaluate machine.heap.below name arguments :=
    if_pos unbatched
  cases ended : standard.call name arguments machine with
  | ok results reached =>
      obtain ⟨-, result, rfl, delivered⟩ := Ends.of_ok delivers ended
      rw [verdict.symm.trans delivered.made]
      have read := machine.heap.storage_newDense (reached.heap.below result)
      refine ⟨result, .dense machine.heap.storages.size, rfl, rfl, ?_, ?_⟩
      · exact (delivered.fits.shape_eq delivered.unbatched).trans (congrArg Storage.shape read.symm)
      · exact congrArg Storage.data read.symm
  | error exit reached =>
      obtain ⟨-, -, refused⟩ := Ends.of_error delivers ended
      rw [verdict.symm.trans refused]
      rfl

/-- Operators without a rule for batches are transparent, or refused. Under every built stack, take a call
of `sum`, `add_n` or `zeros` on a well-formed argument. If there is a batch around some tensor of the
argument, members of lists included and under tags of whatever layers, the call is refused for want of
a rule, and no base kernel has run: the call does the same with any others in their places. Otherwise
the call ends as the base kernel does by itself on the dense tensors below the argument.
-/
theorem Dispatcher.call_transparent {argument : Value} (built : machine.Built)
    (ruleless : name ∈ ruleless)
    (wellFormed
      : ∀ tensor ∈ argument.tensors, tensor.WellFormed machine.heap machine.thread.layers)
    : ((∃ tensor ∈ argument.tensors, tensor.batches ≠ 0)
        → (∃ reached,
            standard.call name [argument] machine
            = .error (.error (.missingBatchRule name)) reached)
          ∧ ∀ change : Kernel → Kernel,
              (standard.overBase change).call name [argument] machine
              = standard.call name [argument] machine)
      ∧ ((∀ tensor ∈ argument.tensors, tensor.batches = 0)
        → ∃ op kernel,
            standard.schema? name = some op
            ∧ standard.kernel? op .backend = some kernel
            ∧ ∀ calls : Calls,
                SameEnd (standard.call name [argument] machine)
                  (kernel.run calls op
                    { machine with values := [argument.mapTensors Tensor.bottom] })) := by
  have tensors : Value.tensorsAll [argument] = argument.tensors := List.append_nil _
  have fits
      : ∀ tensor ∈ Value.tensorsAll [argument], tensor.Fits machine.heap machine.thread.layers := by
    rw [tensors]
    exact fun tensor member =>
      (Tensor.wellFormed_iff_fits built.founded.levelled).mp (wellFormed tensor member)
  refine ⟨fun batched => ?_, fun unbatched => ?_⟩
  · exact call_unruled built ruleless rfl fits (tensors ▸ batched)
  · obtain ⟨op, schema, -⟩ := exists_ruleless ruleless
    obtain ⟨member, rfl⟩ := schema?_standard schema
    obtain ⟨kernel, found⟩ := exists_baseKernel member
    refine ⟨op, kernel, schema, (kernel?_standard op .backend).trans found, fun calls => ?_⟩
    rw [Base.kernel_bottom ruleless found calls]
    exact call_evaluates built ruleless rfl fits (tensors ▸ unbatched)

/-- Witness: under differentiation over a batching layer, a batch that a tag hides is refused, and tagged
values are added up.
-/
theorem Dispatcher.call_transparent_two_layers
    : ∃ (machine : Machine) (batch listed : Value),
        machine.Built
        ∧ machine.thread.layers.map Layer.kind = [.differentiation, .batching]
        ∧ (∀ tensor ∈ batch.tensors, tensor.WellFormed machine.heap machine.thread.layers)
        ∧ (∃ tensor ∈ batch.tensors, tensor.batches ≠ 0)
        ∧ (∃ reached,
          standard.call "sum" [batch] machine = .error (.error (.missingBatchRule "sum")) reached)
        ∧ (∀ tensor ∈ listed.tensors, tensor.WellFormed machine.heap machine.thread.layers)
        ∧ (∀ tensor ∈ listed.tensors, tensor.batches = 0)
        ∧ (standard.call "add_n" [listed]).succeeds machine = true
        ∧ ∃ op kernel,
            standard.schema? "add_n" = some op
            ∧ standard.kernel? op .backend = some kernel
            ∧ ∀ calls : Calls,
                SameEnd (standard.call "add_n" [listed] machine)
                  (kernel.run calls op
                    { machine with values := [listed.mapTensors Tensor.bottom] }) := by
  let fresh : Machine :=
    { heap :=
        { storages := #[⟨⟨[2, 3]⟩, #[1, 2, 3, 4, 5, 6]⟩, ⟨⟨[3]⟩, #[10, 20, 30]⟩]
          wrappers := #[{ shape := ⟨[3]⟩ }, { shape := ⟨[3]⟩ }] } }
  let batch : Value := .tensor (.tagged 0 2 1 (.batched 0 1 (.dense 0)))
  let listed : Value := .list [.tensor (.tagged 1 2 1 (.dense 1)), .tensor (.dense 1)]
  have opened := Machine.Built.opened
    (.opened (@Machine.Built.fresh fresh rfl rfl)
      (rfl : openLayer (.batching 2 .error) fresh = .ok 1 _))
    (rfl : openLayer (.differentiation (some false) none) _ = .ok 2 _)
  obtain ⟨machine, built, kinds, hidden, plain, succeeds⟩
      : ∃ machine : Machine,
          machine.Built
          ∧ machine.thread.layers.map Layer.kind = [.differentiation, .batching]
          ∧ (∀ tensor ∈ batch.tensors, tensor.WellFormed machine.heap machine.thread.layers)
          ∧ (∀ tensor ∈ listed.tensors, tensor.WellFormed machine.heap machine.thread.layers)
          ∧ (standard.call "add_n" [listed]).succeeds machine = true := by
    refine ⟨_, opened, rfl, ?_, ?_, by decide +kernel⟩
    · refine List.forall_mem_singleton.mpr ⟨by decide, ?_⟩
      refine ⟨⟨_, List.mem_cons_self, rfl, rfl⟩, rfl, by decide, rfl, ?_⟩
      exact ⟨⟨_, List.mem_cons_of_mem _ List.mem_cons_self, rfl, 2, rfl, rfl⟩, by decide, rfl⟩
    · refine List.forall_mem_cons.mpr ⟨⟨by decide, ?_⟩, List.forall_mem_singleton.mpr ⟨by decide, ?_⟩⟩
      · exact ⟨⟨_, List.mem_cons_self, rfl, rfl⟩, rfl, by decide, rfl, by decide, rfl⟩
      · exact ⟨by decide, rfl⟩
  have batched : ∃ tensor ∈ batch.tensors, tensor.batches ≠ 0 :=
    ⟨_, List.mem_singleton_self _, by decide⟩
  have unbatched : ∀ tensor ∈ listed.tensors, tensor.batches = 0 := by decide
  have sum : "sum" ∈ ruleless := by decide
  have addAll : "add_n" ∈ ruleless := by decide
  obtain ⟨refused, -⟩ := (call_transparent built sum hidden).1 batched
  have same := (call_transparent built addAll plain).2 unbatched
  exact ⟨machine, batch, listed, built, kinds, hidden, batched, refused, plain, unbatched, succeeds,
    same⟩

end
end LayeredDispatch
