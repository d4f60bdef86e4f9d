import LayeredDispatch.Proofs.Dispatch.Restoration
import LayeredDispatch.Proofs.Effects.BaseKernels

/-! Where the tags around the results of a call come from. Nothing is assumed of the overlay, of the
arguments or of what else is registered. Main statement: a tag around a result is one around an
argument, or it has the flag under which its level is registered.
-/

namespace LayeredDispatch

open Run Dispatcher

/-- What tells a tag: the number of its cell, its level and its flag. -/
structure Stamp where
  cell : Nat
  level : Level
  flag : Nat
  deriving DecidableEq

/-- The tags around a tensor, outermost first. -/
def Tensor.stamps : Tensor → List Stamp
  | .dense _ => []
  | .tagged cell level flag value => ⟨cell, level, flag⟩ :: value.stamps
  | .batched _ _ value => value.stamps

/-- The tags around the tensors among some values, members of lists included. -/
def Value.stamps (values : List Value) : List Stamp :=
  (tensorsAll values).flatMap Tensor.stamps

/-- All tags around the tensor are allowed. -/
def Tensor.Sourced (allowed : Stamp → Prop) (tensor : Tensor) : Prop :=
  ∀ stamp ∈ tensor.stamps, allowed stamp

/-- All tags around the tensors among some values are allowed. -/
def Value.Sourced (allowed : Stamp → Prop) (values : List Value) : Prop :=
  ∀ value ∈ values, ∀ tensor ∈ value.tensors, tensor.Sourced allowed

/-- The layers have the levels of their positions, and tags that are made now are allowed. -/
structure Machine.Allows (machine : Machine) (allowed : Stamp → Prop) : Prop where
  levelled : Layer.Levelled machine.thread.layers
  registered
    : ∀ cell level flag,
        machine.registry.find? level = some flag → allowed ⟨cell, level, flag⟩

/-- Where tags that are made are allowed, and those around the boxed values are, the computation
hands the state back, with boxed values around which all tags are allowed, and with a value as `ok`
says.
-/
def Run.Sources (allowed : Stamp → Prop) (body : Run α) (ok : α → Prop) : Prop :=
  ∀ machine : Machine,
    machine.Allows allowed
    → Value.Sourced allowed machine.values
    → body.Meets machine (fun value values _ => ok value ∧ Value.Sourced allowed values)
        (fun _ => True)

section

variable {allowed : Stamp → Prop} {machine reached : Machine} {tensor result : Tensor}
  {values others : List Value} {level : Level} {count : Nat} {calls : Calls} {op : Schema}

/-- What is allowed stays allowed in a state that is handed back, with the same layers and registry.
-/
theorem Machine.Allows.resumes (allows : machine.Allows allowed) (resumes : machine.Resumes reached)
    : reached.Allows allowed := by
  obtain ⟨levelled, registered⟩ := allows
  rw [← resumes.layers] at levelled
  rw [← resumes.registry] at registered
  exact ⟨levelled, registered⟩

-----------------------------------------------------------------------------------------
-- Tensors and values
-----------------------------------------------------------------------------------------

theorem Tensor.sourced_dense {cell : Nat} : (Tensor.dense cell).Sourced allowed :=
  List.forall_mem_nil _

theorem Tensor.sourced_batched {handle : Nat}
    : (Tensor.batched handle level tensor).Sourced allowed ↔ tensor.Sourced allowed :=
  Iff.rfl

theorem Tensor.sourced_of_isDense (dense : tensor.isDense = true) : tensor.Sourced allowed := by
  cases tensor with
  | dense cell => exact sourced_dense
  | tagged cell level flag value => cases dense
  | batched handle level value => cases dense

theorem Tensor.Sourced.tagged {cell flag : Nat} (sourced : tensor.Sourced allowed)
    (allows : allowed ⟨cell, level, flag⟩)
    : (Tensor.tagged cell level flag tensor).Sourced allowed :=
  List.forall_mem_cons.mpr ⟨allows, sourced⟩

/-- Taking dead tags off leaves fewer tags. -/
theorem Tensor.Sourced.unwrapDead (sourced : tensor.Sourced allowed) (heap : Heap)
    : (tensor.unwrapDead heap).Sourced allowed := by
  induction tensor with
  | dense cell => exact sourced
  | batched handle level value ih => exact sourced
  | tagged cell level flag value ih =>
      unfold Tensor.unwrapDead
      split
      · exact sourced
      · exact ih (List.forall_mem_cons.mp sourced).2

namespace Value

theorem sourced_nil : Sourced allowed [] :=
  List.forall_mem_nil _

theorem sourced_tensor : Sourced allowed [.tensor tensor] ↔ tensor.Sourced allowed := by
  simp [Sourced, Value.tensors]

/-- The tensors of a list are those of its members, so the list is sourced if they are. -/
theorem sourced_list : Sourced allowed [.list values] ↔ Sourced allowed values := by
  simp only [Sourced, List.forall_mem_singleton, Value.tensors]
  exact forall_tensorsAll

/-- Values are sourced if all tags around their tensors are allowed. -/
theorem sourced_iff : Sourced allowed values ↔ ∀ stamp ∈ stamps values, allowed stamp := by
  simp only [stamps, List.forall_mem_flatMap]
  exact forall_tensorsAll.symm

theorem sourced_append
    : Sourced allowed (values ++ others) ↔ Sourced allowed values ∧ Sourced allowed others :=
  List.forall_mem_append

theorem sourced_cons {value : Value}
    : Sourced allowed (value :: values) ↔ Sourced allowed [value] ∧ Sourced allowed values :=
  @sourced_append allowed [value] values

/-- A tensor among sourced values is sourced. -/
theorem Sourced.of_mem (sourced : Sourced allowed values) (member : .tensor tensor ∈ values)
    : tensor.Sourced allowed :=
  sourced _ member tensor (List.mem_singleton_self tensor)

theorem Sourced.subset (sourced : Sourced allowed values) (among : others ⊆ values)
    : Sourced allowed others :=
  fun value member => sourced value (among member)

theorem Sourced.first (sourced : Sourced allowed machine.values)
    : Sourced allowed (machine.firstValues count) :=
  sourced.subset (List.take_subset _ _)

theorem Sourced.last (sourced : Sourced allowed machine.values)
    : Sourced allowed (machine.lastValues count) :=
  sourced.subset (List.drop_subset _ _)

end Value

-----------------------------------------------------------------------------------------
-- Computations
-----------------------------------------------------------------------------------------

namespace Run

/-- Sequences of such computations are such computations. The boxed values that the first part
leaves are sourced again, so the second part may start on them.
-/
theorem Sources.bind {first : Run α} {next : α → Run β} {given : α → Prop} {ok : β → Prop}
    (head : first.Sources allowed given)
    (tail : ∀ value, given value → (next value).Sources allowed ok)
    : (first >>= next).Sources allowed ok := by
  intro machine allows sourced
  refine (head machine allows sourced).bind ?_
  intro value reached _ resumes left
  exact tail value left.1 reached (allows.resumes resumes) left.2

/-- Branches are, if both sides are. -/
theorem Sources.ite {condition : Prop} [Decidable condition] {first second : Run α}
    {ok : α → Prop} (yes : first.Sources allowed ok) (no : second.Sources allowed ok)
    : Run.Sources allowed (if condition then first else second) ok := by
  split
  · exact yes
  · exact no

/-- A computation that hands every state back, and of which it is known what it leaves. The
condition on what it leaves may use that the tags of the start are allowed.
-/
theorem Quiet.sources {body : Run α} {ok : α → Prop} (quiet : Quiet body)
    (keeps
      : ∀ machine value reached,
          machine.Allows allowed
          → Value.Sourced allowed machine.values
          → body machine = .ok value reached
          → ok value ∧ Value.Sourced allowed reached.values)
    : body.Sources allowed ok := by
  intro machine allows sourced
  have resumes := quiet machine
  unfold Meets Ends at resumes ⊢
  cases ended : body machine with
  | ok value reached =>
      rw [ended] at resumes
      exact ⟨resumes.1, keeps machine value reached allows sourced ended⟩
  | error exit reached => rwa [ended] at resumes

/-- A computation that leaves the boxed values alone. -/
theorem Quiet.sources_values {body : Run α} (quiet : Quiet body)
    (same : ∀ machine value reached, body machine = .ok value reached → reached.values = machine.values)
    : body.Sources allowed fun _ => True :=
  quiet.sources fun machine value reached _ sourced ended =>
    ⟨trivial, by rwa [same machine value reached ended]⟩

/-- A computation that leaves the state alone adds no tags. -/
theorem Idle.sources {body : Run α} (idle : Idle body) : body.Sources allowed fun _ => True :=
  idle.still.quiet.sources_values fun _ _ _ ended => by rw [idle.reached_eq ended]

theorem sources_pure {value : α} {ok : α → Prop} (given : ok value)
    : (pure value : Run α).Sources allowed ok :=
  fun _ _ sourced => meets_pure ⟨given, sourced⟩

theorem sources_fail (error : DispatchError) (ok : α → Prop)
    : (fail error : Run α).Sources allowed ok :=
  fun _ _ _ => meets_fail trivial

theorem sources_fault {fault : Fault} {ok : α → Prop} (orderly : (Exit.fault fault).Orderly)
    : (Run.fault fault : Run α).Sources allowed ok :=
  fun _ _ _ => meets_fault orderly trivial

/-- A pure computation adds no tags. -/
theorem sources_lift {outcome : Outcome α} {ok : α → Prop} (orderly : outcome.Orderly)
    (given : ∀ value, outcome = .ok value → ok value)
    : Run.Sources allowed (liftM outcome : Run α) ok := by
  refine (quiet_lift orderly).sources fun machine value reached _ sourced ended => ?_
  obtain ⟨gives, rfl⟩ := lift_ok ended
  exact ⟨given value gives, sourced⟩

/-- Values that are taken off were boxed, so the tags around them are allowed, and so are those
around the values that are left.
-/
theorem sources_pop (count : Nat) : (pop count).Sources allowed (Value.Sourced allowed) := by
  refine (quiet_writing.pop count).sources fun machine values reached _ sourced ended => ?_
  obtain ⟨rfl, -, rfl⟩ := pop_ok ended
  exact ⟨sourced.last, sourced.first⟩

theorem sources_peek (count : Nat) : (peek count).Sources allowed (Value.Sourced allowed) := by
  refine (quiet_writing.peek count).sources fun machine values reached _ sourced ended => ?_
  obtain ⟨rfl, -, rfl⟩ := peek_ok ended
  exact ⟨sourced.last, sourced⟩

/-- Boxing allowed values leaves allowed values. -/
theorem sources_pushAll (given : Value.Sourced allowed values)
    : (pushAll values).Sources allowed fun _ => True := by
  refine (quiet_writing.pushAll values).sources fun machine _ reached _ sourced ended => ?_
  cases ended
  exact ⟨trivial, Value.sourced_append.mpr ⟨sourced, given⟩⟩

/-- A tensor that is read from the arguments is one of them. -/
theorem sources_tensorAt {arguments : List Value} (given : Value.Sourced allowed arguments)
    (name : String) (index : Nat)
    : Run.Sources allowed (liftM (Value.tensorAt arguments name index) : Run Tensor)
        (Tensor.Sourced allowed) :=
  sources_lift (Value.plain_tensorAt _ _ _).orderly fun _ found =>
    given.of_mem (List.mem_of_getElem? (Value.tensorAt_ok found))

/-- A batch wrapper is no tag. -/
theorem sources_batchAt (sourced : tensor.Sourced allowed) (level : Level)
    : (batchAt tensor level).Sources allowed (Tensor.Sourced allowed) := by
  refine Quiet.sources (quiet_allocate fun _ => rfl) fun machine result reached _ boxed ended => ?_
  cases ended
  exact ⟨sourced, boxed⟩

/-- The flag of a new tag is the one that is registered for its level at this time. No other part of
a call makes tags.
-/
theorem tagAt_registered (ended : tagAt tensor level machine = .ok result reached)
    : ∃ cell flag,
        result = .tagged cell level flag tensor
        ∧ machine.registry.find? level = some flag
        ∧ reached.values = machine.values := by
  obtain ⟨flag, start, found, ended⟩ := bind_ok ended
  obtain ⟨registry, same, read, found⟩ := bind_ok found
  cases read
  cases registered : machine.registry.find? level with
  | none =>
      rw [registered] at found
      cases found
  | some current =>
      rw [registered] at found
      cases found
      cases ended
      exact ⟨_, _, rfl, rfl, rfl⟩

/-- So a new tag is an allowed one. -/
theorem sources_tagAt (sourced : tensor.Sourced allowed) (level : Level)
    : (tagAt tensor level).Sources allowed (Tensor.Sourced allowed) := by
  refine (quiet_writing.tagAt tensor level).sources
    fun machine result reached allows boxed ended => ?_
  obtain ⟨cell, flag, rfl, found, same⟩ := tagAt_registered ended
  rw [same]
  exact ⟨sourced.tagged (allows.registered cell level flag found), boxed⟩

/-- A tag that is made sure of was there or is new. -/
theorem sources_materializeAt (sourced : tensor.Sourced allowed) (level : Level)
    : (materializeAt tensor level).Sources allowed (Tensor.Sourced allowed) := by
  unfold materializeAt
  split
  · exact sources_tagAt sourced level
  · exact .ite (sources_pure sourced)
      (.ite (sources_tagAt sourced level) (sources_fault trivial))

/-- Taking a tag off leaves fewer tags. -/
theorem sources_unwrapAt (sourced : tensor.Sourced allowed) (level : Level)
    : (unwrapAt tensor level).Sources allowed (Tensor.Sourced allowed) := by
  unfold unwrapAt
  split
  · exact .ite (sources_fault trivial)
      (.ite (sources_pure (List.forall_mem_cons.mp sourced).2) (sources_pure sourced))
  · exact sources_pure sourced

theorem sources_unwrapDead (sourced : tensor.Sourced allowed)
    : (unwrapDead tensor).Sources allowed (Tensor.Sourced allowed) := by
  refine Quiet.sources (quiet_read _) fun machine result reached _ boxed ended => ?_
  cases ended
  exact ⟨sourced.unwrapDead machine.heap, boxed⟩

/-- What the entry interceptor makes of a tensor has tags that were there and at most a new one. -/
theorem sources_receive (layer : Layer) (sourced : tensor.Sourced allowed)
    : (receive layer tensor).Sources allowed (Tensor.Sourced allowed) := by
  refine (sources_unwrapDead sourced).bind fun bare bareSourced => ?_
  split
  · exact sources_materializeAt bareSourced layer.level
  · exact sources_pure bareSourced

mutual
/-- Replacing the tensors of a value by allowed ones makes it an allowed value, however deep they
are nested.
-/
theorem sources_mapTensorsM {replace : Tensor → Run Tensor}
    (each
      : ∀ tensor, tensor.Sourced allowed → (replace tensor).Sources allowed (Tensor.Sourced allowed))
    (value : Value) (sourced : Value.Sourced allowed [value])
    : (value.mapTensorsM replace).Sources allowed fun replaced => Value.Sourced allowed [replaced] := by
  cases value with
  | tensor handle =>
      refine (each handle (Value.sourced_tensor.mp sourced)).bind fun result given => ?_
      exact sources_pure (Value.sourced_tensor.mpr given)
  | list items =>
      have inner := Value.sourced_list.mp sourced
      refine (sources_mapTensorsAllM each items inner).bind fun replaced given => ?_
      exact sources_pure (Value.sourced_list.mpr given)
  | absent | bool _ | int _ | float _ | ints _ =>
      exact sources_pure sourced

/-- The same for several values, one after another. -/
theorem sources_mapTensorsAllM {replace : Tensor → Run Tensor}
    (each
      : ∀ tensor, tensor.Sourced allowed → (replace tensor).Sources allowed (Tensor.Sourced allowed))
    (values : List Value) (sourced : Value.Sourced allowed values)
    : (Value.mapTensorsAllM replace values).Sources allowed (Value.Sourced allowed) := by
  cases values with
  | nil => exact sources_pure Value.sourced_nil
  | cons value values =>
      obtain ⟨head, tail⟩ := Value.sourced_cons.mp sourced
      refine (sources_mapTensorsM each value head).bind fun first headGiven => ?_
      refine (sources_mapTensorsAllM each values tail).bind fun others tailGiven => ?_
      exact sources_pure (Value.sourced_cons.mpr ⟨headGiven, tailGiven⟩)
end

/-- Replacing the tensors of a range leaves the others as they are. A range that does not fit the
boxed values is a fault.
-/
theorem sources_mapRange {replace : Tensor → Run Tensor}
    (each
      : ∀ tensor, tensor.Sourced allowed → (replace tensor).Sources allowed (Tensor.Sourced allowed))
    (start stop : Nat)
    : (mapRange start stop replace).Sources allowed fun _ => True := by
  intro machine allows sourced
  have body
      : Run.Sources allowed
          (if start ≤ stop ∧ stop ≤ machine.values.length then do
            let replaced ← Value.mapTensorsAllM replace ((machine.values.take stop).drop start)
            modify fun reached =>
              { reached with
                values := machine.values.take start ++ replaced ++ machine.values.drop stop }
          else fault (.rangeOutOfBounds start stop machine.values.length))
          fun _ => True := by
    refine .ite ?_ (sources_fault trivial)
    have chosen := (sourced.subset (List.take_subset stop _)).subset (List.drop_subset start _)
    refine (sources_mapTensorsAllM each _ chosen).bind fun replaced given => ?_
    refine Quiet.sources (quiet_modify (fun _ => rfl) (fun _ => rfl) fun _ => rfl) ?_
    intro _ _ reached _ _ ended
    cases ended
    refine ⟨trivial, Value.sourced_append.mpr ⟨Value.sourced_append.mpr ⟨?_, given⟩, ?_⟩⟩
    · exact sourced.subset (List.take_subset _ _)
    · exact sourced.subset (List.drop_subset _ _)
  exact body machine allows sourced

theorem sources_mapLast {replace : Tensor → Run Tensor}
    (each
      : ∀ tensor, tensor.Sourced allowed → (replace tensor).Sources allowed (Tensor.Sourced allowed))
    (count : Nat)
    : (mapLast count replace).Sources allowed fun _ => True :=
  (idle_reading.lastStart count).sources.bind fun _ _ => sources_mapRange each _ _

/-- A loop over values that replaces each of them by an allowed one gives allowed values. -/
theorem sources_mapM {visit : Value → Run Value}
    (each
      : ∀ value, Value.Sourced allowed [value]
        → (visit value).Sources allowed fun result => Value.Sourced allowed [result])
    (sourced : Value.Sourced allowed values)
    : (values.mapM visit).Sources allowed (Value.Sourced allowed) := by
  induction values with
  | nil => exact sources_pure Value.sourced_nil
  | cons value values ih =>
      obtain ⟨head, tail⟩ := Value.sourced_cons.mp sourced
      rw [List.mapM_cons]
      refine (each value head).bind fun first headGiven => ?_
      refine (ih tail).bind fun others tailGiven => ?_
      exact sources_pure (Value.sourced_cons.mpr ⟨headGiven, tailGiven⟩)

/-- A body under a guard, from wherever the guard moves to. The guard may change the layers, but
those it leaves must have the levels of their positions.
-/
theorem Sources.holding {acquire : Run Guard} {body : Run α} {ok : α → Prop}
    {shift : Machine → Ambient}
    (moves
      : ∀ machine : Machine,
          Layer.Levelled machine.thread.layers
          → Moves acquire machine (shift machine)
            ∧ Layer.Levelled (shift machine).layers)
    (inner : body.Sources allowed ok)
    : (Run.holding acquire body).Sources allowed ok := by
  intro machine allows sourced
  obtain ⟨moved, levelled⟩ := moves machine allows.levelled
  refine .holding moved fun held atHeld => inner held ⟨?_, ?_⟩ ?_
  · have layers : held.thread.layers = (shift machine).layers := congrArg Ambient.layers atHeld.ambient
    rwa [layers]
  · rw [atHeld.registry]
    exact allows.registered
  · rwa [atHeld.values]

theorem Sources.hiding {body : Run α} {ok : α → Prop} (set : CapabilitySet)
    (inner : body.Sources allowed ok)
    : (Run.holding (Guard.hide set) body).Sources allowed ok :=
  .holding (fun machine levelled => ⟨moves_hide set machine, levelled⟩) inner

end Run

-----------------------------------------------------------------------------------------
-- Calls
-----------------------------------------------------------------------------------------

/-- The calls that kernels issue are those of operators that are registered at the base, and leave
allowed tags only.
-/
structure Calls.Source (allowed : Stamp → Prop) (calls : Calls) : Prop where
  dispatch : ∀ op ∈ Base.schemas, (calls.dispatch op).Sources allowed fun _ => True
  schemas : ∀ name op, calls.schema? name = some op → op ∈ Base.schemas

/-- A call by name works on values of its own, which are its arguments, and leaves those of the
caller as they are.
-/
theorem Calls.Source.meets_call (source : calls.Source allowed) (name : String)
    {arguments : List Value} (given : Value.Sourced allowed arguments)
    (allows : machine.Allows allowed)
    : (calls.call name arguments).Meets machine
        (fun results values _ => Value.Sourced allowed results ∧ values = machine.values)
        (fun _ => True) := by
  refine .call (fun _ _ => trivial) fun op found count => ?_
  have inner := source.dispatch op (source.schemas name op found)
    { machine with values := arguments } ⟨allows.levelled, allows.registered⟩ given
  exact inner.mono (fun _ _ _ left => ⟨left.2, rfl⟩) fun _ => id

theorem Calls.Source.call (source : calls.Source allowed) (name : String) {arguments : List Value}
    (given : Value.Sourced allowed arguments)
    : (calls.call name arguments).Sources allowed (Value.Sourced allowed) := by
  intro machine allows sourced
  refine (source.meets_call name given allows).mono ?_ fun _ => id
  rintro results _ _ ⟨known, rfl⟩
  exact ⟨known, sourced⟩

theorem Calls.Source.callTensor (source : calls.Source allowed) (name : String)
    {arguments : List Value} (given : Value.Sourced allowed arguments)
    : (calls.callTensor name arguments).Sources allowed (Tensor.Sourced allowed) := by
  refine (source.call name given).bind fun results sourced => ?_
  split
  · exact sources_pure (sourced.of_mem List.mem_cons_self)
  · exact sources_fail _ _

/-- Padding issues calls on a sourced tensor, so what it gives is sourced. -/
theorem Calls.Source.pad (source : calls.Source allowed) (rank budget : Nat)
    (sourced : tensor.Sourced allowed)
    : (Batching.pad calls rank budget tensor).Sources allowed (Tensor.Sourced allowed) := by
  have single {physical : Tensor} (known : physical.Sourced allowed)
      : Value.Sourced allowed [.tensor physical, .int 1] :=
    Value.sourced_cons.mpr ⟨Value.sourced_tensor.mpr known, by simp [Value.Sourced, Value.tensors]⟩
  induction budget generalizing tensor with
  | zero =>
      unfold Batching.pad
      exact (idle_read _).sources.bind fun _ _ => .ite (sources_fault trivial) (sources_pure sourced)
  | succ budget ih =>
      unfold Batching.pad
      refine (idle_read _).sources.bind fun _ _ => .ite ?_ (sources_pure sourced)
      exact (source.callTensor _ (single sourced)).bind fun padded known => ih known

-----------------------------------------------------------------------------------------
-- Kernels
-----------------------------------------------------------------------------------------

/-- A base kernel makes a dense tensor, or gives the argument to which it has written. -/
theorem sources_base {kernel : Kernel} (poses : machine.Poses op)
    (found : baseKernel? op.name = some kernel) (sourced : Value.Sourced allowed machine.values)
    : (kernel.run calls op).Meets machine
        (fun _ values _ => True ∧ Value.Sourced allowed values) (fun _ => True) := by
  cases inPlace : op.isInPlace with
  | false =>
      refine leaves_iff_meets.mp ?_
      apply (Base.makes_baseKernel calls poses found inPlace).mono ?_ fun _ _ _ => trivial
      rintro _ values memory ⟨storage, -, rfl, -⟩
      refine ⟨trivial, Value.sourced_append.mpr ⟨sourced.first, ?_⟩⟩
      exact Value.sourced_tensor.mpr Tensor.sourced_dense
  | true =>
      refine leaves_iff_meets.mp ?_
      apply (Base.writes_baseKernel calls poses found inPlace).mono ?_ fun _ _ _ => trivial
      rintro _ values memory ⟨target, storage, writes, rfl, -⟩
      refine ⟨trivial, Value.sourced_append.mpr ⟨sourced.first, ?_⟩⟩
      exact Value.sourced_tensor.mpr (Tensor.sourced_of_isDense writes.dense)

namespace Run

theorem sources_log (event : Event) : (log event).Sources allowed fun _ => True :=
  (quiet_log event).sources_values fun _ _ _ ended => by cases ended; rfl

/-- Reading and logging add no tags, so all parts of kernels that do nothing else add none. -/
theorem sources_noting : Noting Exit.Orderly fun body => body.Sources allowed fun _ => True where
  pure _ := sources_pure trivial
  bind head tail := head.bind fun value _ => tail value
  plain h := h.orderly
  throw orderly := Idle.sources fun _ => ⟨orderly, rfl⟩
  look _ := (idle_read _).sources
  read _ := (idle_read _).sources
  log := sources_log

theorem sources_values : (read Machine.values).Sources allowed (Value.Sourced allowed) :=
  fun _ _ sourced => ⟨.refl _, sourced, sourced⟩

/-- Values that are put in the place of all are allowed if they are made of allowed ones. -/
theorem sources_replaceAll {change : List Value → List Value}
    (keeps : ∀ values, Value.Sourced allowed values → Value.Sourced allowed (change values))
    : Run.Sources allowed
        (modify fun machine => { machine with values := change machine.values } : Run PUnit)
        fun _ => True :=
  fun _ _ sourced => ⟨.of_eq rfl rfl rfl rfl, trivial, keeps _ sourced⟩

theorem sources_onHeap {change : Heap → Heap} (flags : ∀ heap, (change heap).flags = heap.flags)
    : (onHeap change).Sources allowed fun _ => True :=
  (quiet_onHeap flags).sources_values fun _ _ _ ended => by cases ended; rfl

/-- Batch wrappers are no tags, so wrapping results adds none. -/
theorem sources_wrapResults (count : Nat) (level : Level)
    : (Batching.wrapResults count level).Sources allowed fun _ => True := by
  refine sources_values.bind fun values sourced => ?_
  refine (idle_lift (Outcome.plain_orOverflow _).orderly).sources.bind fun start _ => ?_
  refine (sources_mapM (fun value given => ?_) (sourced.subset (List.drop_subset start _))).bind ?_
  · split
    · refine (sources_batchAt (Value.sourced_tensor.mp given) level).bind fun result known => ?_
      exact sources_pure (Value.sourced_tensor.mpr known)
    · exact sources_pure given
  · intro wrapped given
    refine sources_replaceAll fun _ _ => Value.sourced_append.mpr ⟨?_, given⟩
    exact sourced.subset (List.take_subset start _)

theorem sources_replaceLast {value : Value} (given : Value.Sourced allowed [value])
    : (Batching.replaceLast value).Sources allowed fun _ => True := by
  refine sources_values.bind fun values sourced => ?_
  refine (idle_lift (Outcome.plain_orOverflow _).orderly).sources.bind fun start _ => ?_
  refine sources_replaceAll fun _ _ => Value.sourced_append.mpr ⟨?_, given⟩
  exact sourced.subset (List.take_subset start _)

/-- The copies of the arguments have the tags of the arguments at most. -/
theorem sources_copyUntagged (op : Schema) (level : Level)
    : (copyUntagged op level).Sources allowed fun _ => True :=
  (sources_peek _).bind fun _ sourced => (sources_pushAll sourced).bind fun _ _ =>
    sources_mapLast (fun _ known => sources_unwrapAt known level) _

/-- The results get new tags of the level, and the values below them stay. -/
theorem sources_tagResults (op : Schema) (level : Level)
    : (tagResults op level).Sources allowed fun _ => True := by
  refine (idle_reading.lastStart _).sources.bind fun stop _ => ?_
  refine (sources_mapRange (fun _ known => sources_tagAt known level) _ _).bind fun _ _ => ?_
  refine (idle_lift (Outcome.plain_orOverflow _).orderly).sources.bind fun start _ => ?_
  refine (idle_read _).sources.bind fun values _ => ?_
  refine (sources_noting.forTensors (fun tensor => sources_onHeap fun heap => ?_) _).bind
    fun _ _ => ?_
  · cases tensor <;> rfl
  · refine sources_replaceAll fun values sourced => Value.sourced_append.mpr ⟨?_, ?_⟩
    · exact sourced.subset (List.take_subset _ _)
    · exact sourced.subset (List.drop_subset _ _)

/-- The entry interceptor makes tags for its arguments only, and goes on with a call. -/
theorem sources_entryInterceptor (dispatches : (calls.dispatch op).Sources allowed fun _ => True)
    : (entryInterceptor.run calls op).Sources allowed fun _ => True := by
  refine (idle_read _).sources.bind fun top? _ => ?_
  split
  · exact sources_fault trivial
  · rename_i layer
    refine (Idle.sources idle_reading.renderLayers).bind fun _ _ => ?_
    refine (sources_noting.logDispatch _).bind fun _ _ => ?_
    refine (sources_noting.refuseCapturedMutation op layer).bind fun _ _ => ?_
    refine (sources_mapLast (fun _ known => sources_receive layer known) _).bind fun _ _ => ?_
    refine (idle_read _).sources.bind fun overlay _ => ?_
    exact .holding (fun machine levelled => ⟨moves_replaceOverlay _ machine, levelled⟩) dispatches

/-- The exit interceptor issues its call below the top layer, where the levels of the layers are
still those of their positions, and tags the results afterwards.
-/
theorem sources_exitInterceptor (dispatches : (calls.dispatch op).Sources allowed fun _ => True)
    : (exitInterceptor.run calls op).Sources allowed fun _ => True := by
  have below_top {start : Machine} {layer : Layer} {below : List Layer}
      (allows : start.Allows allowed) (sourced : Value.Sourced allowed start.values)
      (top : start.thread.layers = layer :: below)
      : (dispatchBelow calls op layer).Meets start
          (fun _ values _ => True ∧ Value.Sourced allowed values) (fun _ => True) := by
    have levelled := allows.levelled
    rw [top] at levelled
    refine .dispatchBelow top levelled.1 (fun _ _ _ _ => quiet_writing.overlayBelow op layer _) ?_
    intro held atHeld
    refine dispatches held ⟨?_, ?_⟩ ?_
    · have layers : held.thread.layers = below := congrArg Ambient.layers atHeld.ambient
      rw [layers]
      exact levelled.2
    · rw [atHeld.registry]
      exact allows.registered
    · rwa [atHeld.values]
  intro machine allows sourced
  cases layers : machine.thread.layers with
  | nil =>
      simp [exitInterceptor, Meets, Run.currentLayer, topLayer?, layers, Exit.Orderly,
        Machine.Resumes.refl]
  | cons layer below =>
      refine quiet_writing.currentLayer.step (currentLayer_apply layers) ?_
      cases layer.kind with
      | batching => exact below_top allows sourced layers
      | differentiation =>
          refine (sources_copyUntagged op _ machine allows sourced).bind ?_
          intro _ copied _ resumes left
          have again := allows.resumes resumes
          refine (below_top again left.2 (resumes.layers.trans layers)).bind ?_
          intro _ returned _ resumes left
          exact sources_tagResults op _ returned (again.resumes resumes) left.2

/-- The body of a differentiation layer adds no tags of its own. -/
theorem sources_differentiationBody (dispatches : (calls.dispatch op).Sources allowed fun _ => True)
    : (differentiationBody.run calls op).Sources allowed fun _ => True := by
  refine sources_noting.currentLayer.bind fun layer _ => ?_
  refine (idle_read _).sources.bind fun recording _ => ?_
  refine (Sources.hiding _ dispatches).bind fun _ _ => .ite ?_ (sources_pure trivial)
  refine (sources_peek _).bind fun results _ => sources_noting.forTensors (fun tensor => ?_) _
  refine .ite (sources_onHeap fun heap => ?_) (sources_pure trivial)
  cases tensor <;> rfl

/-- Taking dead tags off adds none. -/
theorem sources_deadWrapperFallback (dispatches : (calls.dispatch op).Sources allowed fun _ => True)
    : (deadWrapperFallback.run calls op).Sources allowed fun _ => True := by
  refine (sources_mapLast (fun tensor known => ?_) _).bind fun _ _ => dispatches
  refine (sources_unwrapDead known).bind fun bare bareKnown => ?_
  split
  · exact sources_fault trivial
  · exact sources_pure bareKnown

/-- The value below a batch has the tags of the batch. -/
theorem Sources.physical {argument : Value} {physical : Tensor}
    (found : Batching.physicalArgument? level argument = some physical)
    (sourced : Value.Sourced allowed [argument])
    : physical.Sourced allowed := by
  obtain ⟨tensor, given, at_level⟩ := Option.bind_eq_some_iff.mp found
  obtain ⟨handle, rfl⟩ := Tensor.physicalAt?_eq_some at_level
  rw [Value.tensor?_eq_some given] at sourced
  exact Tensor.sourced_batched.mp (Value.sourced_tensor.mp sourced)

/-- The rule for element-wise operators hands on padded physical values and wraps the results. -/
theorem sources_pointwise (source : calls.Source allowed)
    (dispatches : (calls.dispatch op).Sources allowed fun _ => True)
    : (Batching.pointwise.run calls op).Sources allowed fun _ => True := by
  refine sources_noting.currentLayer.bind fun layer _ => ?_
  refine (sources_pop _).bind fun arguments sourced => ?_
  refine (idle_read _).sources.bind fun rank _ => Sources.hiding _ ?_
  refine (sources_mapM (fun argument given => ?_) sourced).bind fun padded prepared => ?_
  · split
    · exact sources_pure given
    · rename_i physical found
      refine (source.pad rank _ (Sources.physical found given)).bind fun result known => ?_
      exact sources_pure (Value.sourced_tensor.mpr known)
  · refine (sources_pushAll prepared).bind fun _ _ => dispatches.bind fun _ _ => ?_
    exact .ite (sources_wrapResults _ _) (sources_pure trivial)

/-- The rule for a new dimension hands on the physical value. -/
theorem sources_unsqueeze (dispatches : (calls.dispatch op).Sources allowed fun _ => True)
    : (Batching.unsqueeze.run calls op).Sources allowed fun _ => True := by
  refine sources_noting.currentLayer.bind fun layer _ => ?_
  refine (sources_pop _).bind fun arguments sourced => ?_
  refine (sources_tensorAt sourced _ _).bind fun input known => ?_
  refine (idle_lift (Value.plain_intAt _ _ _).orderly).sources.bind fun dim _ => Sources.hiding _ ?_
  split
  · rename_i physical found
    obtain ⟨handle, rfl⟩ := Tensor.physicalAt?_eq_some found
    refine (idle_read _).sources.bind fun shape _ => .ite ?_ (sources_fail _ _)
    refine (sources_pushAll ?_).bind fun _ _ => dispatches.bind fun _ _ => sources_wrapResults _ _
    exact Value.sourced_cons.mpr ⟨Value.sourced_tensor.mpr known,
      by simp [Value.Sourced, Value.tensors]⟩
  · exact (sources_pushAll sourced).bind fun _ _ => dispatches

/-- The rule for sums in place gives back its target as it was, after a call on the physical values.
-/
theorem sources_addInPlace (source : calls.Source allowed)
    (dispatches : (calls.dispatch op).Sources allowed fun _ => True)
    : (Batching.addInPlace.run calls op).Sources allowed fun _ => True := by
  refine sources_noting.currentLayer.bind fun layer _ => ?_
  refine (sources_pop _).bind fun arguments sourced => ?_
  refine (sources_tensorAt sourced _ _).bind fun target known => ?_
  refine (sources_tensorAt sourced _ _).bind fun other otherKnown => Sources.hiding _ ?_
  have adds {physical addend : Tensor} (found : target.physicalAt? layer.level = some physical)
      (addendKnown : addend.Sourced allowed)
      : Run.Sources allowed
          (do
            pushAll [.tensor physical, .tensor addend]
            calls.dispatch op
            Batching.replaceLast (.tensor target))
          fun _ => True := by
    obtain ⟨handle, rfl⟩ := Tensor.physicalAt?_eq_some found
    refine (sources_pushAll ?_).bind fun _ _ => dispatches.bind fun _ _ =>
      sources_replaceLast (Value.sourced_tensor.mpr known)
    exact Value.sourced_cons.mpr ⟨Value.sourced_tensor.mpr known,
      Value.sourced_tensor.mpr addendKnown⟩
  split
  · exact sources_fail _ _
  · exact (sources_pushAll sourced).bind fun _ _ => dispatches
  · rename_i physical found
    refine (idle_read _).sources.bind fun shape _ => ?_
    split
    · rename_i batch batched
      obtain ⟨handle, rfl⟩ := Tensor.physicalAt?_eq_some batched
      refine (source.pad _ _ (Tensor.sourced_batched.mp otherKnown)).bind ?_
      exact fun addend padded => adds found padded
    · exact (sources_pure otherKnown).bind fun addend same => adds found same

/-- The rule for random operators hands on sizes, around which there are no tags. -/
theorem sources_random (dispatches : (calls.dispatch op).Sources allowed fun _ => True)
    : (Batching.random.run calls op).Sources allowed fun _ => True := by
  refine sources_noting.currentLayer.bind fun layer _ => Sources.hiding _ ?_
  split
  · exact sources_fault trivial
  · exact sources_fail _ _
  · exact dispatches
  · rename_i batch policy
    refine (sources_pop _).bind fun arguments _ => ?_
    refine (idle_lift (Value.plain_sizesAt _ _ _).orderly).sources.bind fun sizes _ => ?_
    have known : Value.Sourced allowed [.ints ((batch :: sizes).map Size.toSigned)] := by
      simp [Value.Sourced, Value.tensors]
    refine (sources_pushAll known).bind fun _ _ => ?_
    exact dispatches.bind fun _ _ => sources_wrapResults _ _

theorem sources_batchRule (source : calls.Source allowed)
    (dispatches : (calls.dispatch op).Sources allowed fun _ => True)
    : ((batchRule op.name).run calls op).Sources allowed fun _ => True := by
  unfold batchRule
  split
  · exact sources_pointwise source dispatches
  · exact sources_pointwise source dispatches
  · exact sources_pointwise source dispatches
  · exact sources_unsqueeze dispatches
  · exact sources_addInPlace source dispatches
  · exact (sources_log _).bind fun _ _ => sources_fail _ _

/-- Whatever kernel is selected above the base leaves allowed tags only, if the calls that it issues
do.
-/
theorem sources_of_select {set : CapabilitySet} {capability : Capability} {kernel : Kernel}
    (source : calls.Source allowed) (member : op ∈ Base.schemas)
    (selected : standard.select op set = some (capability, kernel))
    (above : capability ≠ .backend)
    : (kernel.run calls op).Sources allowed fun _ => True := by
  have dispatches := source.dispatch op member
  rw [select_standard] at selected
  split at selected
  · cases selected
    exact sources_entryInterceptor dispatches
  split at selected
  · cases selected
    exact sources_random dispatches
  split at selected
  · cases selected
    exact sources_batchRule source dispatches
  split at selected
  · cases selected
    exact sources_differentiationBody dispatches
  split at selected
  · cases selected
    exact sources_deadWrapperFallback dispatches
  split at selected
  · cases selected
    exact sources_exitInterceptor dispatches
  split at selected
  · obtain ⟨base, -, chosen⟩ := Option.map_eq_some_iff.mp selected
    cases chosen
    exact absurd rfl above
  · cases selected

/-- No call leaves other tags, by induction over how deeply calls nest. The base kernels are the
only ones that issue none.
-/
theorem sources_dispatchWithin (budget : Nat) (member : op ∈ Base.schemas)
    : (standard.dispatchWithin budget op).Sources allowed fun _ => True := by
  induction budget generalizing op with
  | zero => exact sources_fault trivial
  | succ budget ih =>
      intro machine allows sourced
      refine (quiet_dispatchSet op machine).bind ?_
      intro set reached found _ _
      obtain ⟨rfl, enough, -⟩ := dispatchSet_ok found
      cases selected : standard.select op set with
      | none => exact meets_fail trivial
      | some chosen =>
          obtain ⟨capability, kernel⟩ := chosen
          dsimp only
          refine .traced ?_
          by_cases base : capability = .backend
          · subst base
            exact sources_base ⟨member, enough⟩ (select_backend selected).1 sourced
          · have source : Calls.Source allowed ⟨standard.dispatchWithin budget, standard.schema?⟩ :=
              ⟨fun _ => ih, fun _ _ found => (schema?_standard found).1⟩
            exact sources_of_select source member selected base _
              ⟨allows.levelled, allows.registered⟩ sourced

end Run

/-- A tag around a result of a call is one around an argument, or it has the flag under which its level
is registered.
-/
theorem Dispatcher.call_sourced {name : String} {arguments results : List Value}
    (levelled : Layer.Levelled machine.thread.layers)
    (ended : standard.call name arguments machine = .ok results reached)
    : ∀ stamp ∈ Value.stamps results,
        stamp ∈ Value.stamps arguments
        ∨ machine.registry.find? stamp.level = some stamp.flag := by
  let known (stamp : Stamp) : Prop :=
    stamp ∈ Value.stamps arguments ∨ machine.registry.find? stamp.level = some stamp.flag
  have given : Value.Sourced known arguments := Value.sourced_iff.mpr fun _ => Or.inl
  have allows : machine.Allows known := ⟨levelled, fun _ _ _ => Or.inr⟩
  have source (budget : Nat)
      : Calls.Source known ⟨standard.dispatchWithin budget, standard.schema?⟩ :=
    ⟨fun _ => sources_dispatchWithin budget, fun _ _ found => (schema?_standard found).1⟩
  have meets := (source (standard.budget machine.thread.layers.length)).meets_call name given allows
  exact Value.sourced_iff.mp (Ends.of_ok meets ended).2.1

end

end LayeredDispatch
