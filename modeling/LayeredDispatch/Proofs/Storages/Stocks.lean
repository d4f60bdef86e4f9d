import LayeredDispatch.Proofs.Dispatch.Confinement
import LayeredDispatch.Proofs.Effects.BaseKernels
import LayeredDispatch.Proofs.Effects.Settling
import LayeredDispatch.Proofs.Storages.Spared

/-! Storages whose numbers of elements are those of their shapes, and tensors with a storage below all
wrappers. Nothing is assumed of the layers, the overlay, the levels or the tags. Main statement: the
parts of kernels that issue no calls keep such storages and such boxed values, and whatever end they
come to is not that of a position outside of its sequence or of a division by zero.
-/

namespace LayeredDispatch

open Run

/-- An end that is neither a position outside of its sequence nor a division by zero. -/
def Exit.InRange : Exit → Prop
  | .fault .divisionByZero | .fault .outOfBounds | .fault (.rangeOutOfBounds ..) => False
  | _ => True

/-- Every storage has as many elements as its shape says. -/
def Heap.Sized (heap : Heap) : Prop :=
  ∀ cell < heap.storages.size, (heap.storage cell).Sized

/-- The storage below all wrappers is one of the first `count` ones. -/
def Tensor.Based (count : Nat) (tensor : Tensor) : Prop :=
  tensor.baseCell < count

/-- The storages below the tensors among some values, members of lists included, are among the first
`count` ones.
-/
def Value.Based (count : Nat) (values : List Value) : Prop :=
  ∀ value ∈ values, ∀ tensor ∈ value.tensors, tensor.Based count

/-- Every storage fits its shape, and the tensors among the boxed values have storages. -/
structure Machine.Stocked (machine : Machine) : Prop where
  sized : machine.heap.Sized
  based : Value.Based machine.heap.storages.size machine.values

/-- The storages fit their shapes, and there are `count` of them or more. -/
structure Heap.Holding (count : Nat) (heap : Heap) : Prop where
  sized : heap.Sized
  enough : count ≤ heap.storages.size

/-- From `machine` the computation keeps that storages fit their shapes and that boxed tensors have
storages; it takes no storage away, and a value is as `ok` says of the number of storages that there
are then. Where it ends without a value nothing is said of the boxed values, but the end is in range.
-/
def Run.StocksFrom (machine : Machine) (body : Run α) (ok : Nat → α → Prop) : Prop :=
  body.Ends machine
    (fun value reached =>
      reached.Stocked
      ∧ machine.heap.storages.size ≤ reached.heap.storages.size
      ∧ ok reached.heap.storages.size value)
    (fun exit reached =>
      reached.heap.Holding machine.heap.storages.size ∧ exit.InRange)

/-- The computation does so wherever there are `present` storages or more. -/
def Run.Stocks (present : Nat) (body : Run α) (ok : Nat → α → Prop) : Prop :=
  ∀ machine : Machine,
    machine.Stocked → present ≤ machine.heap.storages.size → body.StocksFrom machine ok

/-- Ends that do not depend on positions are in range.
The three faults that are out of range are among those that a regular end is not.
-/
theorem Exit.Regular.inRange {exit : Exit} (h : exit.Regular) : exit.InRange := by
  unfold Exit.InRange
  split
  · exact h
  · exact h
  · exact h
  · trivial

/-- Sizes that are too large are no positions.
Two faults are meant, and neither is one of the three that are out of range.
-/
theorem Exit.TooLarge.inRange {exit : Exit} (h : exit.TooLarge) : exit.InRange := by
  unfold Exit.InRange
  split
  · exact h
  · exact h
  · exact h
  · trivial

section

variable {machine reached : Machine} {present later count : Nat} {tensor : Tensor}
  {values others : List Value}

-----------------------------------------------------------------------------------------
-- Storages
-----------------------------------------------------------------------------------------

namespace Heap

variable {heap : Heap} {storage : Storage}

/-- Whether storages fit their shapes is a matter of the storages alone. -/
theorem Sized.congr {other : Heap} (sized : heap.Sized) (same : other.storages = heap.storages)
    : other.Sized := by
  intro cell present
  unfold Heap.storage
  rw [same] at present ⊢
  exact sized cell present

/-- A new storage that fits its shape leaves all of them fitting.
An old cell reads what it read before; the only other one is the last, which reads the new storage.
-/
theorem Sized.newDense (sized : heap.Sized) (fits : storage.Sized)
    : (heap.newDense storage).2.Sized := by
  intro cell present
  by_cases old : cell < heap.storages.size
  · rw [((grows_newDense heap storage).storages cell old).2]
    exact sized cell old
  · have new : cell = heap.storages.size := by
      simp [Heap.newDense] at present
      omega
    subst new
    simpa [Heap.storage, Heap.newDense] using fits

/-- Writing a storage that fits its shape leaves all of them fitting.
The cell that is written reads the new storage, and every other cell what it read before.
-/
theorem Sized.setStorage (sized : heap.Sized) (fits : storage.Sized) (target : Nat)
    : (heap.setStorage target storage).Sized := by
  intro cell present
  have old : cell < heap.storages.size := by simpa [Heap.setStorage] using present
  by_cases same : target = cell
  · subst same
    rwa [storage_setStorage_same heap target storage old]
  · rw [storage_setStorage_other heap storage same]
    exact sized cell old

end Heap

-----------------------------------------------------------------------------------------
-- Tensors and values
-----------------------------------------------------------------------------------------

/-- A tensor that has a storage among the first few has one among more of them. -/
theorem Tensor.Based.mono (h : tensor.Based present) (more : present ≤ later)
    : tensor.Based later :=
  Nat.lt_of_lt_of_le h more

/-- Taking off dead tags leaves the storage below all wrappers. -/
theorem Tensor.Based.unwrapDead (h : tensor.Based present) (heap : Heap)
    : (tensor.unwrapDead heap).Based present := by
  unfold Tensor.Based
  rwa [baseCell_unwrapDead]

namespace Value

theorem based_nil : Based present [] :=
  List.forall_mem_nil _

theorem based_tensor : Based present [.tensor tensor] ↔ tensor.Based present := by
  simp [Based, Value.tensors]

theorem based_list : Based present [.list values] ↔ Based present values := by
  simp only [Based, List.forall_mem_singleton, Value.tensors]
  exact forall_tensorsAll

theorem based_ints (sizes : List Int) : Based present [.ints sizes] := by
  simp [Based, Value.tensors]

theorem based_int (value : Int) : Based present [.int value] := by
  simp [Based, Value.tensors]

theorem based_append
    : Based present (values ++ others) ↔ Based present values ∧ Based present others :=
  List.forall_mem_append

theorem based_cons {value : Value}
    : Based present (value :: values) ↔ Based present [value] ∧ Based present values :=
  @based_append present [value] values

/-- Values have storages exactly if all the tensors among them do, read in order.
The two ways of going through nested lists reach the same tensors.
-/
theorem based_iff : Based present values ↔ ∀ tensor ∈ tensorsAll values, tensor.Based present :=
  forall_tensorsAll.symm

theorem Based.subset (h : Based present values) (among : others ⊆ values) : Based present others :=
  fun value member => h value (among member)

theorem Based.mono (h : Based present values) (more : present ≤ later) : Based later values :=
  fun value member tensor inside => (h value member tensor inside).mono more

/-- A tensor that is itself one of the values has a storage if they have. -/
theorem Based.of_mem (h : Based present values) (member : .tensor tensor ∈ values)
    : tensor.Based present :=
  h _ member tensor (List.mem_singleton_self tensor)

end Value

/-- Where storages and boxed values are left alone, storages still fit and boxed tensors still have
one.
Both conditions read nothing else of a state.
-/
theorem Machine.Spared.stocked (spared : machine.Spared reached) (stocked : machine.Stocked)
    : reached.Stocked := by
  refine ⟨stocked.sized.congr spared.storages, ?_⟩
  rw [spared.storages, spared.values]
  exact stocked.based

theorem Machine.Spared.size (spared : machine.Spared reached)
    : reached.heap.storages.size = machine.heap.storages.size :=
  congrArg Array.size spared.storages

/-- What is said of storages alone carries over to a heap with the same ones. -/
theorem Heap.Holding.congr {heap other : Heap} (h : heap.Holding count)
    (same : other.storages = heap.storages)
    : other.Holding count :=
  ⟨h.sized.congr same, by rw [same]; exact h.enough⟩

-----------------------------------------------------------------------------------------
-- Computations
-----------------------------------------------------------------------------------------

namespace Run

section

variable {given : Nat → α → Prop} {ok : Nat → β → Prop} {body : Run α}

/-- A sequence keeps the storages if its parts do. The second part is started with whatever number
of
storages the first one leaves, so it is asked for all numbers from the present one up.
The numbers only grow, so what the sequence ends with bounds what it started with by transitivity.
-/
theorem StocksFrom.bind {first : Run α} {next : α → Run β} (head : first.StocksFrom machine given)
    (tail
      : ∀ value count,
          machine.heap.storages.size ≤ count → given count value → (next value).Stocks count ok)
    : (first >>= next).StocksFrom machine ok := by
  unfold StocksFrom
  rw [ends_bind]
  refine Ends.mono head ?_ fun _ _ => id
  rintro value reached ⟨stocked, more, left⟩
  refine Ends.mono (tail value _ more left reached stocked le_rfl) ?_ ?_
  · exact fun _ _ ⟨restocked, grown, left⟩ => ⟨restocked, more.trans grown, left⟩
  · exact fun _ _ ⟨holding, inRange⟩ => ⟨⟨holding.sized, more.trans holding.enough⟩, inRange⟩

/-- The same of a computation that may be started anywhere: the step from one start is taken at
each.
-/
theorem Stocks.bind {first : Run α} {next : α → Run β} (head : first.Stocks present given)
    (tail
      : ∀ value count, present ≤ count → given count value → (next value).Stocks count ok)
    : (first >>= next).Stocks present ok :=
  fun machine stocked enough =>
    (head machine stocked enough).bind fun value count more =>
      tail value count (enough.trans more)

/-- A first part of which nothing needs to be known. -/
theorem Stocks.then {first : Run α} {next : α → Run β} (head : first.Stocks present given)
    (tail : ∀ value count, present ≤ count → (next value).Stocks count ok)
    : (first >>= next).Stocks present ok :=
  head.bind fun value count more _ => tail value count more

/-- A choice keeps the storages if both ways do. -/
theorem Stocks.ite {condition : Prop} [Decidable condition] {first second : Run α}
    (yes : first.Stocks present given) (no : second.Stocks present given)
    : Run.Stocks present (if condition then first else second) given := by
  split
  · exact yes
  · exact no

theorem stocks_pure {value : α} (left : ∀ count, present ≤ count → given count value)
    : (pure value : Run α).Stocks present given :=
  fun _ stocked enough => ⟨stocked, le_rfl, left _ enough⟩

theorem stocks_done : (pure () : Run Unit).Stocks present fun _ _ => True :=
  stocks_pure fun _ _ => trivial

theorem stocks_fail (error : DispatchError) : (fail error : Run α).Stocks present given :=
  fun _ stocked _ => ⟨⟨stocked.sized, le_rfl⟩, trivial⟩

/-- A fault keeps the storages, provided that it is none of those out of range.
Nothing has changed, and the end is the one that is assumed to be in range.
-/
theorem stocks_fault {fault : Fault} (inRange : (Exit.fault fault).InRange)
    : (Run.fault fault : Run α).Stocks present given :=
  fun _ stocked _ => ⟨⟨stocked.sized, le_rfl⟩, inRange⟩

theorem stocks_read (part : Machine → α) : (read part).Stocks present fun _ _ => True :=
  fun _ stocked _ => ⟨stocked, le_rfl, trivial⟩

/-- What leaves storages and boxed values alone, and of which it is known how it ends and what it
gives.
All that is asked of the state reached is read off the state before, since both have the same
storages
and the same boxed values; how it ends is the other assumption.
-/
theorem Apart.stocks_giving (apart : Apart body) (regular : body.Confined Exit.Regular)
    (gives
      : ∀ machine value reached,
          body machine = .ok value reached → ∀ count, present ≤ count → given count value)
    : body.Stocks present given := by
  intro machine stocked enough
  have spares := apart machine
  have ends := regular machine
  unfold StocksFrom
  unfold Ends at *
  cases ended : body machine with
  | ok value reached =>
      rw [ended] at spares
      have grown := Nat.le_of_eq spares.size.symm
      exact ⟨spares.stocked stocked, grown,
        gives machine value reached ended _ (enough.trans grown)⟩
  | error exit reached =>
      rw [ended] at spares ends
      exact ⟨⟨stocked.sized.congr spares.storages, Nat.le_of_eq spares.size.symm⟩, ends.inRange⟩

/-- What leaves storages and boxed values alone keeps them, whatever it gives. -/
theorem Apart.stocks (apart : Apart body) (regular : body.Confined Exit.Regular)
    : body.Stocks present fun _ _ => True :=
  apart.stocks_giving regular fun _ _ _ _ _ _ => trivial

/-- A pure computation keeps the storages. Its ends have to be in range, and what it gives has to
fit
every larger number of storages, since it may be started with any of them.
-/
theorem stocks_lift {outcome : Outcome α} (inRange : outcome.Confined Exit.InRange)
    (gives : ∀ value, outcome = .ok value → ∀ count, present ≤ count → given count value)
    : Run.Stocks present (liftM outcome : Run α) given := by
  cases outcome with
  | ok value => exact stocks_pure (gives value rfl)
  | error exit =>
      exact fun _ stocked _ => ⟨⟨stocked.sized, le_rfl⟩, inRange exit rfl⟩

/-- A pure computation whose ends do not depend on positions keeps the storages. -/
theorem stocks_lift_regular {outcome : Outcome α} (regular : outcome.Confined Exit.Regular)
    : Run.Stocks present (liftM outcome : Run α) fun _ _ => True :=
  stocks_lift (regular.mono fun _ => Exit.Regular.inRange) fun _ _ _ _ => trivial

end

-----------------------------------------------------------------------------------------
-- Cleanups
-----------------------------------------------------------------------------------------

section

variable {body : Run α} {cleanup : Run Unit} {given ok : α → Machine → Prop}

/-- What a cleanup keeps of the storages wherever it starts, and what it does after a value.
The cases are those of a cleanup: after a value its own end counts; after an error or a fault it is
started all the same, and a second fault turns into the abort; an abort skips it. In each of them
the
storages are those that the body left, since the cleanup does not touch them.
-/
theorem ends_ensuring_holding
    (inner : body.Ends machine given fun exit reached => reached.heap.Holding count ∧ exit.InRange)
    (tidies
      : ∀ value reached,
          given value reached
          → cleanup.Ends reached (fun _ final => ok value final)
              fun exit final => final.heap.Holding count ∧ exit.InRange)
    (keeps
      : ∀ reached : Machine,
          cleanup.Ends reached (fun _ final => final.heap.storages = reached.heap.storages)
            fun exit final => final.heap.storages = reached.heap.storages ∧ exit.InRange)
    : (Run.ensuring body cleanup).Ends machine ok
        fun exit reached => reached.heap.Holding count ∧ exit.InRange := by
  unfold Ends at inner ⊢
  unfold Run.ensuring
  cases ended : body machine with
  | ok value reached =>
      rw [ended] at inner
      have tidied := tidies value reached inner
      unfold Ends at tidied
      cases cleaned : cleanup reached <;> simpa only [cleaned] using tidied
  | error exit reached =>
      rw [ended] at inner
      have kept := keeps reached
      unfold Ends at kept
      cases exit with
      | abort => exact inner
      | error error =>
          cases cleaned : cleanup reached with
          | ok _ final => simpa [cleaned] using ⟨inner.1.congr (by simpa [cleaned] using kept), inner.2⟩
          | error other final =>
              simp only [cleaned] at kept ⊢
              exact ⟨inner.1.congr kept.1, kept.2⟩
      | fault fault =>
          cases cleaned : cleanup reached with
          | ok _ final => simpa [cleaned] using ⟨inner.1.congr (by simpa [cleaned] using kept), inner.2⟩
          | error other final =>
              simp only [cleaned] at kept ⊢
              exact ⟨inner.1.congr kept.1, trivial⟩

end

section

variable {given : Nat → α → Prop} {body : Run α}

/-- A body with a cleanup keeps the storages if the body does and the cleanup leaves them alone.
After a value the state that the cleanup reaches has the storages and the boxed values of the
body's.
-/
theorem Stocks.ensuring {cleanup : Run Unit} (inner : body.Stocks present given)
    (apart : Apart cleanup) (regular : cleanup.Confined Exit.Regular)
    : (Run.ensuring body cleanup).Stocks present given := by
  have both (start : Machine)
      : cleanup.Ends start (fun _ final => start.Spared final)
          fun exit final => start.Spared final ∧ exit.Regular := by
    have spares := apart start
    have ends := regular start
    unfold Ends at *
    cases ended : cleanup start with
    | ok _ final => simpa only [ended] using spares
    | error exit final =>
        rw [ended] at spares ends
        exact ⟨spares, ends⟩
  intro machine stocked enough
  refine ends_ensuring_holding (inner machine stocked enough) ?_ fun start => ?_
  · rintro value reached ⟨restocked, more, left⟩
    refine (both reached).mono (fun _ final spared => ?_) fun exit final ⟨spared, regular⟩ => ?_
    · rw [spared.size]
      exact ⟨spared.stocked restocked, more, left⟩
    · exact ⟨⟨restocked.sized.congr spared.storages, by rwa [spared.size]⟩, regular.inRange⟩
  · exact (both start).mono (fun _ _ => Machine.Spared.storages) fun _ _ ⟨spared, regular⟩ =>
      ⟨spared.storages, regular.inRange⟩

/-- A body under a guard keeps the storages. Acquiring and releasing guards of any kind leaves
storages and
boxed values alone, so this is a body with a cleanup after a first part of which nothing is needed.
-/
theorem Stocks.holding {acquire : Run Guard} (apart : Apart acquire)
    (regular : acquire.Confined Exit.Regular) (inner : body.Stocks present given)
    : (Run.holding acquire body).Stocks present given :=
  (apart.stocks regular).then fun guard _ more machine stocked enough =>
    inner.ensuring (apart_layering.release guard) (regular_layering.release guard) machine stocked
      (more.trans enough)

/-- A body with some hooks hidden keeps the storages. -/
theorem Stocks.hiding (set : CapabilitySet) (inner : body.Stocks present given)
    : (Run.holding (Guard.hide set) body).Stocks present given :=
  inner.holding (apart_layering.hide set) fun _ => trivial

/-- A body inside a node of the trace keeps the storages. Opening and closing nodes changes the
recorder
only, and whether a node was opened decides between the body as it is and the body with a cleanup.
-/
theorem Stocks.traced (inner : body.Stocks present given) (op : String) (capability : Capability)
    : (Run.traced op capability body).Stocks present given := by
  have opens : Apart (openSpan op capability) := by
    refine (apart_read _).bind fun recorder? => ?_
    split
    · exact (apart_onThread _).bind fun _ => apart_pure _
    · exact apart_pure _
  have regular : (openSpan op capability).Confined Exit.Regular := by
    refine (confined_read _).bind fun recorder? => ?_
    split
    · exact (confined_onThread _).bind fun _ => confined_pure _
    · exact confined_pure _
  refine (opens.stocks regular).then fun opened count more => ?_
  have again : body.Stocks count given := fun machine stocked enough =>
    inner machine stocked (more.trans enough)
  exact .ite (again.ensuring (apart_onThread _) (confined_onThread _)) again

/-- A body on values of its own: where it ends without a value, the values around it need no
storages
for this.
The values around it are put back by a cleanup that cannot fail, so only their number is at stake.
-/
theorem ends_onValues (sized : machine.heap.Sized)
    (based : Value.Based machine.heap.storages.size values)
    (inner : body.Stocks machine.heap.storages.size given)
    : (Run.onValues values body).Ends machine
        (fun result reached =>
          reached.heap.Holding machine.heap.storages.size
          ∧ reached.values = machine.values
          ∧ given reached.heap.storages.size result.1
          ∧ Value.Based reached.heap.storages.size result.2)
        (fun exit reached =>
          reached.heap.Holding machine.heap.storages.size ∧ exit.InRange) := by
  unfold Ends
  rw [onValues_apply]
  refine ends_ensuring_holding ?_ (fun _ _ => id) fun _ => rfl
  rw [ends_bind]
  refine Ends.mono (inner { machine with values } ⟨sized, based⟩ le_rfl) ?_ fun _ _ => id
  exact fun value reached ⟨stocked, more, left⟩ => ⟨⟨stocked.sized, more⟩, rfl, left, stocked.based⟩

end

-----------------------------------------------------------------------------------------
-- Boxed values
-----------------------------------------------------------------------------------------

/-- Reading the boxed values gives values that have storages, as long as the state has. -/
theorem stocks_values : (read Machine.values).Stocks present Value.Based :=
  fun _ stocked _ => ⟨stocked, le_rfl, stocked.based⟩

/-- Replacing the boxed values keeps the storages if the new ones have storages where the old ones
do.
-/
theorem stocks_replaceValues {change : List Value → List Value}
    (based
      : ∀ count,
          present ≤ count → ∀ values, Value.Based count values → Value.Based count (change values))
    : (modify fun machine => { machine with values := change machine.values } : Run PUnit).Stocks
        present fun _ _ => True :=
  fun _ stocked enough =>
    ⟨⟨stocked.sized, based _ enough _ stocked.based⟩, le_rfl, trivial⟩

/-- Values that have storages may be put on top of the boxed ones. -/
theorem stocks_pushAll (based : Value.Based present values)
    : (pushAll values).Stocks present fun _ _ => True :=
  stocks_replaceValues fun _ more _ known => Value.based_append.mpr ⟨known, based.mono more⟩

theorem stocks_lastStart (count : Nat) : (lastStart count).Stocks present fun _ _ => True :=
  (apart_noting.lastStart count).stocks (regular_writing.lastStart count)

/-- What is taken off the boxed values has storages, and so has what is left: both are parts of the
list.
-/
theorem stocks_pop (count : Nat) : (pop count).Stocks present Value.Based :=
  (stocks_lastStart count).then fun _ _ _ _ stocked _ =>
    ⟨⟨stocked.sized, stocked.based.subset (List.take_subset _ _)⟩, le_rfl,
      stocked.based.subset (List.drop_subset _ _)⟩

/-- What is read at the end of the boxed values has storages, as a part of the list. -/
theorem stocks_peek (count : Nat) : (peek count).Stocks present Value.Based :=
  (stocks_lastStart count).then fun _ _ _ _ stocked _ =>
    ⟨stocked, le_rfl, stocked.based.subset (List.drop_subset _ _)⟩

/-- An argument that is read as a tensor has a storage, since it is found among the arguments. -/
theorem stocks_tensorAt {arguments : List Value} (based : Value.Based present arguments)
    (name : String) (index : Nat)
    : Run.Stocks present (liftM (Value.tensorAt arguments name index) : Run Tensor)
        Tensor.Based :=
  stocks_lift ((Value.plain_tensorAt _ _ _).regular.mono fun _ => Exit.Regular.inRange)
    fun _ found _ more => (based.of_mem (List.mem_of_getElem? (Value.tensorAt_ok found))).mono more

mutual
/-- Visiting the tensors of one value gives a value whose tensors have storages, if each visit does.
Structural recursion together with the lists: a visit may be started with any larger number of
storages, because the visits before it may have made some.
-/
theorem stocks_mapTensorsM {present : Nat} {replace : Tensor → Run Tensor}
    (each
      : ∀ tensor count, present ≤ count → tensor.Based count
        → (replace tensor).Stocks count Tensor.Based)
    (value : Value) (based : Value.Based present [value])
    : (value.mapTensorsM replace).Stocks present fun count replaced =>
        Value.Based count [replaced] := by
  cases value with
  | tensor handle =>
      refine (each handle present le_rfl (Value.based_tensor.mp based)).bind fun _ _ _ known => ?_
      exact stocks_pure fun _ more => Value.based_tensor.mpr (known.mono more)
  | list items =>
      refine (stocks_mapTensorsAllM each items (Value.based_list.mp based)).bind ?_
      exact fun _ _ _ known => stocks_pure fun _ more => Value.based_list.mpr (known.mono more)
  | absent | bool _ | int _ | float _ | ints _ => exact stocks_pure fun _ => based.mono

/-- The same of several values one after another. What the first visits found is kept by the later
ones,
since the number of storages only grows.
-/
theorem stocks_mapTensorsAllM {present : Nat} {replace : Tensor → Run Tensor}
    (each
      : ∀ tensor count, present ≤ count → tensor.Based count
        → (replace tensor).Stocks count Tensor.Based)
    (values : List Value) (based : Value.Based present values)
    : (Value.mapTensorsAllM replace values).Stocks present Value.Based := by
  cases values with
  | nil => exact stocks_pure fun _ _ => Value.based_nil
  | cons value values =>
      obtain ⟨head, tail⟩ := Value.based_cons.mp based
      refine (stocks_mapTensorsM each value head).bind fun first count more firstKnown => ?_
      have later (tensor : Tensor) (larger : Nat) (grown : count ≤ larger) :=
        each tensor larger (more.trans grown)
      refine (stocks_mapTensorsAllM later values (tail.mono more)).bind ?_
      intro others larger grown othersKnown
      refine stocks_pure fun _ final => Value.based_cons.mpr ⟨?_, othersKnown.mono final⟩
      exact firstKnown.mono (grown.trans final)
end

/-- Visiting a list keeps that its values have storages, by induction on the list.
Each visit starts with the storages that the ones before it left, so the induction is for all
numbers.
-/
theorem stocks_mapM {visit : Value → Run Value}
    (each
      : ∀ value count, present ≤ count → Value.Based count [value]
        → (visit value).Stocks count fun later result => Value.Based later [result])
    (based : Value.Based present values)
    : (values.mapM visit).Stocks present Value.Based := by
  induction values generalizing present with
  | nil => exact stocks_pure fun _ _ => Value.based_nil
  | cons value values ih =>
      obtain ⟨head, tail⟩ := Value.based_cons.mp based
      rw [List.mapM_cons]
      refine (each value present le_rfl head).bind fun first count more firstKnown => ?_
      have later (item : Value) (larger : Nat) (grown : count ≤ larger) :=
        each item larger (more.trans grown)
      refine (ih later (tail.mono more)).bind fun others larger grown othersKnown => ?_
      refine stocks_pure fun _ final => Value.based_cons.mpr ⟨?_, othersKnown.mono final⟩
      exact firstKnown.mono (grown.trans final)

/-- What is done from the start of the last values on, is done inside of the boxed values.
Where there are fewer of them than are asked for, the computation ends before the rest of it starts.
-/
theorem stocks_lastStart_bind {next : Nat → Run α} {ok : Nat → α → Prop}
    (tail
      : ∀ start machine,
          machine.Stocked
          → present ≤ machine.heap.storages.size
          → start + count = machine.values.length
          → (next start).StocksFrom machine ok)
    : (lastStart count >>= next).Stocks present ok := by
  intro machine stocked enough
  have first := @stocks_lastStart present count machine stocked enough
  unfold StocksFrom at first ⊢
  rw [ends_bind]
  unfold Ends at first ⊢
  cases ended : lastStart count machine with
  | ok start reached =>
      obtain ⟨rfl, within, rfl⟩ := lastStart_ok ended
      exact tail _ _ stocked enough (Nat.sub_add_cancel within)
  | error exit reached => rwa [ended] at first

/-- Visiting the tensors in a range of the boxed values keeps that all of them have storages.
The values before and behind the range are parts of the old list, the ones inside come from the
visits,
and the range is not out of bounds because its end is the end of the list.
-/
theorem stocks_mapRange {replace : Tensor → Run Tensor} {start : Nat}
    (each
      : ∀ tensor count, present ≤ count → tensor.Based count
        → (replace tensor).Stocks count Tensor.Based)
    (stocked : machine.Stocked) (enough : present ≤ machine.heap.storages.size)
    (inside : start + count = machine.values.length)
    : (mapRange start (start + count) replace).StocksFrom machine fun _ _ => True := by
  have chosen
      : Value.Based machine.heap.storages.size ((machine.values.take (start + count)).drop start) :=
    (stocked.based.subset (List.take_subset _ _)).subset (List.drop_subset _ _)
  unfold StocksFrom
  rw [mapRange, ends_bind, ends_read, if_pos ⟨Nat.le_add_right _ _, Nat.le_of_eq inside⟩]
  change Run.StocksFrom machine (Value.mapTensorsAllM replace _ >>= _) (fun _ _ => True)
  refine (stocks_mapTensorsAllM ?_ _ chosen machine stocked le_rfl).bind ?_
  · exact fun tensor later more => each tensor later (enough.trans more)
  · refine fun replaced later more known _ restocked grown =>
      ⟨⟨restocked.sized, ?_⟩, le_rfl, trivial⟩
    have kept := stocked.based.mono (more.trans grown)
    refine Value.based_append.mpr ⟨Value.based_append.mpr ⟨?_, known.mono grown⟩, ?_⟩
    · exact kept.subset (List.take_subset _ _)
    · exact kept.subset (List.drop_subset _ _)

/-- Visiting the tensors among the last boxed values keeps that all of them have storages. -/
theorem stocks_mapLast {replace : Tensor → Run Tensor}
    (each
      : ∀ tensor count, present ≤ count → tensor.Based count
        → (replace tensor).Stocks count Tensor.Based)
    (count : Nat)
    : (mapLast count replace).Stocks present fun _ _ => True :=
  stocks_lastStart_bind fun _ _ stocked enough => stocks_mapRange each stocked enough

end Run
end
end LayeredDispatch
