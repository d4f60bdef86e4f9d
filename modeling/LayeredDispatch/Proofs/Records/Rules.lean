import LayeredDispatch.Proofs.Records.Recording
import LayeredDispatch.Proofs.Results.Closure

/-! History is recorded at exactly the right levels. Batching layers pad arguments by calls that
record names of their own, but on values that only the layers below see; what they mark as batched
keeps its tags. Main statement: under every built stack, the tags around a result remember the
operator at those levels above which no layer switches the gradient mode off, if that is on and there
is a tensor among the arguments.
-/

namespace LayeredDispatch

open Run Dispatcher

section

variable {machine held reached : Machine} {op : Schema} {owners below : List Layer} {layer : Layer}
  {arguments inner outer results : List Value} {tensor result : Tensor} {budget : Nat}
  {name : String}

-----------------------------------------------------------------------------------------
-- Rules
-----------------------------------------------------------------------------------------

/-- A call that a rule issues in the body of its layer with some hooks hidden. Its result remembers
what the layers below record, which find what they found before; the batching layer itself records
nothing.
-/
theorem Contract.Holds.records_pushed {set : CapabilitySet}
    (holds : Contract.records.Holds budget) (within : machine.InBody layer below)
    (calling : held.Calling op owners) (hidden : held.ambient = machine.ambient.hide set)
    (start : held.Resumes reached) (pure : op.isInPlace = false)
    (registered : reached.Registered) (values : reached.values = outer)
    (size : inner.length = op.arity) (owned : ∀ lower ∈ owners, lower ∈ layer :: below)
    (kind : layer.kind = .batching)
    (tensors : Value.tensorsAll inner ≠ [] ↔ Value.tensorsAll arguments ≠ [])
    : ((nested budget).dispatch op).Leaves { reached with values := reached.values ++ inner }
        (fun _ values memory =>
          ∃ result,
            values = outer ++ [.tensor result]
            ∧ machine.Remembers op owners arguments result memory.heap)
        (fun _ _ => True) := by
  let pushed : Machine := { reached with values := reached.values ++ inner }
  have calling := calling.resumes start
  have calling : pushed.Calling op owners := ⟨calling.member, calling.owning, calling.drawn⟩
  have registered : pushed.Registered := registered
  refine holds.records calling pure registered (congrArg (· ++ inner) values) size ?_
  intro lower member differentiates
  have active : lower ∈ below := by
    rcases List.mem_cons.mp (owned lower member) with rfl | active
    · rw [kind] at differentiates
      cases differentiates
    · exact active
  have found
      : reached.producer? op.name inner lower = machine.producer? op.name arguments lower :=
    Machine.producer?_hide within hidden start tensors active
  exact found

/-- What a rule gets from below, marked as batched, remembers what it did. -/
theorem records_wrapResults (values : held.values = outer ++ [.tensor result])
    (remembers : machine.Remembers op (layer :: below) arguments result held.heap)
    (kind : layer.kind = .batching)
    : (Batching.wrapResults 1 layer.level).Leaves held
        (fun _ values memory =>
          ∃ result,
            values = outer ++ [.tensor result]
            ∧ machine.Remembers op (layer :: below) arguments result memory.heap)
        (fun _ _ => True) :=
  (quiet_writing.wrapResults 1 layer.level).leaves (wrapResults_apply values layer.level)
    ⟨_, rfl, remembers.marked kind⟩

/-- The rule for element-wise operators keeps the contract. Padding has issued other calls before,
but the tags of their results are on the operands, not on the result.
-/
theorem records_pointwise (holds : Contract.records.Holds budget) (poses : machine.Poses op)
    (within : machine.InBody layer below) (kind : layer.kind = .batching)
    (named : op.name ∈ ["add", "mul", "neg"])
    : Contract.records (budget + 1) (layer :: below) op machine
        (Batching.pointwise.run (nested budget) op) := by
  intro pure registered
  have levelled := within.grounded.levelled
  have drawless : op.name ≠ "rand" := by
    intro same
    simp [same] at named
  have size := Machine.lastValues_length poses.enough
  refine quiet_writing.currentLayer.leaves_step (currentLayer_apply within.top) ?_
  refine (still_pop _).leaves_bind (fun _ => trivial) ?_
  intro arguments popped ended _ _
  obtain ⟨rfl, -, rfl⟩ := pop_ok ended
  generalize machine.lastValues op.arity = arguments at size ⊢
  refine (quiet_read _).leaves_step rfl ?_
  refine .holding (moves_hide _ _) ?_
  intro held atHeld
  have calling := within.hideBatched kind poses.member drawless atHeld.ambient
  have registered' : held.Registered := registered.popped.shifted atHeld fun _ active => active
  refine (lowers_arguments (Contract.wraps_kept.holds budget) calling.owning registered' _).bind ?_
  intro padded reached _ resumes left
  rcases left with ⟨values, lowers⟩
  have tensors := (Machine.Lowers.related lowers kind levelled).tensors_ne_nil
  refine (quiet_writing.pushAll _).leaves_step rfl ?_
  refine (holds.records_pushed within calling atHeld.ambient resumes pure
    (registered'.resumes resumes) (values.trans atHeld.values) (lowers.length_eq.symm.trans size)
    (fun _ => List.mem_cons_of_mem _) kind tensors).bind ?_
  intro _ returned _ _ given
  rcases given with ⟨result, values, remembers⟩
  split
  · rw [Schema.resultCount_eq_one poses.member]
    exact records_wrapResults values (remembers.batching kind) kind
  · exact leaves_pure ⟨result, values, remembers.batching kind⟩

/-- The rule that inserts a dimension keeps the contract. It issues one call, on the physical value
of a batch or on the tensor itself.
-/
theorem records_unsqueeze (holds : Contract.records.Holds budget)
    (poses : machine.Poses Base.schemas[5]) (within : machine.InBody layer below)
    (kind : layer.kind = .batching)
    : Contract.records (budget + 1) (layer :: below) Base.schemas[5] machine
        (Batching.unsqueeze.run (nested budget) Base.schemas[5]) := by
  intro pure registered
  have size : (machine.lastValues 2).length = 2 := Machine.lastValues_length poses.enough
  refine quiet_writing.currentLayer.leaves_step (currentLayer_apply within.top) ?_
  refine (still_pop _).leaves_bind (fun _ => trivial) ?_
  intro arguments popped ended _ _
  obtain ⟨rfl, -, rfl⟩ := pop_ok ended
  refine (idle_lift (Value.plain_tensorAt _ _ _).orderly).leaves_bind (fun _ => trivial) ?_
  intro input inputAt
  refine (idle_lift (Value.plain_intAt _ _ _).orderly).leaves_bind (fun _ => trivial) ?_
  intro dim dimAt
  have pair := Value.eq_pair size (Value.tensorAt_ok (lift_ok inputAt).1)
    (Value.intAt_ok (lift_ok dimAt).1)
  rw [show Base.schemas[5].arity = 2 from rfl, pair]
  refine .holding (moves_hide _ _) ?_
  intro held atHeld
  have calling := within.hideBatched kind poses.member (by decide) atHeld.ambient
  have registered' : held.Registered := registered.popped.shifted atHeld fun _ active => active
  have called (physical : Tensor) (place : Int)
      : ((nested budget).dispatch Base.schemas[5]).Leaves
          { held with values := held.values ++ [.tensor physical, .int place] }
          (fun _ values memory =>
            ∃ result,
              values = machine.firstValues 2 ++ [.tensor result]
              ∧ machine.Remembers Base.schemas[5] below [.tensor input, .int dim] result memory.heap)
          (fun _ _ => True) := by
    refine holds.records_pushed within calling atHeld.ambient (.refl held) pure registered'
      atHeld.values rfl (fun _ => List.mem_cons_of_mem _) kind ?_
    simp [Value.tensorsAll, Value.tensors]
  cases input.physicalAt? layer.level with
  | some physical =>
      refine (quiet_read _).leaves_step rfl ?_
      dsimp only
      split
      · refine (quiet_writing.pushAll _).leaves_step rfl ?_
        refine (called physical (dim + 1)).bind ?_
        intro _ returned _ _ given
        rcases given with ⟨result, values, remembers⟩
        exact records_wrapResults values (remembers.batching kind) kind
      · exact leaves_fail trivial
  | none =>
      refine (quiet_writing.pushAll _).leaves_step rfl ?_
      apply (called input dim).mono ?_ fun _ _ => id
      intro _ _ _ given
      rcases given with ⟨result, left, remembers⟩
      exact ⟨result, left, remembers.batching kind⟩

/-- The rule for random operators keeps the contract. It issues the call again, with larger sizes
where each entry draws for itself; there is no tensor among the arguments in both.
-/
theorem records_random (holds : Contract.records.Holds budget)
    (poses : machine.Poses (Base.factorySchema "rand")) (within : machine.InBody layer below)
    (kind : layer.kind = .batching)
    (shown : machine.thread.overlay.excluded.contains .batched = false)
    : Contract.records (budget + 1) (layer :: below) (Base.factorySchema "rand") machine
        (Batching.random.run (nested budget) (Base.factorySchema "rand")) := by
  intro pure registered
  have size : (machine.lastValues 1).length = 1 := Machine.lastValues_length poses.enough
  refine quiet_writing.currentLayer.leaves_step (currentLayer_apply within.top) ?_
  refine .holding (moves_hide _ machine) ?_
  intro held atHeld
  have calling := within.hideBatchMode kind shown poses.member atHeld.ambient
  have registered' : held.Registered := registered.shifted atHeld fun _ active => active
  have called {inner arguments : List Value} (count : inner.length = 1)
      (tensors : Value.tensorsAll inner ≠ [] ↔ Value.tensorsAll arguments ≠ [])
      : ((nested budget).dispatch (Base.factorySchema "rand")).Leaves
          { held with values := held.firstValues 1 ++ inner }
          (fun _ values memory =>
            ∃ result,
              values = held.firstValues 1 ++ [.tensor result]
              ∧ machine.Remembers (Base.factorySchema "rand") (layer :: below) arguments result
                  memory.heap)
          (fun _ _ => True) := by
    let popped : Machine := { held with values := held.firstValues 1 }
    have calling : popped.Calling _ (layer :: below) := ⟨calling.member, calling.owning, calling.drawn⟩
    exact holds.records_pushed within calling atHeld.ambient (.refl popped) pure registered'.popped
      rfl count (fun _ => id) kind tensors
  have values : held.firstValues 1 = machine.firstValues 1 := by
    rw [Machine.firstValues, atHeld.values, Machine.firstValues]
  have last : held.lastValues 1 = machine.lastValues 1 := by
    rw [Machine.lastValues, atHeld.values, Machine.lastValues]
  split
  · exact leaves_fault trivial trivial
  · exact leaves_fail trivial
  · have dispatched := @called (held.lastValues 1) (machine.lastValues 1) (last ▸ size) (last ▸ Iff.rfl)
    rw [← held.values_eq, values] at dispatched
    exact dispatched
  · rename_i batch policy
    refine (still_pop _).leaves_bind (fun _ => trivial) ?_
    intro given popped ended _ _
    obtain ⟨rfl, -, rfl⟩ := pop_ok ended
    refine (idle_lift (Value.plain_sizesAt _ _ _).orderly).leaves_bind (fun _ => trivial) ?_
    intro sizes sizesAt
    obtain ⟨listed, first⟩ := Value.sizesAt_ok (lift_ok sizesAt).1
    have first : (machine.lastValues 1)[0]? = some (.ints listed) := last ▸ first
    have only : machine.lastValues 1 = [.ints listed] := Value.eq_single size first
    rw [show (Base.factorySchema "rand").arity = 1 from rfl, only, ← values]
    refine (quiet_writing.push _).leaves_step rfl ?_
    refine (@called [.ints ((batch :: sizes).map Size.toSigned)] [.ints listed] rfl (by rfl)).bind ?_
    intro _ returned _ _ given
    rcases given with ⟨result, values, remembers⟩
    exact records_wrapResults values remembers kind

/-- Every kernel keeps the records of a result, if the calls that it issues do, with one case for
each kernel. In-place addition is excluded, as it writes to an argument.
-/
theorem Contract.records_kept : Contract.records.Kept where
  congr same records pure registered := .congr same (records pure registered)
  unhandled ended unhandled _ _ := leaves_ended ended unhandled.orderly trivial
  traced records pure registered := by
    refine .traced ((records pure registered).mono ?_ fun _ _ => id)
    intro _ _ _ given
    rcases given with ⟨result, left, remembers⟩
    exact ⟨result, left, remembers.of_inner fun _ _ _ => rfl⟩
  base poses _ found _ := records_base poses found
  outside := records_outside
  enter := records_enter
  differentiate := records_differentiate
  leaveDifferentiation := records_leaveDifferentiation
  leaveBatching holds poses within kind _ owned :=
    records_leaveBatching holds poses within kind (owned.imp id And.left)
  pointwise holds poses within kind _ _ named := records_pointwise holds poses within kind named
  unsqueeze holds poses within kind _ _ same := by
    subst same
    exact records_unsqueeze holds poses within kind
  addInPlace _ _ _ _ _ _ same pure := by
    subst same
    cases pure
  missingRule _ _ := (still_log _).leaves_bind (fun _ => trivial) fun _ _ _ _ _ => leaves_fail trivial
  random holds poses within kind _ shown same := by
    subst same
    exact records_random holds poses within kind shown

-----------------------------------------------------------------------------------------
-- Calls under a built stack
-----------------------------------------------------------------------------------------

/-- The operator that a differentiation layer records for the result of a call: the one that is called,
if there is a tensor among the arguments, history is recorded at the call, and no layer above switches
that off for those below it.
-/
def Layer.recorded? (layer : Layer) (machine : Machine) (name : String) (arguments : List Value)
    : Option String :=
  if Value.tensorsAll arguments ≠ []
      ∧ machine.thread.grad = true
      ∧ ∀ above ∈ machine.thread.layers,
          layer.level < above.level → above.transform.priorGrad? ≠ some false then
    some name
  else none

/-- Before a call under a built stack all layers are ahead, so that a layer records the call if
there is a tensor among the arguments and it lets history be recorded.
-/
theorem Machine.Founded.producer?_eq (founded : machine.Founded)
    (active : layer ∈ machine.thread.layers)
    : Machine.producer? { machine with values := arguments } name arguments layer
      = layer.recorded? machine name arguments := by
  let posed : Machine := { machine with values := arguments }
  have ahead : layer ∈ posed.ambient.ahead := by
    rw [show posed.ambient.ahead = machine.thread.layers from founded.ahead]
    exact active
  refine ite_congr (propext ?_) (fun _ => rfl) fun _ => rfl
  rw [Machine.reaches_ahead ahead, and_comm]
  exact Iff.rfl

/-- History is recorded at exactly the right levels. Under a built stack, a call of an operator that
writes to no argument gives one tensor, and the tags around it are those of the differentiation layers.
The tag of a layer remembers the operator exactly if some argument is a tensor, history is recorded at
the call, and no differentiation layer above it was opened where history was not recorded. What else
the layers are, how the forward mode is, and what has been padded below a batching layer do not count.
-/
theorem Dispatcher.call_recorded (built : machine.Built) (outOfPlace : name ∉ ["add_", "resize_"])
    (ended : standard.call name arguments machine = .ok results reached)
    : ∃ result,
        results = [.tensor result]
        ∧ result.history reached.heap
          = (machine.thread.layers.filter (·.kind = .differentiation)).map fun layer =>
              (layer.level, layer.recorded? machine name arguments) := by
  have founded := built.founded
  have called
      : (standard.call name arguments).Leaves machine
          (fun results _ memory =>
            ∃ result,
              results = [.tensor result]
              ∧ result.history memory.heap
                = (machine.thread.layers.filter (·.kind = .differentiation)).map fun layer =>
                    (layer.level, layer.recorded? machine name arguments))
          (fun _ _ => True) := by
    refine leaves_standard built (fun _ _ => trivial) ?_
    intro op named count calling
    subst named
    have pure : op.isInPlace = false := by
      by_contra inPlace
      rcases Schema.inPlace_cases calling.member (by simpa using inPlace) with rfl | rfl <;>
        simp [Base.schemas] at outOfPlace
    let posed : Machine := { machine with values := arguments }
    have registered : posed.Registered := founded.registered
    have records : Contract.records.Holds (standard.budget machine.thread.layers.length) :=
      Contract.records_kept.holds _
    apply (@Contract.Holds.records posed posed op _ arguments arguments [] _ records calling pure
      registered rfl count fun _ _ _ => rfl).mono ?_ fun _ _ => id
    intro _ values memory left
    rcases left with ⟨result, rfl, remembers⟩
    refine ⟨result, rfl, remembers.history.trans (List.map_congr_left fun layer member => ?_)⟩
    exact congrArg _ (founded.producer?_eq (List.mem_of_mem_filter member))
  exact (Ends.of_ok called ended).2

/-- Witness: a batch plus a plain value, below one layer that was opened where history was not recorded
and above two others.
-/
theorem Dispatcher.call_recorded_four_layers
    : ∃ (machine reached : Machine) (result : Tensor),
        machine.Built
        ∧ standard.call "add" [.tensor (.batched 0 3 (.dense 0)), .tensor (.dense 1)] machine
          = .ok [.tensor result] reached
        ∧ result.history reached.heap = [(4, some "add"), (2, none), (1, none)] := by
  let fresh : Machine :=
    { heap := { storages := #[⟨⟨[2, 3]⟩, #[1, 2, 3, 4, 5, 6]⟩, ⟨⟨[3]⟩, #[10, 20, 30]⟩] } }
  have opened := Machine.Built.opened
    (.opened
      (.opened
        (.opened (@Machine.Built.fresh fresh rfl rfl)
          (rfl : openLayer (.differentiation (some false) none) fresh = .ok 1 _))
        (rfl : openLayer (.differentiation (some true) none) _ = .ok 2 _))
      (rfl : openLayer (.batching 2 .error) _ = .ok 3 _))
    (rfl : openLayer (.differentiation (some false) (some false)) _ = .ok 4 _)
  obtain ⟨machine, built, succeeds, recorded⟩
      : ∃ machine : Machine,
          machine.Built
          ∧ (standard.call "add" [.tensor (.batched 0 3 (.dense 0)), .tensor (.dense 1)]).succeeds
              machine = true
          ∧ ((machine.thread.layers.filter (·.kind = .differentiation)).map fun layer =>
                (layer.level,
                  layer.recorded? machine "add"
                    [.tensor (.batched 0 3 (.dense 0)), .tensor (.dense 1)]))
            = [(4, some "add"), (2, none), (1, none)] :=
    ⟨_, opened, by decide +kernel, by decide +kernel⟩
  obtain ⟨results, reached, ended⟩ := succeeds_iff.mp succeeds
  obtain ⟨result, rfl, history⟩ := call_recorded built (by decide) ended
  exact ⟨machine, reached, result, built, ended, history.trans recorded⟩

end

end LayeredDispatch
