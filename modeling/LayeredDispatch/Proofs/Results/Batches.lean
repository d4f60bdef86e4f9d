import LayeredDispatch.Proofs.Results.Wrapping

/-! The wrappers around the results of batching rules. A rule marks what it gets from below as batched
if it has taken the batch dimension off some argument; in-place addition gives back its target, which
has the wrappers of the layers below already. Main statement: all calls give results that are wrapped
as the layers say.
-/

namespace LayeredDispatch

open Run Dispatcher

/-- An argument and what a rule hands on in its place: the physical value of what is batched at the
level of the layer, or a tensor that is batched below as that is.
-/
inductive Machine.Lowers (machine : Machine) (layer : Layer) (below : List Layer)
    : Value → Value → Prop where
  | same (argument : Value) : Lowers machine layer below argument argument
  | batch {physical result : Tensor} (handle : Nat) (passes : machine.Passes below physical result)
    : Lowers machine layer below (.tensor (.batched handle layer.level physical)) (.tensor result)

section

variable {machine held : Machine} {op : Schema} {owners below : List Layer} {layer : Layer}
  {arguments inner outer : List Value} {tensor result physical : Tensor} {budget : Nat}
  {heap : Heap}

-----------------------------------------------------------------------------------------
-- Arguments without the batch dimension of a layer
-----------------------------------------------------------------------------------------

/-- A batch at the level of a batching layer has the wrapper of that layer in front of those of its
physical value, whatever its handle is.
-/
theorem Layer.wraps_batched (kind : layer.kind = .batching) (handle : Nat)
    : (Tensor.batched handle layer.level tensor).liveWrappers heap
      = layer.wraps :: tensor.liveWrappers heap := by
  rw [Layer.wraps, kind]
  rfl

/-- The layers below do not see the batch dimension: they have other levels, so that the wrapper of
the layer is none of theirs.
-/
theorem Machine.Passes.batched (h : machine.Passes below physical result) (handle : Nat)
    (kind : layer.kind = .batching) (levelled : Layer.Levelled (layer :: below))
    : machine.Passes below (.batched handle layer.level physical) result := by
  refine ⟨fun lower member batching => ?_, h.current⟩
  rw [Layer.wraps_batched kind, List.mem_cons, or_iff_right (levelled.wraps_ne member)]
  exact h.batches lower member batching

/-- What a rule hands on is batched below as the arguments are. Each argument is either left as it
is or loses a batch that the layers below do not see.
-/
theorem Machine.Lowers.related (h : List.Forall₂ (machine.Lowers layer below) arguments inner)
    (kind : layer.kind = .batching) (levelled : Layer.Levelled (layer :: below))
    : Value.RelatedAll (machine.Passes below) arguments inner := by
  induction h with
  | nil => exact .nil
  | @cons argument _ _ _ head tail ih =>
      refine .cons ?_ ih
      cases head with
      | same => exact Value.Related.refl argument fun tensor _ => .refl machine below tensor
      | batch handle passes => exact .tensor (passes.batched handle kind levelled)

/-- A layer wraps one of several arguments if it wraps a tensor in the first one or wraps one of the
others.
-/
theorem Layer.around_cons {value : Value} {values : List Value}
    : layer.Around heap (value :: values)
      ↔ (∃ tensor ∈ value.tensors, layer.wraps ∈ tensor.liveWrappers heap)
        ∨ layer.Around heap values := by
  simp only [Layer.Around, Value.tensorsAll, List.mem_append, or_and_right, exists_or]

/-- Some argument is batched by the layer exactly if the rule finds one, as the layers below own what
the rule hands on.
-/
theorem Machine.Lowers.around (h : List.Forall₂ (machine.Lowers layer below) arguments inner)
    (kind : layer.kind = .batching) (levelled : Layer.Levelled (layer :: below))
    (owned : Layer.Own below heap inner)
    : layer.Around heap arguments
      ↔ (arguments.any fun argument =>
          (Batching.physicalArgument? layer.level argument).isSome) = true := by
  induction h with
  | nil =>
      refine iff_of_false ?_ (by simp)
      exact fun around => absurd around (Layer.own_nil.not_around levelled)
  | @cons argument _ _ _ head tail ih =>
      obtain ⟨first, others⟩ := Layer.own_cons.mp owned
      rw [Layer.around_cons, List.any_cons, Bool.or_eq_true, ih others]
      refine or_congr_left ?_
      cases head with
      | batch handle passes =>
          refine iff_of_true ⟨_, List.mem_singleton_self _, ?_⟩ ?_
          · rw [Layer.wraps_batched kind]
            exact List.mem_cons_self
          · simp [Batching.physicalArgument?, Value.tensor?, Tensor.physicalAt?]
      | same =>
          have bare : ¬layer.Around heap [argument] := first.not_around levelled
          refine iff_of_false (fun around => bare (Layer.around_cons.mpr (.inl around))) ?_
          intro found
          obtain ⟨physical, found⟩ := Option.isSome_iff_exists.mp found
          obtain ⟨handle, rfl⟩ := physicalArgument?_eq_some found
          refine bare ⟨_, List.mem_singleton_self _, ?_⟩
          rw [Layer.wraps_batched kind]
          exact List.mem_cons_self

-----------------------------------------------------------------------------------------
-- Padding
-----------------------------------------------------------------------------------------

/-- A value with a dimension inserted is wrapped as the layers say. The call for it is one of the
nested calls, started with the value and the place for the dimension, and is no random operator.
-/
theorem wraps_insertion (holds : Contract.wraps.Holds budget)
    (owning : machine.ambient.Owners owners) (registered : machine.Registered)
    : ((nested budget).callTensor "unsqueeze" [.tensor physical, .int 1]).Leaves machine
        (fun result values _ =>
          values = machine.values
          ∧ ∃ op : Schema,
              op.name = "unsqueeze"
              ∧ machine.Wraps op owners [.tensor physical, .int 1] result)
        (fun _ _ => True) := by
  refine .callTensor (.call (fun _ _ => trivial) fun op found count => ?_)
  have found : standard.schema? "unsqueeze" = some op := found
  obtain ⟨member, named⟩ := schema?_standard found
  have drawless : op.name ≠ "rand" := by
    rw [named]
    decide
  have called
      : (standard.dispatchWithin budget op).Leaves
          { machine with values := [.tensor physical, .int 1] }
          (fun _ values _ =>
            ∃ result,
              values = [] ++ [.tensor result]
              ∧ Machine.Wraps { machine with values := [.tensor physical, .int 1] } op owners
                  [.tensor physical, .int 1] result
              ∧ Layer.Own owners machine.heap [.tensor physical, .int 1])
          (fun _ _ => True) :=
    holds.wraps (.of_name member owning drawless) registered rfl count
  apply called.mono ?_ fun _ _ => id
  intro _ _ _ given
  rcases given with ⟨result, left, wraps, -⟩
  exact ⟨result, [], left, rfl, op, named, wraps.typed, wraps.wrappers, wraps.current,
    wraps.target⟩

/-- Of the layers below exactly the differentiation layers, and those that wrap the value, wrap the value
with a dimension inserted.
-/
theorem Machine.Wraps.mem_insertion {place : Int} (named : op.name = "unsqueeze")
    (wraps : machine.Wraps op owners [.tensor physical, .int place] result)
    (levelled : Layer.Levelled owners) (active : layer ∈ owners)
    : layer.wraps ∈ result.liveWrappers machine.heap
      ↔ layer.kind = .differentiation ∨ layer.wraps ∈ physical.liveWrappers machine.heap := by
  rw [wraps.wrappers, levelled.mem_map_filter active, Ambient.Marks, named]
  refine or_congr_right ((or_iff_left (fun drawn => absurd drawn.1 (by decide))).trans ?_)
  simp only [Layer.Around, Value.tensorsAll, Value.tensors, List.append_nil, List.mem_singleton,
    exists_eq_left]

/-- A value with a dimension inserted is batched by the layers by which the value is. A new
dimension adds the wrappers of differentiation layers only, of which nothing is said here.
-/
theorem passes_insertion (holds : Contract.wraps.Holds budget)
    (owning : machine.ambient.Owners owners) (registered : machine.Registered)
    : ((nested budget).callTensor "unsqueeze" [.tensor physical, .int 1]).Leaves machine
        (fun result values _ =>
          values = machine.values ∧ machine.Passes owners physical result)
        (fun _ _ => True) := by
  apply (wraps_insertion holds owning registered).mono ?_ fun _ _ => id
  intro result values _ left
  rcases left with ⟨same, op, named, wraps⟩
  refine ⟨same, fun layer active kind => ?_, fun current => ?_⟩
  · refine (wraps.mem_insertion named owning.levelled active).trans (or_iff_right ?_)
    rw [kind]
    exact nofun
  · exact wraps.current (List.forall_mem_singleton.mpr current)

/-- Padding keeps the batches of the layers below, by induction on the rounds that are left: each
round inserts one dimension, and being batched alike carries over from one round to the next.
-/
theorem passes_pad (holds : Contract.wraps.Holds budget) (owning : machine.ambient.Owners owners)
    (registered : machine.Registered) (rank count : Nat)
    : (Batching.pad (nested budget) rank count physical).Leaves machine
        (fun result values _ =>
          values = machine.values ∧ machine.Passes owners physical result)
        (fun _ _ => True) := by
  induction count generalizing machine physical with
  | zero =>
      unfold Batching.pad
      refine (quiet_read _).leaves_step rfl ?_
      split
      · exact leaves_fault trivial trivial
      · exact leaves_pure ⟨rfl, .refl machine owners physical⟩
  | succ count ih =>
      unfold Batching.pad
      refine (quiet_read _).leaves_step rfl ?_
      split
      · refine (passes_insertion holds owning registered).bind ?_
        intro padded reached _ resumes left
        rcases left with ⟨values, passes⟩
        apply (ih (owning.resumes resumes) (registered.resumes resumes)).mono ?_ fun _ _ => id
        intro result _ _ left
        exact ⟨left.1.trans values, passes.trans (left.2.congr resumes.flags resumes.registry)⟩
      · exact leaves_pure ⟨rfl, .refl machine owners physical⟩

/-- Arguments lose the batch dimension of the layer one after another. What has been done with the
first ones still holds after the others have been padded, because only levels and flags matter to
it.
-/
theorem lowers_arguments (holds : Contract.wraps.Holds budget)
    (owning : machine.ambient.Owners below) (registered : machine.Registered) (rank : Nat)
    : Run.Leaves
        (arguments.mapM fun argument => do
          match Batching.physicalArgument? layer.level argument with
          | none => return argument
          | some physical =>
              return .tensor (← Batching.padToRank (nested budget) physical rank))
        machine
        (fun padded values _ =>
          values = machine.values ∧ List.Forall₂ (machine.Lowers layer below) arguments padded)
        (fun _ _ => True) := by
  have persists : Memory.Persists (fun _ _ => True) fun _ => machine.Lowers layer below :=
    ⟨fun _ => trivial, fun _ _ => trivial, fun lowers _ => lowers⟩
  refine (Leaves.mapM persists ?_).mono (fun _ _ _ left => ⟨left.1, left.2.2⟩) fun _ _ => id
  intro argument _ start resumes _ _
  split
  · exact leaves_pure ⟨rfl, trivial, .same argument⟩
  · rename_i physical found
    obtain ⟨handle, rfl⟩ := physicalArgument?_eq_some found
    refine (passes_pad holds (owning.resumes resumes) (registered.resumes resumes) _ _).bind ?_
    intro padded _ _ _ left
    have passes := left.2.congr resumes.flags resumes.registry
    exact leaves_pure ⟨left.1, trivial, .batch handle passes⟩

-----------------------------------------------------------------------------------------
-- Rules
-----------------------------------------------------------------------------------------

/-- The boxed values are of no account to the registered levels, so that a rule may take its
arguments off the stack.
-/
theorem Machine.Registered.popped {values : List Value} (h : machine.Registered)
    : Machine.Registered { machine with values } :=
  h

/-- A batching layer does not mark a call that draws nothing if no argument is wrapped by it. -/
theorem Layer.not_marks (ambient : Ambient) {name : String} (kind : layer.kind = .batching)
    (drawless : name ≠ "rand") (bare : ¬layer.Around heap arguments)
    : ¬ambient.Marks heap name arguments layer := by
  intro marks
  rcases marks with differentiates | around | drawn
  · rw [kind] at differentiates
    cases differentiates
  · exact bare around
  · exact drawless drawn.1

/-- A call that a rule issues in the body of its layer, after batches have been taken care of. The
state in which it is issued differs in boxed values only, and the values that it is given tell of
the wrappers that the layers below own as much as the arguments do.
-/
theorem Contract.Holds.wraps_pushed (holds : Contract.wraps.Holds budget)
    (calling : held.Calling op below) (drawless : op.name ≠ "rand") (registered : held.Registered)
    (flags : held.heap.flags = machine.heap.flags) (registry : held.registry = machine.registry)
    (values : held.values = outer) (size : inner.length = op.arity)
    (hands : machine.Hands op below arguments inner)
    : ((nested budget).dispatch op).Leaves { held with values := held.values ++ inner }
        (fun _ values _ =>
          ∃ result,
            values = outer ++ [.tensor result]
            ∧ machine.Wraps op below arguments result
            ∧ Layer.Own below machine.heap inner)
        (fun _ _ => True) := by
  let pushed : Machine := { held with values := held.values ++ inner }
  have calling : pushed.Calling op below := ⟨calling.member, calling.owning, calling.drawn⟩
  have registered : pushed.Registered := registered
  apply (holds.wraps calling registered (congrArg (· ++ inner) values) size).mono ?_ fun _ _ => id
  intro _ _ _ given
  rcases given with ⟨result, left, wraps, owned⟩
  refine ⟨result, left, wraps.of_inner flags registry ?_ hands, owned.congr flags.symm⟩
  exact fun named => absurd named drawless

/-- The result of a rule is marked as batched. The rule does this only where the layer marks the
call, so that the new wrapper is the one that is missing.
-/
theorem wraps_wrapResults (values : held.values = outer ++ [.tensor result])
    (wraps : machine.Wraps op below arguments result) (kind : layer.kind = .batching)
    (marks : machine.ambient.Marks machine.heap op.name arguments layer)
    (levelled : Layer.Levelled (layer :: below)) (pure : op.isInPlace = false)
    : (Batching.wrapResults 1 layer.level).Leaves held
        (fun _ values _ =>
          ∃ result,
            values = outer ++ [.tensor result]
            ∧ machine.Wraps op (layer :: below) arguments result)
        (fun _ _ => True) := by
  refine (quiet_writing.wrapResults 1 layer.level).leaves (wrapResults_apply values layer.level) ?_
  refine ⟨_, rfl, wraps.marked marks (Layer.wraps_batched kind _) id levelled fun written => ?_⟩
  rw [pure] at written
  cases written

/-- The rule for element-wise operators keeps the contract. It pads its arguments below the layer
and issues the call there. The result is wrapped if one of the arguments was a batch of the layer,
which is exactly when the layer marks the call.
-/
theorem wraps_pointwise (holds : Contract.wraps.Holds budget) (poses : machine.Poses op)
    (within : machine.InBody layer below) (kind : layer.kind = .batching)
    (named : op.name ∈ ["add", "mul", "neg"])
    : Contract.wraps (budget + 1) (layer :: below) op machine
        (Batching.pointwise.run (nested budget) op) := by
  intro registered
  have levelled := within.grounded.levelled
  have drawless : op.name ≠ "rand" := by
    intro same
    rw [same] at named
    revert named
    decide
  have size := Machine.lastValues_length poses.enough
  refine quiet_writing.currentLayer.leaves_step (currentLayer_apply within.top) ?_
  refine (still_pop _).leaves_bind (fun _ => trivial) ?_
  intro arguments popped ended _ _
  obtain ⟨rfl, -, rfl⟩ := pop_ok ended
  generalize machine.lastValues op.arity = arguments at size ⊢
  refine (quiet_read _).leaves_step rfl ?_
  refine .holding (moves_hide _ _) ?_
  intro held atHeld
  have calling := within.hideBatched kind poses.member drawless atHeld.ambient
  have registered' : held.Registered := registered.popped.shifted atHeld fun _ active => active
  have flags : held.heap.flags = machine.heap.flags := congrArg Heap.flags atHeld.heap
  refine (lowers_arguments holds calling.owning registered' _).bind ?_
  intro padded reached _ resumes left
  rcases left with ⟨values, lowers⟩
  have lowers : List.Forall₂ (machine.Lowers layer below) arguments padded := by
    refine lowers.imp fun argument result lowered => ?_
    cases lowered with
    | same => exact .same _
    | batch handle passes => exact .batch handle (passes.congr flags atHeld.registry)
  refine (quiet_writing.pushAll _).leaves_step rfl ?_
  have called
      : ((nested budget).dispatch op).Leaves { reached with values := reached.values ++ padded }
          (fun _ values _ =>
            ∃ result,
              values = machine.firstValues op.arity ++ [.tensor result]
              ∧ machine.Wraps op below arguments result
              ∧ Layer.Own below machine.heap padded)
          (fun _ _ => True) :=
    holds.wraps_pushed (calling.resumes resumes) drawless (registered'.resumes resumes)
      (resumes.flags.trans flags) (resumes.registry.trans atHeld.registry)
      (values.trans atHeld.values) (lowers.length_eq.symm.trans size)
      (.of_related (Machine.Lowers.related lowers kind levelled))
  refine called.bind ?_
  intro _ returned _ _ given
  rcases given with ⟨result, values, wraps, owned⟩
  have around := Machine.Lowers.around lowers kind levelled owned
  split
  · rename_i found
    rw [Schema.resultCount_eq_one poses.member]
    exact wraps_wrapResults values wraps kind (.inr (.inl (around.mpr found))) levelled
      (Schema.pure_of_pointwise poses.member named)
  · rename_i missing
    have bare := Layer.not_marks machine.ambient kind drawless (mt around.mp missing)
    exact leaves_pure ⟨result, values, wraps.unmarked bare levelled⟩

/-- The rule that inserts a dimension keeps the contract. A batch of the layer is passed on as its
physical value, with the place for the new dimension moved by one, and its result is wrapped again.
Other tensors are passed on as they are, and the layer does not mark them.
-/
theorem wraps_unsqueeze (holds : Contract.wraps.Holds budget)
    (poses : machine.Poses Base.schemas[5]) (within : machine.InBody layer below)
    (kind : layer.kind = .batching)
    : Contract.wraps (budget + 1) (layer :: below) Base.schemas[5] machine
        (Batching.unsqueeze.run (nested budget) Base.schemas[5]) := by
  intro registered
  have levelled := within.grounded.levelled
  have size : (machine.lastValues 2).length = 2 := Machine.lastValues_length poses.enough
  refine quiet_writing.currentLayer.leaves_step (currentLayer_apply within.top) ?_
  refine (still_pop _).leaves_bind (fun _ => trivial) ?_
  intro arguments popped ended _ _
  obtain ⟨rfl, -, rfl⟩ := pop_ok ended
  refine (idle_lift (Value.plain_tensorAt _ _ _).orderly).leaves_bind (fun _ => trivial) ?_
  intro input inputAt
  refine (idle_lift (Value.plain_intAt _ _ _).orderly).leaves_bind (fun _ => trivial) ?_
  intro dim dimAt
  have pair := Value.eq_pair size (Value.tensorAt_ok (lift_ok inputAt).1)
    (Value.intAt_ok (lift_ok dimAt).1)
  rw [show Base.schemas[5].arity = 2 from rfl, pair]
  refine .holding (moves_hide _ _) ?_
  intro held atHeld
  have calling := within.hideBatched kind poses.member (by decide) atHeld.ambient
  have registered' : held.Registered := registered.popped.shifted atHeld fun _ active => active
  have flags : held.heap.flags = machine.heap.flags := congrArg Heap.flags atHeld.heap
  have drawless : Base.schemas[5].name ≠ "rand" := by decide
  cases found : input.physicalAt? layer.level with
  | some physical =>
      obtain ⟨handle, rfl⟩ := Tensor.physicalAt?_eq_some found
      refine (quiet_read _).leaves_step rfl ?_
      dsimp only
      split
      · refine (quiet_writing.pushAll _).leaves_step rfl ?_
        have hands
            : machine.Hands Base.schemas[5] below
                [.tensor (.batched handle layer.level physical), .int dim]
                [.tensor physical, .int (dim + 1)] := by
          have passes := (Machine.Passes.refl machine below physical).batched handle kind levelled
          refine ⟨fun _ _ => ⟨.unsqueeze _ dim, rfl, rfl⟩, fun lower active batching => ?_, ?_, nofun⟩
          · have alone (tensor : Tensor) (other : Int)
                : lower.Around machine.heap [.tensor tensor, .int other]
                  ↔ lower.wraps ∈ tensor.liveWrappers machine.heap := by
              simp [Layer.Around, Value.tensorsAll, Value.tensors]
            rw [alone, alone]
            exact passes.batches lower active batching
          · exact fun known => List.forall_mem_singleton.mpr
              (known (.batched handle layer.level physical) (List.mem_singleton_self _))
        have called
            : ((nested budget).dispatch Base.schemas[5]).Leaves
                { held with values := held.values ++ [.tensor physical, .int (dim + 1)] }
                (fun _ values _ =>
                  ∃ result,
                    values = machine.firstValues 2 ++ [.tensor result]
                    ∧ machine.Wraps Base.schemas[5] below
                        [.tensor (.batched handle layer.level physical), .int dim] result
                    ∧ Layer.Own below machine.heap [.tensor physical, .int (dim + 1)])
                (fun _ _ => True) :=
          holds.wraps_pushed calling drawless registered' flags atHeld.registry atHeld.values rfl
            hands
        refine called.bind ?_
        intro _ returned _ _ given
        rcases given with ⟨result, values, wraps, -⟩
        refine wraps_wrapResults values wraps kind (.inr (.inl ?_)) levelled rfl
        refine Layer.around_cons.mpr (.inl ⟨_, List.mem_singleton_self _, ?_⟩)
        rw [Layer.wraps_batched kind]
        exact List.mem_cons_self
      · exact leaves_fail trivial
  | none =>
      refine (quiet_writing.pushAll _).leaves_step rfl ?_
      have called
          : ((nested budget).dispatch Base.schemas[5]).Leaves
              { held with values := held.values ++ [.tensor input, .int dim] }
              (fun _ values _ =>
                ∃ result,
                  values = machine.firstValues 2 ++ [.tensor result]
                  ∧ machine.Wraps Base.schemas[5] below [.tensor input, .int dim] result
                  ∧ Layer.Own below machine.heap [.tensor input, .int dim])
              (fun _ _ => True) :=
        holds.wraps_pushed calling drawless registered' flags atHeld.registry atHeld.values rfl
          (.refl machine _ below _)
      apply called.mono ?_ fun _ _ => id
      intro _ _ _ given
      rcases given with ⟨result, left, wraps, owned⟩
      have bare := Layer.not_marks machine.ambient kind drawless (owned.not_around levelled)
      exact ⟨result, left, wraps.unmarked bare levelled⟩

/-- Two lists of wrappers of some layers, of which each layer has one, are the same if they have the
same members. -/
theorem Layer.Levelled.wrappers_eq {first second : List (TransformKind × Level)}
    (levelled : Layer.Levelled owners) (inside : first.Sublist (owners.map Layer.wraps))
    (inside' : second.Sublist (owners.map Layer.wraps))
    (same : ∀ layer ∈ owners, layer.wraps ∈ first ↔ layer.wraps ∈ second)
    : first = second := by
  induction owners generalizing first second with
  | nil =>
      rw [List.sublist_nil.mp inside, List.sublist_nil.mp inside']
  | cons layer below ih =>
      have absent {wrappers : List (TransformKind × Level)}
          (lower : wrappers.Sublist (below.map Layer.wraps))
          : layer.wraps ∉ wrappers :=
        fun member => levelled.not_mem_wraps (lower.subset member)
      have own := same layer List.mem_cons_self
      rcases List.sublist_cons_iff.mp inside with lower | ⟨others, rfl, lower⟩
      · rcases List.sublist_cons_iff.mp inside' with lower' | ⟨others', rfl, lower'⟩
        · exact ih levelled.2 lower lower' fun other member => same other (List.mem_cons_of_mem _ member)
        · exact absurd (own.mpr List.mem_cons_self) (absent lower)
      · rcases List.sublist_cons_iff.mp inside' with lower' | ⟨others', rfl, lower'⟩
        · exact absurd (own.mp List.mem_cons_self) (absent lower')
        · refine congrArg _ (ih levelled.2 lower lower' fun other member => ?_)
          have apart := levelled.wraps_ne member
          have same := same other (List.mem_cons_of_mem _ member)
          rwa [List.mem_cons, List.mem_cons, or_iff_right apart, or_iff_right apart] at same

/-- The target of an in-place call that gives a value has the wrappers that the result has. The
batching layers wrap both or none, and the differentiation layers wrap both, as an in-place call
that ends with a value has got past all of them.
-/
theorem Machine.Wraps.target_eq {target : Tensor} {others : List Value}
    (wraps : machine.Wraps op below (.tensor target :: others) result)
    (inPlace : op.isInPlace = true) (levelled : Layer.Levelled below)
    (owned : Layer.Own below machine.heap (.tensor target :: others))
    (tagged : Layer.Target below machine.heap (.tensor target :: others))
    : target.liveWrappers machine.heap = result.liveWrappers machine.heap := by
  rcases wraps.target inPlace with ⟨first, head, same⟩
  cases head
  refine levelled.wrappers_eq (owned target List.mem_cons_self) ?_ ?_
  · rw [wraps.wrappers]
    exact List.filter_sublist.map Layer.wraps
  · intro lower member
    cases kind : lower.kind with
    | batching => exact (same lower member kind).symm
    | differentiation =>
        refine iff_of_true ?_ ?_
        · rcases tagged lower member kind with ⟨first, head, found⟩
          cases head
          rwa [Layer.wraps, kind]
        · rw [wraps.wrappers, levelled.mem_map_filter member]
          exact .inl kind

/-- Where the target is batched by the layer, the caller gets its own handle back. It has the wrappers
that the result from below has, and that of the layer.
-/
theorem wraps_addStanding {handle : Nat} {addend other : Tensor}
    (holds : Contract.wraps.Holds budget) (within : machine.InBody layer below)
    (kind : layer.kind = .batching) (calling : held.Calling Base.schemas[8] below)
    (registered : held.Registered) (flags : held.heap.flags = machine.heap.flags)
    (registry : held.registry = machine.registry) (values : held.values = outer)
    (ahead : held.ambient.ahead = below) (passes : machine.Passes below other addend)
    : Run.Leaves
        (do
          pushAll [.tensor physical, .tensor addend]
          (nested budget).dispatch Base.schemas[8]
          Batching.replaceLast (.tensor (.batched handle layer.level physical)))
        held
        (fun _ values _ =>
          ∃ result,
            values = outer ++ [.tensor result]
            ∧ machine.Wraps Base.schemas[8] (layer :: below)
                [.tensor (.batched handle layer.level physical), .tensor other] result)
        (fun _ _ => True) := by
  have levelled := within.grounded.levelled
  have drawless : Base.schemas[8].name ≠ "rand" := by decide
  refine (quiet_writing.pushAll _).leaves_step rfl ?_
  have called
      : ((nested budget).dispatch Base.schemas[8]).Leaves
          { held with values := held.values ++ [.tensor physical, .tensor addend] }
          (fun _ values _ =>
            ∃ result,
              values = outer ++ [.tensor result]
              ∧ machine.Wraps Base.schemas[8] below [.tensor physical, .tensor addend] result
              ∧ Layer.Own below machine.heap [.tensor physical, .tensor addend])
          (fun _ _ => True) :=
    holds.wraps_pushed calling drawless registered flags registry values rfl (.refl machine _ below _)
  have targeted
      : ((nested budget).dispatch Base.schemas[8]).Leaves
          { held with values := held.values ++ [.tensor physical, .tensor addend] }
          (fun _ _ _ => Layer.Target below machine.heap [.tensor physical, .tensor addend])
          (fun _ _ => True) := by
    have found
        : ((nested budget).dispatch Base.schemas[8]).Leaves
            { held with values := held.values ++ [.tensor physical, .tensor addend] }
            (fun _ _ _ =>
              Layer.Target held.ambient.ahead held.heap [.tensor physical, .tensor addend])
            (fun _ _ => True) :=
      Contract.Holds.target_pushed (Contract.captures_kept.holds budget) calling rfl rfl
    apply found.mono ?_ fun _ _ => id
    intro _ _ _ target
    rw [ahead] at target
    exact target.congr flags
  refine Leaves.bind ((called.and targeted).mono (fun _ _ _ => id) fun _ _ _ => trivial) ?_
  intro _ returned _ _ both
  rcases both with ⟨⟨result, values, wraps, owned⟩, targeted⟩
  have same := wraps.target_eq rfl levelled.2 owned targeted
  have related
      : Value.RelatedAll (machine.Passes below)
          [.tensor (.batched handle layer.level physical), .tensor other]
          [.tensor physical, .tensor addend] :=
    .cons (.tensor ((Machine.Passes.refl machine below physical).batched handle kind levelled))
      (.cons (.tensor passes) .nil)
  have wraps' := wraps.of_inner rfl rfl (fun named => absurd named drawless) (.of_related related)
  have marks
      : machine.ambient.Marks machine.heap Base.schemas[8].name
          [.tensor (.batched handle layer.level physical), .tensor other] layer := by
    refine .inr (.inl ⟨_, List.mem_cons_self, ?_⟩)
    rw [Layer.wraps_batched kind]
    exact List.mem_cons_self
  refine (quiet_writing.replaceLast _).leaves (replaceLast_apply values _)
    ⟨_, rfl, wraps'.typed, ?_, ?_, ?_⟩
  · rw [Layer.wraps_batched kind, same, wraps'.wrappers, List.filter_cons_of_pos (by simpa using marks)]
    rfl
  · exact fun known => known _ List.mem_cons_self
  · exact fun _ => ⟨_, rfl, fun _ _ _ => Iff.rfl⟩

/-- The rule of in-place addition keeps the contract. A target without the batch is refused if the
addend has one, and otherwise the layer does not mark the call. Where the target has the batch, the
addend is padded if it has one too, and the call goes on with the physical values.
-/
theorem wraps_addInPlace (holds : Contract.wraps.Holds budget)
    (poses : machine.Poses Base.schemas[8]) (within : machine.InBody layer below)
    (kind : layer.kind = .batching)
    : Contract.wraps (budget + 1) (layer :: below) Base.schemas[8] machine
        (Batching.addInPlace.run (nested budget) Base.schemas[8]) := by
  intro registered
  have levelled := within.grounded.levelled
  have size : (machine.lastValues 2).length = 2 := Machine.lastValues_length poses.enough
  refine quiet_writing.currentLayer.leaves_step (currentLayer_apply within.top) ?_
  refine (still_pop _).leaves_bind (fun _ => trivial) ?_
  intro arguments popped ended _ _
  obtain ⟨rfl, -, rfl⟩ := pop_ok ended
  refine (idle_lift (Value.plain_tensorAt _ _ _).orderly).leaves_bind (fun _ => trivial) ?_
  intro target targetAt
  refine (idle_lift (Value.plain_tensorAt _ _ _).orderly).leaves_bind (fun _ => trivial) ?_
  intro other otherAt
  have pair := Value.eq_pair size (Value.tensorAt_ok (lift_ok targetAt).1)
    (Value.tensorAt_ok (lift_ok otherAt).1)
  rw [show Base.schemas[8].arity = 2 from rfl, pair]
  refine .holding (moves_hide _ _) ?_
  intro held atHeld
  have calling := within.hideBatched kind poses.member (by decide) atHeld.ambient
  have registered' : held.Registered := registered.popped.shifted atHeld fun _ active => active
  have flags : held.heap.flags = machine.heap.flags := congrArg Heap.flags atHeld.heap
  have hidden : held.ambient = machine.ambient.hide (.only .batched) := atHeld.ambient
  have ahead : held.ambient.ahead = below := by
    rw [hidden]
    exact within.ahead_hide (.only .batched)
  have drawless : Base.schemas[8].name ≠ "rand" := by decide
  cases targetPhysical : target.physicalAt? layer.level with
  | none =>
      cases otherPhysical : other.physicalAt? layer.level with
      | some batch => exact leaves_fail trivial
      | none =>
          refine (quiet_writing.pushAll _).leaves_step rfl ?_
          have called
              : ((nested budget).dispatch Base.schemas[8]).Leaves
                  { held with values := held.values ++ [.tensor target, .tensor other] }
                  (fun _ values _ =>
                    ∃ result,
                      values = machine.firstValues 2 ++ [.tensor result]
                      ∧ machine.Wraps Base.schemas[8] below [.tensor target, .tensor other] result
                      ∧ Layer.Own below machine.heap [.tensor target, .tensor other])
                  (fun _ _ => True) :=
            holds.wraps_pushed calling drawless registered' flags atHeld.registry atHeld.values rfl
              (.refl machine _ below _)
          apply called.mono ?_ fun _ _ => id
          intro _ _ _ given
          rcases given with ⟨result, left, wraps, owned⟩
          have bare := Layer.not_marks machine.ambient kind drawless (owned.not_around levelled)
          exact ⟨result, left, wraps.unmarked bare levelled⟩
  | some physical =>
      obtain ⟨handle, rfl⟩ := Tensor.physicalAt?_eq_some targetPhysical
      refine (quiet_read _).leaves_step rfl ?_
      cases otherPhysical : other.physicalAt? layer.level with
      | none =>
          refine (quiet_pure other).leaves_step rfl ?_
          exact wraps_addStanding holds within kind calling registered' flags atHeld.registry
            atHeld.values ahead (.refl machine below other)
      | some batch =>
          obtain ⟨handle', rfl⟩ := Tensor.physicalAt?_eq_some otherPhysical
          refine (passes_pad holds calling.owning registered' _ _).bind ?_
          intro padded reached _ resumes left
          have passes := (left.2.congr flags atHeld.registry).batched handle' kind levelled
          exact wraps_addStanding holds within kind (calling.resumes resumes)
            (registered'.resumes resumes) (resumes.flags.trans flags)
            (resumes.registry.trans atHeld.registry) (left.1.trans atHeld.values)
            ((Ambient.ahead_resumes resumes).trans ahead) passes

theorem Layer.not_around_ints (layer : Layer) (heap : Heap) (sizes : List Int)
    : ¬layer.Around heap [.ints sizes] := by
  intro around
  rcases around with ⟨_, member, _⟩
  cases member

/-- A layer that has taken care of random operators does not mark what is drawn afterwards. It is
not ahead any more, and the capability by which it would be reached again is hidden.
-/
theorem Machine.InBody.not_marks_hidden {name : String} {sizes : List Int}
    (within : machine.InBody layer below) (kind : layer.kind = .batching)
    (hidden : held.ambient = machine.ambient.hide (.only .batchMode))
    : ¬held.ambient.Marks heap name [.ints sizes] layer := by
  intro marks
  rcases marks with differentiates | around | ⟨-, -, front | forced⟩
  · rw [kind] at differentiates
    cases differentiates
  · exact layer.not_around_ints heap sizes around
  · rw [hidden, within.ahead_hide] at front
    exact within.grounded.levelled.below_ne front rfl
  · have unforced := forced.2
    rw [hidden] at unforced
    simp [Ambient.hide, CapabilitySet.only] at unforced

/-- Where every batch entry draws numbers of its own, the layer marks what is drawn at once for all of
them.
-/
theorem wraps_random (holds : Contract.wraps.Holds budget)
    (poses : machine.Poses (Base.factorySchema "rand")) (within : machine.InBody layer below)
    (kind : layer.kind = .batching) (forces : machine.thread.overlay.forces .batchMode)
    (shown : machine.thread.overlay.excluded.contains .batched = false)
    : Contract.wraps (budget + 1) (layer :: below) (Base.factorySchema "rand") machine
        (Batching.random.run (nested budget) (Base.factorySchema "rand")) := by
  intro registered
  have levelled := within.grounded.levelled
  have size : (machine.lastValues 1).length = 1 := Machine.lastValues_length poses.enough
  refine quiet_writing.currentLayer.leaves_step (currentLayer_apply within.top) ?_
  refine .holding (moves_hide _ machine) ?_
  intro held atHeld
  have calling := within.hideBatchMode kind shown poses.member atHeld.ambient
  have registered' : held.Registered := registered.shifted atHeld fun _ active => active
  have flags : held.heap.flags = machine.heap.flags := congrArg Heap.flags atHeld.heap
  have hidden : held.ambient = machine.ambient.hide (.only .batchMode) := atHeld.ambient
  have ahead : held.ambient.ahead = below := by
    rw [hidden]
    exact within.ahead_hide (.only .batchMode)
  have drawing {lower : Layer} (member : lower ∈ below)
      : held.ambient.Drawing lower ↔ machine.ambient.Drawing lower :=
    iff_of_true (.inl (ahead ▸ member)) (.inl (within.ahead ▸ member))
  split
  · exact leaves_fault trivial trivial
  · exact leaves_fail trivial
  · rename_i policy
    have called := holds.wraps calling registered' (atHeld.values.trans (machine.values_eq 1)) size
    apply called.mono ?_ fun _ _ => id
    intro _ _ _ given
    rcases given with ⟨result, left, wraps, -⟩
    refine ⟨result, left, wraps.of_inner flags atHeld.registry (fun _ other member own => ?_)
      (.refl machine _ _ _)⟩
    rcases List.mem_cons.mp member with rfl | member
    · rw [policy] at own
      cases own
    · exact drawing member
  · rename_i batch policy
    refine (still_pop _).leaves_bind (fun _ => trivial) ?_
    intro arguments popped ended _ _
    obtain ⟨rfl, -, rfl⟩ := pop_ok ended
    refine (idle_lift (Value.plain_sizesAt _ _ _).orderly).leaves_bind (fun _ => trivial) ?_
    intro sizes sizesAt
    obtain ⟨listed, first⟩ := Value.sizesAt_ok (lift_ok sizesAt).1
    have values : held.firstValues 1 = machine.firstValues 1 := by
      rw [Machine.firstValues, atHeld.values, Machine.firstValues]
    rw [Machine.lastValues, atHeld.values] at first
    have only : machine.lastValues 1 = [.ints listed] := Value.eq_single size first
    rw [show (Base.factorySchema "rand").arity = 1 from rfl, only]
    let larger : Value := .ints ((batch :: sizes).map Size.toSigned)
    refine (quiet_writing.push larger).leaves_step rfl ?_
    let pushed : Machine := { held with values := held.firstValues 1 ++ [larger] }
    have calling : pushed.Calling (Base.factorySchema "rand") (layer :: below) :=
      ⟨calling.member, calling.owning, calling.drawn⟩
    have registered' : pushed.Registered := registered'
    have called := holds.wraps calling registered' (congrArg (· ++ [larger]) values)
      (rfl : [larger].length = 1)
    refine called.bind ?_
    intro _ returned _ _ given
    rcases given with ⟨result, values, wraps, -⟩
    have past
        : ¬pushed.ambient.Marks pushed.heap (Base.factorySchema "rand").name [larger] layer :=
      within.not_marks_hidden kind hidden
    have inner : pushed.Wraps (Base.factorySchema "rand") below [larger] result := by
      refine ⟨wraps.typed, ?_, wraps.current, fun written => absurd written (by decide)⟩
      rw [wraps.wrappers, List.filter_cons_of_neg (by simpa using past)]
    have hands : machine.Hands (Base.factorySchema "rand") below [.ints listed] [larger] := by
      refine ⟨fun _ named => absurd named (by decide), fun lower _ _ => ?_, fun _ => ?_,
        fun written => absurd written (by decide)⟩
      · exact iff_of_false (lower.not_around_ints _ _) (lower.not_around_ints _ _)
      · exact List.forall_mem_nil _
    have outerWraps := inner.of_inner flags atHeld.registry (fun _ _ member _ => drawing member) hands
    exact wraps_wrapResults values outerWraps kind (.inr (.inr ⟨rfl, by rw [policy]; rfl, .inr forces⟩))
      levelled rfl

/-- Every kernel gives results that are wrapped as the layers say, if the calls that it issues do.
This is one step of the induction on how deep calls nest, with one case for each kernel.
-/
theorem Contract.wraps_kept : Contract.wraps.Kept where
  congr same wraps registered := .congr same (wraps registered)
  unhandled ended unhandled _ := leaves_ended ended unhandled.orderly trivial
  traced {budget owners op machine capability body} wraps registered := by
    refine .traced ((wraps registered).mono ?_ fun _ _ => id)
    intro _ _ _ given
    rcases given with ⟨result, left, wraps⟩
    exact ⟨result, left, wraps.of_inner rfl rfl (fun _ _ _ _ => Iff.rfl) (.refl machine op owners _)⟩
  base poses _ found _ := wraps_base poses found
  outside := wraps_outside
  enter := wraps_enter
  differentiate holds poses within kind _ _ := wraps_differentiate holds poses within kind
  leaveDifferentiation holds poses within kind _ := wraps_leaveDifferentiation holds poses within kind
  leaveBatching holds poses within kind drawn owned :=
    wraps_leaveBatching holds poses within kind drawn (owned.imp id And.left)
  pointwise holds poses within kind _ _ named := wraps_pointwise holds poses within kind named
  unsqueeze holds poses within kind _ _ same := by
    subst same
    exact wraps_unsqueeze holds poses within kind
  addInPlace holds poses within kind _ _ same := by
    subst same
    exact wraps_addInPlace holds poses within kind
  missingRule _ := (still_log _).leaves_bind (fun _ => trivial) fun _ _ _ _ _ => leaves_fail trivial
  random holds poses within kind forces shown same := by
    subst same
    exact wraps_random holds poses within kind forces shown

end

end LayeredDispatch
