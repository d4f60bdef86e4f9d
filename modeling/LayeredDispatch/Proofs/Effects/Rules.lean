import LayeredDispatch.Proofs.Effects.Interceptors
import LayeredDispatch.Proofs.Families.Rules

/-! What the rules of batching layers do to the memory that calls find. The insertions of dimensions
that come before the call only bring tags up to date, which they do around the values that they are
given; these are as known, and as settled, as the arguments that they stand for. Main statements: the
rules change what the call that they hand on may change.
-/

namespace LayeredDispatch

open Run Dispatcher

/-- What stands for a physical value in a call: the value, or one made of it by calls that have
brought the tags around it up to date.
-/
structure Census.Stands (census : Census) (memory : Memory) (physical result : Tensor) : Prop where
  sound : census.Sound memory.heap
  known : physical.Known census
  known' : result.Known census
  settled : result = physical ∨ physical.Settled census memory.heap

section

variable {census : Census} {op : Schema} {machine : Machine} {tensor physical result : Tensor}
  {layer : Layer} {below owners : List Layer} {budget : Nat} {memory before after : Memory}
  {arguments outer : List Value} {failed : Exit → Memory → Prop}

theorem Census.Stands.refl (sound : census.Sound memory.heap) (known : physical.Known census)
    : census.Stands memory physical physical :=
  ⟨sound, known, known, Or.inl rfl⟩

/-- What stands for a physical value does so while nothing is written. -/
theorem Census.Stands.later (h : census.Stands before physical result)
    (keeps : census.Keeps before after)
    : census.Stands after physical result := by
  refine ⟨h.sound.spares keeps.toSpares, h.known, h.known', ?_⟩
  rcases h.settled with same | settled
  · exact Or.inl same
  · exact Or.inr (keeps.settled h.sound h.known settled)

/-- After a call on what stands for it, the physical value is settled: it is what the call was
given, or it has been settled by the insertions before.
-/
theorem Census.Stands.settled_after {inner : List Value} (h : census.Stands before physical result)
    (allows : census.Allows op inner before after) (named : op.name ≠ "resize_")
    (settled : result.Settled census after.heap)
    : physical.Settled census after.heap := by
  obtain ⟨holds, refreshed⟩ := allows.steady named
  rcases h.settled with rfl | earlier
  · exact settled
  · exact earlier.later h.known h.sound holds allows.flags refreshed

/-- An inner call of a rule, after its values have been put on top. -/
theorem Contract.Holds.affects_pushed {inner : List Value}
    (holds : (Contract.effects census).Holds budget) (calling : machine.Calling op owners)
    (keeps : census.Keeps before machine.memory) (sound : census.Sound before.heap)
    (values : machine.values = outer) (size : inner.length = op.arity)
    (known : ∀ tensor ∈ Value.tensorsAll inner, tensor.Known census)
    (written : op.written? inner = op.written? arguments)
    (settled
      : ∀ after,
          op.name ≠ "resize_"
          → census.Allows op inner machine.memory after
          → (∀ tensor ∈ Value.tensorsAll inner, tensor.Settled census after.heap)
          → ∀ tensor ∈ Value.tensorsAll arguments, tensor.Settled census after.heap)
    : ((nested budget).dispatch op).Affects census op owners arguments outer before
        { machine with values := machine.values ++ inner } :=
  holds.affects ⟨calling.member, calling.owning, calling.drawn⟩ keeps sound
    (congrArg (· ++ inner) values) size known written settled

-----------------------------------------------------------------------------------------
-- Inserting dimensions
-----------------------------------------------------------------------------------------

theorem Schema.pure_of_unsqueeze (member : op ∈ Base.schemas) (named : op.name = "unsqueeze")
    : op.isInPlace = false := by
  simp only [Base.schemas, List.mem_cons, List.not_mem_nil, or_false] at member
  rcases member with rfl | rfl | rfl | rfl | rfl | rfl | rfl | rfl | rfl | rfl <;>
    first | rfl | exact absurd named (by decide)

/-- Each insertion is a call that writes nothing, and that settles what it is given. -/
theorem leaves_insertion (holds : (Contract.effects census).Holds budget)
    (owning : machine.ambient.Owners owners) (sound : census.Sound machine.heap)
    (known : physical.Known census)
    : ((nested budget).callTensor "unsqueeze" [.tensor physical, .int 1]).Leaves machine
        (fun result values memory =>
          values = machine.values
          ∧ census.Keeps machine.memory memory
          ∧ result.Known census
          ∧ physical.Settled census memory.heap)
        (fun _ memory => census.Keeps machine.memory memory) := by
  have unwritten : census.Keeps machine.memory machine.memory := .refl census _
  refine .callTensor (.call (fun _ _ => unwritten) fun op found count => ?_)
  have found : standard.schema? "unsqueeze" = some op := found
  obtain ⟨member, named⟩ := schema?_standard found
  have pure := Schema.pure_of_unsqueeze member named
  have drawless : op.name ≠ "rand" := by rw [named]; decide
  have shaped : op.name ≠ "resize_" := by rw [named]; decide
  have only : ∀ tensor ∈ Value.tensorsAll [.tensor physical, .int 1], tensor.Known census :=
    List.forall_mem_singleton.mpr known
  have called
      : (standard.dispatchWithin budget op).Affects census op owners
          [.tensor physical, .int 1] [] machine.memory
          { machine with values := [.tensor physical, .int 1] } :=
    holds.affects (.of_name member owning drawless) unwritten sound rfl count only rfl
      fun _ _ _ settled => settled
  refine called.mono ?_ fun _ _ undone => undone.allows.keeps pure drawless shaped
  rintro _ _ memory ⟨result, left, done⟩
  refine ⟨result, [], left, rfl, done.allows.keeps pure drawless shaped, done.known, ?_⟩
  exact done.settled shaped physical (List.mem_singleton_self _)

/-- Padding writes nothing, by induction on the rounds. After the first insertion the physical value
is settled, and further ones keep it so.
-/
theorem leaves_pad (holds : (Contract.effects census).Holds budget)
    (owning : machine.ambient.Owners owners) (sound : census.Sound machine.heap)
    (known : physical.Known census) (rank count : Nat)
    : (Batching.pad (nested budget) rank count physical).Leaves machine
        (fun result values memory =>
          values = machine.values
          ∧ census.Keeps machine.memory memory
          ∧ census.Stands memory physical result)
        (fun _ memory => census.Keeps machine.memory memory) := by
  induction count generalizing machine physical with
  | zero =>
      unfold Batching.pad
      refine (quiet_read _).leaves_step rfl ?_
      split
      · exact leaves_fault trivial (.refl census _)
      · exact leaves_pure ⟨rfl, .refl census _, .refl sound known⟩
  | succ count ih =>
      unfold Batching.pad
      refine (quiet_read _).leaves_step rfl ?_
      split
      · refine (leaves_insertion holds owning sound known).bind ?_
        rintro padded reached _ resumes ⟨values, keeps, known', settled⟩
        have sound' := sound.spares keeps.toSpares
        refine (ih (owning.resumes resumes) sound' known').mono ?_ ?_
        · rintro result _ memory ⟨values', keeps', stands⟩
          refine ⟨values'.trans values, keeps.trans keeps' sound, stands.sound, known,
            stands.known', Or.inr (keeps'.settled sound' known settled)⟩
        · exact fun _ _ keeps' => keeps.trans keeps' sound
      · exact leaves_pure ⟨rfl, .refl census _, .refl sound known⟩

-----------------------------------------------------------------------------------------
-- Batched results
-----------------------------------------------------------------------------------------

/-- The result of a call is marked as batched, which makes no tag. -/
theorem affects_wrapResults (level : Level) (values : machine.values = outer ++ [.tensor result])
    (done : census.Done op below arguments before machine.memory result)
    (sound : census.Sound before.heap)
    (known : ∀ tensor ∈ Value.tensorsAll arguments, tensor.Known census)
    (plain : ∀ layer ∈ owners.head?, layer.kind ≠ .differentiation)
    : (Batching.wrapResults 1 level).Affects census op owners arguments outer before machine := by
  have spares := machine.memory.spares_newBatched result level
  have refreshed : census.Refreshed machine.heap (machine.heap.newBatched result level).2 :=
    .of_eq fun _ _ => rfl
  refine (quiet_writing.wrapResults 1 level).leaves (wrapResults_apply values level) ?_
  refine ⟨_, rfl, done.allows.spares spares sound fun _ => refreshed, done.known, ?_, ?_⟩
  · exact fun head top kind => absurd kind (plain head top)
  · intro named tensor member
    exact (done.settled named tensor member).later (known tensor member)
      (done.allows.sound sound named) spares.holds spares.flags refreshed

-----------------------------------------------------------------------------------------
-- Element-wise operators
-----------------------------------------------------------------------------------------

/-- An argument of an element-wise operator, and what the rule hands on in its place. -/
inductive Census.Prepared (census : Census) (level : Level) (memory : Memory)
    : Value → Value → Prop where
  | same (argument : Value) : census.Prepared level memory argument argument
  | batch {physical result : Tensor} (handle : Nat) (stands : census.Stands memory physical result)
    : census.Prepared level memory (.tensor (.batched handle level physical)) (.tensor result)

/-- What is handed on in the place of an argument stays good while the others are padded. -/
theorem Census.persists_prepared (census : Census) (level : Level)
    : Memory.Persists census.Leading (census.Prepared level) where
  refl memory _ := .refl census memory
  trans := .trans
  stable prepared leading := by
    cases prepared with
    | same => exact .same _
    | batch handle stands => exact .batch handle (stands.later (leading stands.sound))

/-- What is handed on is as known as the argument. -/
theorem Census.Prepared.known {level : Level} {argument result : Value}
    (h : census.Prepared level memory argument result)
    (known : ∀ tensor ∈ argument.tensors, tensor.Known census)
    : ∀ tensor ∈ result.tensors, tensor.Known census := by
  cases h with
  | same => exact known
  | batch handle stands => exact List.forall_mem_singleton.mpr stands.known'

/-- Where what is handed on is settled by the call, the argument is. -/
theorem Census.Prepared.settled {level : Level} {argument result : Value} {inner : List Value}
    (h : census.Prepared level before argument result)
    (allows : census.Allows op inner before after) (named : op.name ≠ "resize_")
    (settled : ∀ tensor ∈ result.tensors, tensor.Settled census after.heap)
    : ∀ tensor ∈ argument.tensors, tensor.Settled census after.heap := by
  cases h with
  | same => exact settled
  | batch handle stands =>
      refine List.forall_mem_singleton.mpr ?_
      exact stands.settled_after allows named (settled _ (List.mem_singleton_self _))

theorem forall_tensors_cons {property : Tensor → Prop} {rest : List Value}
    : (∀ other ∈ Value.tensorsAll (.tensor tensor :: rest), property other)
      ↔ property tensor ∧ ∀ other ∈ Value.tensorsAll rest, property other :=
  List.forall_mem_cons

/-- The values that a rule hands on are as known as the arguments. -/
theorem Census.prepared_known {level : Level} {inner : List Value}
    (prepared : List.Forall₂ (census.Prepared level memory) arguments inner)
    (known : ∀ tensor ∈ Value.tensorsAll arguments, tensor.Known census)
    : ∀ tensor ∈ Value.tensorsAll inner, tensor.Known census := by
  rw [Value.forall_tensorsAll] at known ⊢
  induction prepared with
  | nil => exact List.forall_mem_nil _
  | cons head tail ih =>
      obtain ⟨first, others⟩ := List.forall_mem_cons.mp known
      exact List.forall_mem_cons.mpr ⟨head.known first, ih others⟩

/-- Where these are settled by the call, the arguments are. -/
theorem Census.prepared_settled {level : Level} {inner called : List Value}
    (prepared : List.Forall₂ (census.Prepared level before) arguments inner)
    (allows : census.Allows op called before after) (named : op.name ≠ "resize_")
    (settled : ∀ tensor ∈ Value.tensorsAll inner, tensor.Settled census after.heap)
    : ∀ tensor ∈ Value.tensorsAll arguments, tensor.Settled census after.heap := by
  rw [Value.forall_tensorsAll] at settled ⊢
  induction prepared with
  | nil => exact List.forall_mem_nil _
  | cons head tail ih =>
      obtain ⟨first, others⟩ := List.forall_mem_cons.mp settled
      exact List.forall_mem_cons.mpr ⟨head.settled allows named first, ih others⟩

/-- An argument with a physical value is a batch. -/
theorem physicalArgument?_eq_some {level : Level} {argument : Value}
    (found : Batching.physicalArgument? level argument = some physical)
    : ∃ handle, argument = .tensor (.batched handle level physical) := by
  obtain ⟨tensor, present, found⟩ := Option.bind_eq_some_iff.mp found
  obtain ⟨handle, rfl⟩ := Tensor.physicalAt?_eq_some found
  exact ⟨handle, Value.tensor?_eq_some present⟩

theorem Schema.pure_of_pointwise (member : op ∈ Base.schemas)
    (named : op.name ∈ ["add", "mul", "neg"])
    : op.isInPlace = false := by
  simp only [Base.schemas, List.mem_cons, List.not_mem_nil, or_false] at member
  rcases member with rfl | rfl | rfl | rfl | rfl | rfl | rfl | rfl | rfl | rfl <;>
    first | rfl | exact absurd named (by decide)

theorem head_plain (kind : layer.kind = .batching)
    : ∀ head ∈ (layer :: below).head?, head.kind ≠ .differentiation := by
  intro head top
  cases top
  rw [kind]
  exact nofun

/-- Below a batching layer nothing is promised of a new tag. -/
theorem Run.Affects.batching {body : Run Unit}
    (h : body.Affects census op below arguments outer before machine)
    (kind : layer.kind = .batching)
    : body.Affects census op (layer :: below) arguments outer before machine :=
  h.owned fun head top differentiates => absurd differentiates (head_plain kind head top)

/-- Batched arguments of an element-wise operator are padded one after another. -/
theorem leaves_prepare (holds : (Contract.effects census).Holds budget)
    (owning : machine.ambient.Owners owners) (sound : census.Sound machine.heap)
    (known : ∀ tensor ∈ Value.tensorsAll arguments, tensor.Known census) (level : Level) (rank : Nat)
    : Run.Leaves
        (arguments.mapM fun argument => do
          match Batching.physicalArgument? level argument with
          | none => return argument
          | some physical =>
              return .tensor (← Batching.padToRank (nested budget) physical rank))
        machine
        (fun padded values memory =>
          values = machine.values
          ∧ census.Keeps machine.memory memory
          ∧ List.Forall₂ (census.Prepared level memory) arguments padded)
        (fun _ memory => census.Keeps machine.memory memory) := by
  refine (Leaves.mapM (census.persists_prepared level) ?_).mono
    (fun _ _ _ ⟨values, leading, prepared⟩ => ⟨values, leading sound, prepared⟩) fun _ _ => id
  intro argument member start resumes _ leading
  have keeps := leading sound
  split
  · exact leaves_pure ⟨rfl, fun _ => .refl census _, .same argument⟩
  · rename_i physical found
    obtain ⟨handle, rfl⟩ := physicalArgument?_eq_some found
    have known' : physical.Known census :=
      Value.forall_tensorsAll.mp known _ member (.batched handle level physical)
        (List.mem_singleton_self _)
    have padding := leaves_pad holds (owning.resumes resumes) (sound.spares keeps.toSpares) known'
    refine Leaves.bind ((padding _ _).mono (fun _ _ _ => id) ?_) ?_
    · exact fun _ _ keeps' => keeps.trans keeps' sound
    · rintro padded reached _ _ ⟨values, keeps', stands⟩
      exact leaves_pure ⟨values, fun _ => keeps', .batch handle stands⟩

/-- The rule for element-wise operators pads, which writes nothing, and hands its call on. What is
settled by that call settles the arguments.
-/
theorem effects_pointwise (holds : (Contract.effects census).Holds budget)
    (poses : machine.Poses op) (within : machine.InBody layer below)
    (kind : layer.kind = .batching) (named : op.name ∈ ["add", "mul", "neg"])
    : Contract.effects census (budget + 1) (layer :: below) op machine
        (Batching.pointwise.run (nested budget) op) := by
  intro sound known
  have pure := Schema.pure_of_pointwise poses.member named
  have drawless : op.name ≠ "rand" := by
    intro same
    rw [same] at named
    revert named
    decide
  have unwritten : census.Keeps machine.memory machine.memory := .refl census _
  have size := Machine.lastValues_length poses.enough
  refine quiet_writing.currentLayer.leaves_step (currentLayer_apply within.top) ?_
  refine (still_pop _).leaves_bind (fun _ => unwritten.undone) ?_
  intro arguments popped ended _ _
  obtain ⟨rfl, -, rfl⟩ := pop_ok ended
  generalize machine.lastValues op.arity = arguments at known size ⊢
  refine (quiet_read _).leaves_step rfl ?_
  refine .holding (moves_hide _ _) fun held atHeld => ?_
  have owning := (within.hideBatched kind poses.member drawless atHeld.ambient).owning
  have same : held.memory = machine.memory := atHeld.memory
  have prepare := leaves_prepare holds owning (atHeld.heap ▸ sound) known layer.level
    (Batching.logicalRank machine.heap arguments)
  rw [same] at prepare
  refine (prepare.mono (fun _ _ _ => id) fun _ _ keeps => keeps.undone).bind ?_
  rintro padded reached _ resumes ⟨values, keeps, prepared⟩
  refine (quiet_writing.pushAll _).leaves_step rfl ?_
  have called := holds.affects_pushed (.of_name poses.member (owning.resumes resumes) drawless) keeps
    sound (values.trans atHeld.values) (prepared.length_eq.symm.trans size)
    (Census.prepared_known prepared known) (by simp [Schema.written?, pure])
    fun after named allows settled => Census.prepared_settled prepared allows named settled
  split
  · refine Leaves.bind called ?_
    rintro _ returned _ _ ⟨result, values, done⟩
    rw [Schema.resultCount_eq_one poses.member]
    exact affects_wrapResults layer.level values done sound known (head_plain kind)
  · refine Leaves.bind (called.batching kind) ?_
    rintro _ returned _ _ ⟨result, values, done⟩
    exact leaves_pure ⟨result, values, done⟩

-----------------------------------------------------------------------------------------
-- The other rules
-----------------------------------------------------------------------------------------

/-- The rule for a new dimension hands its call on with the physical value. -/
theorem effects_unsqueeze (holds : (Contract.effects census).Holds budget)
    (poses : machine.Poses Base.schemas[5]) (within : machine.InBody layer below)
    (kind : layer.kind = .batching)
    : Contract.effects census (budget + 1) (layer :: below) Base.schemas[5] machine
        (Batching.unsqueeze.run (nested budget) Base.schemas[5]) := by
  intro sound known
  have unwritten : census.Keeps machine.memory machine.memory := .refl census _
  have size : (machine.lastValues 2).length = 2 := Machine.lastValues_length poses.enough
  refine quiet_writing.currentLayer.leaves_step (currentLayer_apply within.top) ?_
  refine (still_pop _).leaves_bind (fun _ => unwritten.undone) ?_
  intro arguments popped ended _ _
  obtain ⟨rfl, -, rfl⟩ := pop_ok ended
  refine (idle_lift (Value.plain_tensorAt _ _ _).orderly).leaves_bind (fun _ => unwritten.undone) ?_
  intro input inputAt
  refine (idle_lift (Value.plain_intAt _ _ _).orderly).leaves_bind (fun _ => unwritten.undone) ?_
  intro dim dimAt
  have pair := Value.eq_pair size (Value.tensorAt_ok (lift_ok inputAt).1)
    (Value.intAt_ok (lift_ok dimAt).1)
  rw [show Base.schemas[5].arity = 2 from rfl, pair] at known ⊢
  refine .holding (moves_hide _ _) fun held atHeld => ?_
  have calling := within.hideBatched kind poses.member (by decide) atHeld.ambient
  have keeps : census.Keeps machine.memory held.memory := by
    rw [show held.memory = machine.memory from atHeld.memory]
    exact unwritten
  have undone : ∀ exit, census.Undone Base.schemas[5] [.tensor input, .int dim] machine.memory exit
      held.memory := fun _ => keeps.undone
  cases found : input.physicalAt? layer.level with
  | some physical =>
      obtain ⟨handle, rfl⟩ := Tensor.physicalAt?_eq_some found
      refine (quiet_read _).leaves_step rfl ?_
      dsimp only
      split
      · refine (quiet_writing.pushAll _).leaves_step rfl ?_
        have called
            : ((nested budget).dispatch Base.schemas[5]).Affects census Base.schemas[5] below
                [.tensor (.batched handle layer.level physical), .int dim] (machine.firstValues 2)
                machine.memory
                { held with values := held.values ++ [.tensor physical, .int (dim + 1)] } :=
          holds.affects_pushed calling keeps sound atHeld.values rfl
            (forall_tensors_cons.mpr ⟨(forall_tensors_cons.mp known).1, List.forall_mem_nil _⟩) rfl
            fun _ _ _ settled =>
              forall_tensors_cons.mpr ⟨(forall_tensors_cons.mp settled).1, List.forall_mem_nil _⟩
        refine Leaves.bind called ?_
        rintro _ returned _ _ ⟨result, values, done⟩
        exact affects_wrapResults layer.level values done sound known (head_plain kind)
      · exact leaves_fail (undone _)
  | none =>
      refine (quiet_writing.pushAll _).leaves_step rfl ?_
      exact (holds.affects_pushed calling keeps sound atHeld.values rfl known rfl
        fun _ _ _ settled => settled).batching kind

/-- The last value is replaced where there is one. -/
theorem replaceLast_apply {last : Value} (values : machine.values = outer ++ [last])
    (value : Value)
    : Batching.replaceLast value machine
      = .ok () { machine with values := outer ++ [value] } := by
  have start : Size.sub? (outer ++ [last]).length 1 = some outer.length := by simp [Size.sub?]
  have found : Outcome.orFault (some outer.length) .overflow = .ok outer.length := rfl
  unfold Batching.replaceLast
  simp only [bind_apply, read_apply, values, start, found, lift_ok_apply, List.take_left]
  rfl

/-- Writing to the physical value of the target. Whatever stands for the other argument, the caller
gets its own handle back.
-/
theorem affects_addStanding {handle : Nat} {addend other : Tensor}
    (holds : (Contract.effects census).Holds budget)
    (calling : machine.Calling Base.schemas[8] below) (kind : layer.kind = .batching)
    (values : machine.values = outer) (keeps : census.Keeps before machine.memory)
    (sound : census.Sound before.heap)
    (known : (Tensor.batched handle layer.level physical).Known census)
    (known' : addend.Known census)
    (settled
      : ∀ after,
          census.Allows Base.schemas[8] [.tensor physical, .tensor addend] machine.memory after
          → addend.Settled census after.heap
          → other.Settled census after.heap)
    : Run.Affects
        (do
          pushAll [.tensor physical, .tensor addend]
          (nested budget).dispatch Base.schemas[8]
          Batching.replaceLast (.tensor (.batched handle layer.level physical)))
        census Base.schemas[8] (layer :: below)
        [.tensor (.batched handle layer.level physical), .tensor other] outer before machine := by
  refine (quiet_writing.pushAll _).leaves_step rfl ?_
  have called
      : ((nested budget).dispatch Base.schemas[8]).Affects census Base.schemas[8] below
          [.tensor (.batched handle layer.level physical), .tensor other] outer before
          { machine with values := machine.values ++ [.tensor physical, .tensor addend] } := by
    refine holds.affects_pushed calling keeps sound values rfl ?_ rfl ?_
    · exact forall_tensors_cons.mpr ⟨known, List.forall_mem_singleton.mpr known'⟩
    · intro after _ allows both
      obtain ⟨first, second⟩ := forall_tensors_cons.mp both
      exact forall_tensors_cons.mpr ⟨first,
        forall_tensors_cons.mpr ⟨settled after allows (forall_tensors_cons.mp second).1,
          List.forall_mem_nil _⟩⟩
  refine Leaves.bind (called.batching kind) ?_
  rintro _ returned _ _ ⟨result, values, done⟩
  refine (quiet_writing.replaceLast _).leaves (replaceLast_apply values _) ?_
  exact ⟨_, rfl, done.allows, known,
    fun head top differentiates => absurd differentiates (head_plain kind head top), done.settled⟩

/-- In-place addition writes what it may, whichever of its arguments are batched. The addend may
have been padded before, which writes nothing; a target without a batch is refused if the addend has
one.
-/
theorem effects_addInPlace (holds : (Contract.effects census).Holds budget)
    (poses : machine.Poses Base.schemas[8]) (within : machine.InBody layer below)
    (kind : layer.kind = .batching)
    : Contract.effects census (budget + 1) (layer :: below) Base.schemas[8] machine
        (Batching.addInPlace.run (nested budget) Base.schemas[8]) := by
  intro sound known
  have unwritten : census.Keeps machine.memory machine.memory := .refl census _
  have size : (machine.lastValues 2).length = 2 := Machine.lastValues_length poses.enough
  refine quiet_writing.currentLayer.leaves_step (currentLayer_apply within.top) ?_
  refine (still_pop _).leaves_bind (fun _ => unwritten.undone) ?_
  intro arguments popped ended _ _
  obtain ⟨rfl, -, rfl⟩ := pop_ok ended
  refine (idle_lift (Value.plain_tensorAt _ _ _).orderly).leaves_bind (fun _ => unwritten.undone) ?_
  intro target targetAt
  refine (idle_lift (Value.plain_tensorAt _ _ _).orderly).leaves_bind (fun _ => unwritten.undone) ?_
  intro other otherAt
  have pair := Value.eq_pair size (Value.tensorAt_ok (lift_ok targetAt).1)
    (Value.tensorAt_ok (lift_ok otherAt).1)
  rw [show Base.schemas[8].arity = 2 from rfl, pair] at known ⊢
  obtain ⟨knownTarget, rest⟩ := forall_tensors_cons.mp known
  obtain ⟨knownOther, -⟩ := forall_tensors_cons.mp rest
  refine .holding (moves_hide _ _) fun held atHeld => ?_
  have calling := within.hideBatched kind poses.member (by decide) atHeld.ambient
  have same : held.memory = machine.memory := atHeld.memory
  have keeps : census.Keeps machine.memory held.memory := by
    rw [same]
    exact unwritten
  have soundHeld : census.Sound held.heap := sound.spares keeps.toSpares
  cases targetPhysical : target.physicalAt? layer.level with
  | none =>
      cases otherPhysical : other.physicalAt? layer.level with
      | none =>
          refine (quiet_writing.pushAll _).leaves_step rfl ?_
          exact (holds.affects_pushed calling keeps sound atHeld.values rfl known rfl
            fun _ _ _ settled => settled).batching kind
      | some batch => exact leaves_fail keeps.undone
  | some physical =>
      obtain ⟨handle, rfl⟩ := Tensor.physicalAt?_eq_some targetPhysical
      refine (quiet_read _).leaves_step rfl ?_
      cases otherPhysical : other.physicalAt? layer.level with
      | none =>
          refine (quiet_pure other).leaves_step rfl ?_
          exact affects_addStanding holds calling kind atHeld.values keeps sound knownTarget
            knownOther fun _ _ settled => settled
      | some batch =>
          obtain ⟨handle', rfl⟩ := Tensor.physicalAt?_eq_some otherPhysical
          have knownBatch : batch.Known census := knownOther
          refine Leaves.bind ((leaves_pad holds calling.owning soundHeld knownBatch _ _).mono
            (fun _ _ _ => id) ?_) ?_
          · intro exit memory keeps'
            exact (keeps.trans keeps' sound).undone
          · rintro padded reached _ resumes ⟨values, keeps', stands⟩
            exact affects_addStanding holds (calling.resumes resumes) kind
              (values.trans atHeld.values) (keeps.trans keeps' sound) sound knownTarget
              stands.known' fun after allows settled =>
                stands.settled_after allows (by decide) settled

/-- Random operators get other sizes at most, around which there are no tags. -/
theorem effects_random (holds : (Contract.effects census).Holds budget)
    (poses : machine.Poses (Base.factorySchema "rand")) (within : machine.InBody layer below)
    (kind : layer.kind = .batching)
    (shown : machine.thread.overlay.excluded.contains .batched = false)
    : Contract.effects census (budget + 1) (layer :: below) (Base.factorySchema "rand") machine
        (Batching.random.run (nested budget) (Base.factorySchema "rand")) := by
  intro sound known
  have unwritten : census.Keeps machine.memory machine.memory := .refl census _
  have size : (machine.lastValues 1).length = 1 := Machine.lastValues_length poses.enough
  refine quiet_writing.currentLayer.leaves_step (currentLayer_apply within.top) ?_
  refine .holding (moves_hide _ machine) fun held atHeld => ?_
  have calling := within.hideBatchMode kind shown poses.member atHeld.ambient
  have keeps : census.Keeps machine.memory held.memory := by
    rw [show held.memory = machine.memory from atHeld.memory]
    exact unwritten
  split
  · exact leaves_fault trivial keeps.undone
  · exact leaves_fail keeps.undone
  · exact holds.affects calling keeps sound (atHeld.values.trans (machine.values_eq 1)) size known
      rfl fun _ _ _ settled => settled
  · rename_i batch _
    refine (still_pop _).leaves_bind (fun _ => keeps.undone) ?_
    intro arguments popped ended _ _
    obtain ⟨rfl, -, rfl⟩ := pop_ok ended
    refine (idle_lift (Value.plain_sizesAt _ _ _).orderly).leaves_bind (fun _ => keeps.undone) ?_
    intro sizes sizesAt
    obtain ⟨listed, first⟩ := Value.sizesAt_ok (lift_ok sizesAt).1
    have values : held.firstValues 1 = machine.firstValues 1 := by
      rw [Machine.firstValues, atHeld.values, Machine.firstValues]
    rw [Machine.lastValues, atHeld.values] at first
    have only : machine.lastValues 1 = [.ints listed] := Value.eq_single size first
    rw [show (Base.factorySchema "rand").arity = 1 from rfl, only] at known ⊢
    let larger : Value := .ints ((batch :: sizes).map Size.toSigned)
    refine (quiet_writing.push larger).leaves_step rfl ?_
    have called
        : ((nested budget).dispatch (Base.factorySchema "rand")).Affects census
            (Base.factorySchema "rand") (layer :: below) [.ints listed] (machine.firstValues 1)
            machine.memory { held with values := held.firstValues 1 ++ [larger] } :=
      holds.affects ⟨calling.member, calling.owning, calling.drawn⟩ keeps sound
        (congrArg (· ++ [larger]) values) rfl (List.forall_mem_nil _) rfl
        fun _ _ _ _ => List.forall_mem_nil _
    refine Leaves.bind called ?_
    rintro _ returned _ _ ⟨result, values, done⟩
    exact affects_wrapResults layer.level values done sound known (head_plain kind)

/-- Where there is no rule, the refusal has written to the log only. -/
theorem effects_missingRule
    : Contract.effects census (budget + 1) owners op machine
        (Batching.missingRule.run (nested budget) op) := by
  intro _ _
  refine (still_log _).leaves_bind (fun _ => ?_) ?_
  · exact (Census.Keeps.refl census machine.memory).undone
  · intro _ logged _ _ same
    refine leaves_fail ?_
    rw [same]
    exact (Census.Keeps.refl census machine.memory).undone

end

end LayeredDispatch
