import LayeredDispatch.Proofs.Wrappers.Refusals

/-! The wrappers around the result of a call. Three mechanisms make them: differentiation layers tag
what comes up to them, batching layers mark it as batched, and in-place operators give back the handle
of their target. Main statement: whichever of them are at work, every layer around the base wraps the
result exactly if it marks the call.
-/

namespace LayeredDispatch

open Run Dispatcher

/-- Some argument is wrapped by the layer. -/
def Layer.Around (layer : Layer) (heap : Heap) (arguments : List Value) : Prop :=
  ∃ tensor ∈ Value.tensorsAll arguments, layer.wraps ∈ tensor.liveWrappers heap

instance (layer : Layer) (heap : Heap) (arguments : List Value)
    : Decidable (layer.Around heap arguments) :=
  inferInstanceAs (Decidable (∃ tensor ∈ Value.tensorsAll arguments, _))

/-- Layers that wrap the result of a call: differentiation layers always, batching layers if some
argument is batched at their level, or if every batch entry draws numbers of its own.
-/
def Layer.Marks (layer : Layer) (heap : Heap) (name : String) (arguments : List Value) : Prop :=
  layer.kind = .differentiation
  ∨ layer.Around heap arguments
  ∨ (name = "rand" ∧ layer.transform.randomness? = some .different)

instance (layer : Layer) (heap : Heap) (name : String) (arguments : List Value)
    : Decidable (layer.Marks heap name arguments) :=
  inferInstanceAs (Decidable (_ ∨ _ ∨ _))

/-- The layers that random operators have still to come to. -/
def Ambient.Drawing (ambient : Ambient) (layer : Layer) : Prop :=
  layer ∈ ambient.ahead ∨ ambient.overlay.forces .batchMode

instance (ambient : Ambient) (layer : Layer) : Decidable (ambient.Drawing layer) :=
  inferInstanceAs (Decidable (_ ∨ (_ ∧ _)))

/-- Layers that wrap the result of a call on its way to the base. -/
def Ambient.Marks (ambient : Ambient) (heap : Heap) (name : String) (arguments : List Value)
    (layer : Layer)
    : Prop :=
  layer.kind = .differentiation
  ∨ layer.Around heap arguments
  ∨ (name = "rand"
    ∧ layer.transform.randomness? = some .different
    ∧ ambient.Drawing layer)

instance (ambient : Ambient) (heap : Heap) (name : String) (arguments : List Value)
    : DecidablePred (ambient.Marks heap name arguments) :=
  fun _ => inferInstanceAs (Decidable (_ ∨ _ ∨ _ ∧ _ ∧ _))

/-- Every tag around a tensor has the flag under which its level is registered. -/
def Tensor.Current (registry : Registry) : Tensor → Prop
  | .dense _ => True
  | .tagged _ level flag value =>
      registry.find? level = some flag ∧ value.Current registry
  | .batched _ _ value => value.Current registry

/-- What a call gives, as far as wrappers go. -/
structure Machine.Wraps (machine : Machine) (op : Schema) (owners : List Layer)
    (arguments : List Value) (result : Tensor)
    : Prop where
  typed : op.Typed arguments
  wrappers
    : result.liveWrappers machine.heap
      = (owners.filter (machine.ambient.Marks machine.heap op.name arguments)).map Layer.wraps
  current
    : (∀ tensor ∈ Value.tensorsAll arguments, tensor.Current machine.registry)
      → result.Current machine.registry
  target
    : op.isInPlace = true
      → ∃ target,
          arguments.head? = some (.tensor target)
          ∧ ∀ layer ∈ owners,
              layer.kind = .batching
              → (layer.wraps ∈ result.liveWrappers machine.heap
                ↔ layer.wraps ∈ target.liveWrappers machine.heap)

/-- Calls give results that are wrapped as the layers say. -/
def Contract.wraps : Contract :=
  fun _ owners op machine body =>
    machine.Registered
    → body.Leaves machine
        (fun _ values _ =>
          ∃ result,
            values = machine.firstValues op.arity ++ [.tensor result]
            ∧ machine.Wraps op owners (machine.lastValues op.arity) result)
        (fun _ _ => True)

/-- A tensor in the place of another one that is batched by the same layers. -/
structure Machine.Passes (machine : Machine) (owners : List Layer) (tensor result : Tensor) : Prop
    where
  batches
    : ∀ layer ∈ owners,
        layer.kind = .batching
        → (layer.wraps ∈ result.liveWrappers machine.heap
          ↔ layer.wraps ∈ tensor.liveWrappers machine.heap)
  current : tensor.Current machine.registry → result.Current machine.registry

/-- Values that a kernel hands on in the place of the arguments. They tell as much of the wrappers that
the layers own.
-/
structure Machine.Hands (machine : Machine) (op : Schema) (owners : List Layer)
    (arguments inner : List Value)
    : Prop where
  typed : op.Typed inner → op.Typed arguments
  around
    : ∀ layer ∈ owners,
        layer.kind = .batching
        → (layer.Around machine.heap inner ↔ layer.Around machine.heap arguments)
  current
    : (∀ tensor ∈ Value.tensorsAll arguments, tensor.Current machine.registry)
      → ∀ tensor ∈ Value.tensorsAll inner, tensor.Current machine.registry
  target
    : op.isInPlace = true
      → ∀ result,
          inner.head? = some (.tensor result)
          → ∃ target,
              arguments.head? = some (.tensor target) ∧ machine.Passes owners target result

section

variable {machine held : Machine} {op : Schema} {owners below : List Layer} {layer : Layer}
  {arguments inner outer : List Value} {tensor result physical : Tensor} {budget : Nat}
  {heap : Heap}

-----------------------------------------------------------------------------------------
-- Layers and wrappers
-----------------------------------------------------------------------------------------

/-- The layers that a call is about have different levels, wherever it is on its way to the base.
-/
theorem Ambient.Owners.levelled {ambient : Ambient} (h : ambient.Owners owners)
    : Layer.Levelled owners := by
  cases h with
  | base layers overlay => trivial
  | front active grounded front => exact grounded.levelled
  | body top grounded inBody shown => exact grounded.levelled
  | leaving top grounded kind inBody hidden => exact grounded.levelled.2

theorem Layer.Levelled.below_ne (levelled : Layer.Levelled (layer :: below)) {lower : Layer}
    (member : lower ∈ below)
    : lower.level ≠ layer.level := by
  have less := levelled.2.level_le member
  rw [levelled.1]
  exact Nat.ne_of_lt (Nat.lt_succ_of_le less)

theorem Layer.Levelled.wraps_ne (levelled : Layer.Levelled (layer :: below)) {lower : Layer}
    (member : lower ∈ below)
    : lower.wraps ≠ layer.wraps :=
  fun same => levelled.below_ne member (congrArg Prod.snd same)

theorem Layer.Levelled.not_mem_wraps (levelled : Layer.Levelled (layer :: below))
    : layer.wraps ∉ below.map Layer.wraps := by
  intro member
  rcases List.mem_map.mp member with ⟨lower, active, same⟩
  exact levelled.wraps_ne active same

/-- Layers with different levels make different wrappers, so that the wrapper of a layer is among
those of some layers exactly if the layer is one of these. By induction on the layers.
-/
theorem Layer.Levelled.mem_map_filter (levelled : Layer.Levelled owners) (member : layer ∈ owners)
    (property : Layer → Prop) [DecidablePred property]
    : layer.wraps ∈ (owners.filter property).map Layer.wraps ↔ property layer := by
  induction owners with
  | nil => cases member
  | cons top below ih =>
      have inside {other : Layer} (h : other.wraps ∈ (below.filter property).map Layer.wraps)
          : other.wraps ∈ below.map Layer.wraps :=
        (List.filter_sublist.map Layer.wraps).subset h
      rw [List.filter_cons]
      rcases List.mem_cons.mp member with rfl | active
      · constructor
        · intro found
          by_contra without
          rw [decide_eq_false without, if_neg Bool.false_ne_true] at found
          exact levelled.not_mem_wraps (inside found)
        · intro holds
          rw [decide_eq_true holds, if_pos rfl]
          exact List.mem_cons_self
      · split
        · rw [List.map_cons, List.mem_cons, ih levelled.2 active]
          exact or_iff_right (levelled.wraps_ne active)
        · exact ih levelled.2 active

/-- No layer below another one owns the wrappers of that one, so that arguments which the layers
below own are not wrapped by it.
-/
theorem Layer.Own.not_around (owned : Layer.Own below heap arguments)
    (levelled : Layer.Levelled (layer :: below))
    : ¬layer.Around heap arguments := by
  intro around
  rcases around with ⟨tensor, member, wrapped⟩
  exact levelled.not_mem_wraps ((owned tensor member).subset wrapped)

/-- A layer wraps one of the values that are handed on exactly if it wraps one of the arguments,
where it wraps each tensor and what stands for it alike.
-/
theorem Value.RelatedAll.around {relation : Tensor → Tensor → Prop}
    (related : Value.RelatedAll relation arguments inner)
    (same
      : ∀ tensor result,
          relation tensor result
          → (layer.wraps ∈ result.liveWrappers heap ↔ layer.wraps ∈ tensor.liveWrappers heap))
    : layer.Around heap inner ↔ layer.Around heap arguments := by
  apply not_iff_not.mp
  simp only [Layer.Around, not_exists, not_and]
  constructor
  · intro absent
    exact related.forall_left absent fun tensor result passes => mt (same tensor result passes).mpr
  · intro absent
    exact related.forall_right absent fun tensor result passes => mt (same tensor result passes).mp

-----------------------------------------------------------------------------------------
-- Tensors that are passed on
-----------------------------------------------------------------------------------------

theorem Machine.Passes.refl (machine : Machine) (owners : List Layer) (tensor : Tensor)
    : machine.Passes owners tensor tensor :=
  ⟨fun _ _ _ => Iff.rfl, id⟩

theorem Machine.Passes.trans {between : Tensor} (first : machine.Passes owners tensor between)
    (second : machine.Passes owners between result)
    : machine.Passes owners tensor result := by
  refine ⟨fun layer member kind => ?_, second.current ∘ first.current⟩
  exact (second.batches layer member kind).trans (first.batches layer member kind)

/-- Whether tensors are batched alike depends on the flags and on the registered levels only. -/
theorem Machine.Passes.congr (h : held.Passes owners tensor result)
    (flags : held.heap.flags = machine.heap.flags) (registry : held.registry = machine.registry)
    : machine.Passes owners tensor result := by
  constructor
  · intro layer member kind
    rw [← Tensor.liveWrappers_congr flags, ← Tensor.liveWrappers_congr flags]
    exact h.batches layer member kind
  · rw [← registry]
    exact h.current

/-- Where all tags are current they stay so when dead ones are taken off. -/
theorem Tensor.Current.unwrapDead {registry : Registry} (h : tensor.Current registry)
    : (tensor.unwrapDead heap).Current registry := by
  induction tensor with
  | dense cell => trivial
  | tagged cell level flag value ih =>
      rw [Tensor.unwrapDead]
      split
      · exact h
      · exact ih h.2
  | batched handle level value ih => exact h

/-- Tags are no batches: a batching layer wraps a tagged value exactly if it wraps the value,
whether the tag is alive or not.
-/
theorem Layer.wraps_tagged (kind : layer.kind = .batching) {cell level flag : Nat}
    : layer.wraps ∈ (Tensor.tagged cell level flag tensor).liveWrappers heap
      ↔ layer.wraps ∈ tensor.liveWrappers heap := by
  have apart : layer.wraps ≠ (.differentiation, level) := by
    rw [Layer.wraps, kind]
    intro same
    cases (Prod.mk.inj same).1
  rw [Tensor.liveWrappers]
  split
  · rw [List.mem_cons]
    exact or_iff_right apart
  · exact Iff.rfl

theorem Machine.passes_unwrapDead (machine : Machine) (owners : List Layer) (tensor : Tensor)
    : machine.Passes owners tensor (tensor.unwrapDead machine.heap) := by
  refine ⟨fun layer _ _ => ?_, Tensor.Current.unwrapDead⟩
  rw [Tensor.liveWrappers_unwrapDead]

/-- What a layer has received is batched as what it was given, because only tags come and go. -/
theorem Machine.Received.passes {memory : Memory}
    (received : machine.Received layer tensor result memory)
    : machine.Passes owners tensor result := by
  have bare := machine.passes_unwrapDead owners tensor
  cases received with
  | bare tagged => exact bare
  | tagged kind found =>
      refine bare.trans ⟨fun other _ batching => ?_, fun current => ⟨found, current⟩⟩
      exact Layer.wraps_tagged batching

theorem Tensor.Untagged.passes {level : Level} (h : tensor.Untagged level result)
    : machine.Passes owners tensor result := by
  rcases h with rfl | ⟨cell, flag, rfl⟩
  · exact .refl machine owners _
  · exact ⟨fun other _ batching => (Layer.wraps_tagged batching).symm, And.right⟩

mutual
theorem Value.Related.refl {relation : Tensor → Tensor → Prop} (value : Value)
    (reflexive : ∀ tensor ∈ value.tensors, relation tensor tensor)
    : Value.Related relation value value := by
  cases value with
  | tensor handle => exact .tensor (reflexive handle (List.mem_singleton_self handle))
  | list items => exact .list (Value.RelatedAll.refl items reflexive)
  | absent | bool _ | int _ | float _ | ints _ => exact .plain rfl

/-- Values are related to themselves if their tensors are, one value after another. -/
theorem Value.RelatedAll.refl {relation : Tensor → Tensor → Prop} (values : List Value)
    (reflexive : ∀ tensor ∈ Value.tensorsAll values, relation tensor tensor)
    : Value.RelatedAll relation values values := by
  cases values with
  | nil => exact .nil
  | cons value values =>
      refine .cons ?_ ?_
      · exact Value.Related.refl value fun tensor member =>
          reflexive tensor (List.mem_append_left _ member)
      · exact Value.RelatedAll.refl values fun tensor member =>
          reflexive tensor (List.mem_append_right _ member)
end

-----------------------------------------------------------------------------------------
-- From an inner call to the call around it
-----------------------------------------------------------------------------------------

/-- The arguments of a request are tensors and integers in the same places as what they stand for,
so that they are of the types that the operator asks for.
-/
theorem Schema.Typed.of_related {relation : Tensor → Tensor → Prop} (typed : op.Typed inner)
    (related : Value.RelatedAll relation arguments inner)
    : op.Typed arguments := by
  intro named
  rcases typed named with ⟨request, schema, rfl⟩
  cases request with
  | binary arithmetic left right =>
      cases related with
      | cons head tail =>
          cases tail with
          | cons next rest =>
              cases rest
              obtain ⟨first, rfl, -⟩ := head.to_tensor
              obtain ⟨second, rfl, -⟩ := next.to_tensor
              exact ⟨.binary arithmetic first second, schema, rfl⟩
  | neg input =>
      cases related with
      | cons head tail =>
          cases tail
          obtain ⟨first, rfl, -⟩ := head.to_tensor
          exact ⟨.neg first, schema, rfl⟩
  | unsqueeze input dim =>
      cases related with
      | cons head tail =>
          cases tail with
          | cons next rest =>
              cases rest
              obtain ⟨first, rfl, -⟩ := head.to_tensor
              cases next
              exact ⟨.unsqueeze first dim, schema, rfl⟩

/-- Whether a layer marks a call is decided by the batches around its arguments, and by the layers
that random operators have still to come to.
-/
theorem Ambient.marks_congr {ambient other : Ambient} {heap' : Heap} {name : String}
    (around
      : layer.kind = .batching → (layer.Around heap inner ↔ layer.Around heap' arguments))
    (drawing
      : name = "rand"
        → layer.transform.randomness? = some .different
        → (ambient.Drawing layer ↔ other.Drawing layer))
    : ambient.Marks heap name inner layer ↔ other.Marks heap' name arguments layer := by
  unfold Ambient.Marks
  cases kind : layer.kind with
  | differentiation => simp only [true_or]
  | batching =>
      rw [around kind]
      exact or_congr_right (or_congr_right (and_congr_right fun named =>
        and_congr_right (drawing named)))

/-- Tensors may be passed on one by one: values in which every tensor is batched as the argument in
its place tell as much of the wrappers.
-/
theorem Machine.Hands.of_related (related : Value.RelatedAll (machine.Passes owners) arguments inner)
    : machine.Hands op owners arguments inner where
  typed typed := typed.of_related related
  around layer member batching := related.around fun _ _ passes => passes.batches layer member batching
  current known := related.forall_right known fun _ _ passes => passes.current
  target _ result first := by
    cases related with
    | nil => cases first
    | cons head tail =>
        cases first
        obtain ⟨tensor, rfl, passes⟩ := head.to_tensor
        exact ⟨tensor, rfl, passes⟩

theorem Machine.Hands.refl (machine : Machine) (op : Schema) (owners : List Layer)
    (arguments : List Value)
    : machine.Hands op owners arguments arguments :=
  .of_related (.refl arguments fun tensor _ => .refl machine owners tensor)

/-- What an inner call gives on values that are handed on is what the call gives on the arguments.
The values tell as much of the wrappers, and where numbers are drawn the same layers are still to
come.
-/
theorem Machine.Wraps.of_inner (h : held.Wraps op owners inner result)
    (flags : held.heap.flags = machine.heap.flags) (registry : held.registry = machine.registry)
    (drawing
      : op.name = "rand"
        → ∀ layer ∈ owners,
            layer.transform.randomness? = some .different
            → (held.ambient.Drawing layer ↔ machine.ambient.Drawing layer))
    (hands : machine.Hands op owners arguments inner)
    : machine.Wraps op owners arguments result where
  typed := hands.typed h.typed
  wrappers := by
    rw [← Tensor.liveWrappers_congr flags, h.wrappers]
    refine congrArg (List.map Layer.wraps) (List.filter_congr fun layer member => ?_)
    refine decide_eq_decide.mpr (Ambient.marks_congr (fun batching => ?_) ?_)
    · have congr : layer.Around held.heap inner ↔ layer.Around machine.heap inner := by
        simp only [Layer.Around, Tensor.liveWrappers_congr flags]
      exact congr.trans (hands.around layer member batching)
    · exact fun named => drawing named layer member
  current known := by
    rw [← registry]
    refine h.current ?_
    rw [registry]
    exact hands.current known
  target inPlace := by
    rcases h.target inPlace with ⟨target, first, same⟩
    rcases hands.target inPlace target first with ⟨tensor, first, passes⟩
    refine ⟨tensor, first, fun layer member kind => ?_⟩
    rw [← passes.batches layer member kind, ← Tensor.liveWrappers_congr flags,
      ← Tensor.liveWrappers_congr flags]
    exact same layer member kind

/-- What an inner call gives, below a layer that marks the call, with the wrapper of this layer
around it. It is the first one, since the layer is above the others.
-/
theorem Machine.Wraps.marked {wrapped : Tensor} (h : machine.Wraps op below arguments result)
    (marks : machine.ambient.Marks machine.heap op.name arguments layer)
    (wraps
      : wrapped.liveWrappers machine.heap = layer.wraps :: result.liveWrappers machine.heap)
    (current : result.Current machine.registry → wrapped.Current machine.registry)
    (levelled : Layer.Levelled (layer :: below))
    (own : op.isInPlace = true → layer.kind = .differentiation)
    : machine.Wraps op (layer :: below) arguments wrapped where
  typed := h.typed
  wrappers := by
    rw [wraps, h.wrappers, List.filter_cons_of_pos (by simpa using marks)]
    rfl
  current := current ∘ h.current
  target inPlace := by
    rcases h.target inPlace with ⟨target, first, same⟩
    refine ⟨target, first, fun other member batching => ?_⟩
    rcases List.mem_cons.mp member with rfl | member
    · rw [own inPlace] at batching
      cases batching
    · rw [wraps, List.mem_cons, or_iff_right (levelled.wraps_ne member)]
      exact same other member batching

/-- What an inner call gives, below a layer that does not mark the call, is given as it is. The
target of an in-place call is then not wrapped by this layer either.
-/
theorem Machine.Wraps.unmarked (h : machine.Wraps op below arguments result)
    (marks : ¬machine.ambient.Marks machine.heap op.name arguments layer)
    (levelled : Layer.Levelled (layer :: below))
    : machine.Wraps op (layer :: below) arguments result where
  typed := h.typed
  wrappers := by
    rw [h.wrappers, List.filter_cons_of_neg (by simpa using marks)]
  current := h.current
  target inPlace := by
    rcases h.target inPlace with ⟨target, first, same⟩
    refine ⟨target, first, fun other member batching => ?_⟩
    rcases List.mem_cons.mp member with rfl | member
    · have bare : other.wraps ∉ result.liveWrappers machine.heap := by
        rw [h.wrappers]
        exact fun found => levelled.not_mem_wraps ((List.filter_sublist.map Layer.wraps).subset found)
      exact iff_of_false bare fun found =>
        marks (.inr (.inl ⟨target, Value.mem_tensorsAll_head first, found⟩))
    · exact same other member batching

-----------------------------------------------------------------------------------------
-- Calls that kernels issue
-----------------------------------------------------------------------------------------

/-- A call gives a result that is wrapped as the layers say, if it was given arguments that the layers
own. -/
theorem Contract.Holds.wraps (holds : Contract.wraps.Holds budget)
    (calling : held.Calling op owners) (registered : held.Registered)
    (values : held.values = outer ++ inner) (size : inner.length = op.arity)
    : ((nested budget).dispatch op).Leaves held
        (fun _ values _ =>
          ∃ result,
            values = outer ++ [.tensor result]
            ∧ held.Wraps op owners inner result
            ∧ Layer.Own owners held.heap inner)
        (fun _ _ => True) := by
  have called := holds calling registered
  have owned
      : ((nested budget).dispatch op).Leaves held
          (fun _ _ _ => Layer.Own owners held.heap (held.lastValues op.arity)) (fun _ _ => True) :=
    (owning_dispatchWithin budget).dispatch calling.member calling.owning
  rw [Machine.lastValues_append values size] at called owned
  rw [Machine.firstValues_append values size] at called
  apply (called.and owned).mono ?_ fun _ _ _ => trivial
  intro _ _ _ both
  rcases both with ⟨⟨result, left, wraps⟩, owned⟩
  exact ⟨result, left, wraps, owned⟩

/-- A call below a layer gives a result that is wrapped as the layers below say. All these layers
are ahead again, as they are for the call that leaves the layer.
-/
theorem Contract.Holds.wraps_below (holds : Contract.wraps.Holds budget)
    (member : op ∈ Base.schemas) (above : machine.Above layer below)
    (registered : machine.Registered) (values : machine.values = outer ++ inner)
    (size : inner.length = op.arity) (ahead : machine.ambient.ahead = below)
    (hands : machine.Hands op below arguments inner)
    : (dispatchBelow (nested budget) op layer).Leaves machine
        (fun _ values _ =>
          ∃ result,
            values = outer ++ [.tensor result]
            ∧ machine.Wraps op below arguments result
            ∧ Layer.Own below machine.heap inner)
        (fun _ _ => True) := by
  refine .dispatchBelow above.top above.grounded.levelled.1 (fun _ => trivial) ?_
  intro held atHeld
  have left : held.ambient = machine.ambient.leave layer below := atHeld.ambient
  have registered' : held.Registered := by
    refine registered.shifted atHeld fun lower active => ?_
    rw [above.top]
    exact List.mem_cons_of_mem _ active
  apply (holds.wraps (above.leave member left) registered' (atHeld.values.trans values)
    size).mono ?_ fun _ _ => id
  intro _ _ _ given
  rcases given with ⟨result, left', wraps, owned⟩
  refine ⟨result, left', wraps.of_inner (congrArg Heap.flags atHeld.heap) atHeld.registry ?_ hands,
    atHeld.heap ▸ owned⟩
  intro _ lower active _
  have aheadHeld : held.ambient.ahead = below := by
    rw [left]
    exact machine.ambient.ahead_leave layer below
  exact iff_of_true (.inl (aheadHeld ▸ active)) (.inl (ahead ▸ active))

theorem Layer.kind_of_randomness? {policy : Randomness}
    (found : layer.transform.randomness? = some policy)
    : layer.kind = .batching := by
  unfold Layer.kind
  cases transform : layer.transform with
  | differentiation grad forwardGrad => simp [transform, Transform.randomness?] at found
  | batching size randomness => rfl

-----------------------------------------------------------------------------------------
-- Below and around all layers
-----------------------------------------------------------------------------------------

/-- Below all layers a base kernel gives a dense tensor, either a new one or its target. There are
no layers that could mark the call.
-/
theorem wraps_base {kernel : Kernel} (poses : machine.Poses op)
    (found : baseKernel? op.name = some kernel)
    : Contract.wraps (budget + 1) [] op machine (kernel.run (nested budget) op) := by
  intro _
  cases inPlace : op.isInPlace with
  | false =>
      have makes := Base.makes_baseKernel (nested budget) poses found inPlace
      apply makes.mono ?_ fun _ _ _ => trivial
      intro _ values _ left
      rcases left with ⟨storage, makes, left, -, -⟩
      refine ⟨_, left, makes.typed, rfl, fun _ => trivial, fun written => ?_⟩
      rw [inPlace] at written
      cases written
  | true =>
      have writes := Base.writes_baseKernel (nested budget) poses found inPlace
      apply writes.mono ?_ fun _ _ _ => trivial
      intro _ values _ left
      rcases left with ⟨target, storage, writes, left, -⟩
      have dense := writes.dense
      cases target with
      | tagged cell level flag value => cases dense
      | batched handle level value => cases dense
      | dense cell =>
          refine ⟨_, left, fun named => ?_, rfl, fun _ => trivial, fun _ => ?_⟩
          · rcases Schema.inPlace_cases poses.member inPlace with rfl | rfl
            · exact absurd named (by decide)
            · exact absurd named (by decide)
          · exact ⟨_, writes.first, List.forall_mem_nil _⟩

/-- Outside all layers the call goes on without dead wrappers, which changes no batches. There are
no layers to wrap its result.
-/
theorem wraps_outside (holds : Contract.wraps.Holds budget) (poses : machine.Poses op)
    (atBase : machine.AtBase)
    : Contract.wraps (budget + 1) [] op machine
        (deadWrapperFallback.run (nested budget) op) := by
  intro registered
  have size := Machine.lastValues_length poses.enough
  have present := machine.values_eq op.arity
  generalize machine.firstValues op.arity = outer at present ⊢
  generalize machine.lastValues op.arity = arguments at present size ⊢
  unfold deadWrapperFallback
  simp only
  have persists : Memory.Persists (fun _ _ => True) fun _ => machine.Passes [] :=
    ⟨fun _ => trivial, fun _ _ => trivial, fun passes _ => passes⟩
  rw [← size]
  refine (Leaves.mapLast persists present ?_).bind ?_
  · intro tensor _ start resumes _ _
    refine (quiet_read _).leaves_step rfl ?_
    split
    · exact leaves_fault trivial trivial
    · have passes := (start.passes_unwrapDead [] tensor).congr resumes.flags resumes.registry
      exact leaves_pure ⟨rfl, trivial, passes⟩
  intro _ bared _ resumes left
  rcases left with ⟨inner, values, -, related⟩
  have calling : machine.Calling op [] :=
    .of_layers poses.member (.base atBase.layers atBase.overlay) atBase.layers
  have called := holds.wraps (calling.resumes resumes) (registered.resumes resumes) values
    (related.length_eq.trans size)
  apply called.mono ?_ fun _ _ => id
  intro _ _ _ given
  rcases given with ⟨result, left, wraps, -⟩
  exact ⟨result, left, wraps.of_inner resumes.flags resumes.registry (fun _ => List.forall_mem_nil _)
    (.of_related related)⟩

-----------------------------------------------------------------------------------------
-- The kernels around layers
-----------------------------------------------------------------------------------------

theorem TransformKind.entryOverlay_batchMode (overlay : Overlay)
    : (TransformKind.batching.entryOverlay overlay).forces .batchMode := by
  constructor <;> simp [entryOverlay, Overlay.enable]

/-- In front of a layer the call is handed to its body. Tags that the layer puts around its
arguments are no batches, and the layers that random operators have still to come to are the same:
the layer itself because it has just been entered, the others because they are ahead.
-/
theorem wraps_enter (holds : Contract.wraps.Holds budget) (poses : machine.Poses op)
    (above : machine.Above layer below)
    (front : machine.thread.overlay.forces .entryInterceptor)
    : Contract.wraps (budget + 1) (layer :: below) op machine
        (entryInterceptor.run (nested budget) op) := by
  intro registered
  have ahead := above.ahead_front front
  have size := Machine.lastValues_length poses.enough
  have present := machine.values_eq op.arity
  generalize machine.firstValues op.arity = outer at present ⊢
  generalize machine.lastValues op.arity = arguments at present size ⊢
  refine .enter above.top ?_
  intro logged resumes atLogged
  refine (still_noting.refuseCapturedMutation op layer).leaves_bind (fun _ => trivial) ?_
  intro _ checked passed _ _
  obtain rfl := refuseCapturedMutation_ok passed
  have persists : Memory.Persists (fun _ _ => True) fun _ => machine.Passes (layer :: below) :=
    ⟨fun _ => trivial, fun _ _ => trivial, fun passes _ => passes⟩
  rw [← size]
  refine (Leaves.mapLast persists (atLogged.values.trans present) ?_).bind ?_
  · intro tensor _ start later _ _
    have resumed := resumes.trans later
    apply (leaves_receive layer tensor fun _ => trivial).mono ?_ fun _ _ => id
    intro result _ _ received
    exact ⟨received.1, trivial, received.2.passes.congr resumed.flags resumed.registry⟩
  intro _ received _ later left
  rcases left with ⟨inner, values, -, related⟩
  have resumed := resumes.trans later
  refine (quiet_read _).leaves_step rfl ?_
  refine .holding (moves_replaceOverlay _ received) ?_
  intro held atHeld
  have above' : received.Above layer below := ⟨resumed.layers.trans above.top, above.grounded⟩
  have entered : held.ambient = received.ambient.enter layer.kind := atHeld.ambient
  have registered' : held.Registered :=
    (registered.resumes resumed).shifted atHeld fun _ active => active
  have called := holds.wraps (above'.enter poses.member entered) registered'
    (atHeld.values.trans values) (related.length_eq.trans size)
  apply called.mono ?_ fun _ _ => id
  intro _ _ _ given
  rcases given with ⟨result, left, wraps, -⟩
  have flags : held.heap.flags = machine.heap.flags :=
    (congrArg Heap.flags atHeld.heap).trans resumed.flags
  refine ⟨result, left,
    wraps.of_inner flags (atHeld.registry.trans resumed.registry) (fun _ other member own => ?_)
      (.of_related related)⟩
  refine iff_of_true ?_ (.inl (ahead ▸ member))
  rw [entered]
  rcases List.mem_cons.mp member with rfl | member
  · rw [Layer.kind_of_randomness? own]
    exact .inr (TransformKind.entryOverlay_batchMode _)
  · refine .inl ?_
    rw [Ambient.ahead_enter above'.top]
    exact member

/-- Recording what produced a result leaves the result where it is, and makes and writes no storage.
Only a tag of the level is written to, which keeps its shape.
-/
theorem leaves_recordGradFns {level : Level} {failed : Exit → Memory → Prop} (recording : Bool)
    (single : op.resultCount = 1) (values : machine.values = outer ++ [.tensor result])
    : Leaves
        (do
          if recording then
            forTensors (← peek op.resultCount) fun tensor => do
              if tensor.taggedLevel? = some level then
                onHeap fun heap => heap.recordGradFn op.name tensor)
        machine
        (fun _ values memory =>
          values = machine.values
          ∧ machine.heap.Grows memory.heap
          ∧ memory.heap.storages = machine.heap.storages
          ∧ memory.heap.wrappers.size = machine.heap.wrappers.size)
        failed := by
  split
  · have results : peek op.resultCount machine = .ok [.tensor result] machine := by
      rw [single]
      exact peek_append values
    refine (quiet_writing.peek _).leaves_step results ?_
    rw [forTensors_tensor]
    split
    · refine Quiet.leaves (quiet_onHeap fun heap => ?_) rfl
        ⟨rfl, Heap.grows_recordGradFn _ _ _, ?_, ?_⟩
      · cases result <;> rfl
      · cases result <;> rfl
      · cases result with
        | tagged cell level flag value => exact Array.size_setIfInBounds
        | dense cell => rfl
        | batched handle level value => rfl
    · exact leaves_pure ⟨rfl, .refl _, rfl, rfl⟩
  · exact leaves_pure ⟨rfl, .refl _, rfl, rfl⟩

/-- The body of a differentiation layer hands the call on and records it. The layers that random
operators have still to come to stay the same, as the layer is no batching layer.
-/
theorem wraps_differentiate (holds : Contract.wraps.Holds budget) (poses : machine.Poses op)
    (within : machine.InBody layer below) (kind : layer.kind = .differentiation)
    : Contract.wraps (budget + 1) (layer :: below) op machine
        (differentiationBody.run (nested budget) op) := by
  intro registered
  have size := Machine.lastValues_length poses.enough
  have present := machine.values_eq op.arity
  generalize machine.firstValues op.arity = outer at present ⊢
  generalize machine.lastValues op.arity = arguments at present size ⊢
  refine quiet_writing.currentLayer.leaves_step (currentLayer_apply within.top) ?_
  refine (quiet_read _).leaves_step rfl ?_
  have called
      : (Run.holding (Guard.hide TransformKind.differentiation.owned)
          ((nested budget).dispatch op)).Leaves machine
          (fun _ values _ =>
            ∃ result,
              values = outer ++ [.tensor result]
              ∧ machine.Wraps op (layer :: below) arguments result)
          (fun _ _ => True) := by
    refine .holding (moves_hide _ machine) ?_
    intro held atHeld
    have hidden : held.ambient = machine.ambient.hide TransformKind.differentiation.owned :=
      atHeld.ambient
    have inner := holds.wraps (within.hideDifferentiation kind poses.member hidden)
      (registered.shifted atHeld fun _ active => active) (atHeld.values.trans present) size
    apply inner.mono ?_ fun _ _ => id
    intro _ _ _ given
    rcases given with ⟨result, left, wraps, -⟩
    refine ⟨result, left, wraps.of_inner (congrArg Heap.flags atHeld.heap) atHeld.registry ?_
      (.refl machine op _ arguments)⟩
    intro _ other member own
    rcases List.mem_cons.mp member with rfl | member
    · have batching := Layer.kind_of_randomness? own
      rw [kind] at batching
      cases batching
    · refine iff_of_true (.inl ?_) (.inl ?_)
      · rwa [hidden, within.ahead_hide]
      · rwa [within.ahead]
  refine called.bind ?_
  intro _ reached _ _ given
  rcases given with ⟨result, values, wraps⟩
  have single := Schema.resultCount_eq_one poses.member
  refine Leaves.mono (leaves_recordGradFns _ single values) ?_ fun _ _ => id
  intro _ _ _ left
  exact ⟨result, left.1.trans values, wraps⟩

/-- On the way out of a differentiation layer the result from below gets its tag. The layer marks
every call, and looking again at the arguments changes no wrapper.
-/
theorem wraps_leaveDifferentiation (holds : Contract.wraps.Holds budget)
    (poses : machine.Poses op) (within : machine.InBody layer below)
    (kind : layer.kind = .differentiation)
    : Contract.wraps (budget + 1) (layer :: below) op machine
        (exitInterceptor.run (nested budget) op) := by
  intro registered
  have size := Machine.lastValues_length poses.enough
  have present := machine.values_eq op.arity
  generalize machine.firstValues op.arity = outer at present ⊢
  generalize machine.lastValues op.arity = arguments at present size ⊢
  refine quiet_writing.currentLayer.leaves_step (currentLayer_apply within.top) ?_
  simp only [kind]
  refine (leaves_copyUntagged present size fun _ => trivial).bind ?_
  intro _ copied _ resumes left
  rcases left with ⟨inner, values, -, related⟩
  have above : copied.Above layer below := ⟨resumes.layers.trans within.top, within.grounded⟩
  have ahead : copied.ambient.ahead = below := (Ambient.ahead_resumes resumes).trans within.ahead
  have passes : Value.RelatedAll (copied.Passes below) arguments inner :=
    related.mono fun _ _ untagged => untagged.passes
  refine (holds.wraps_below poses.member above (registered.resumes resumes) values
    (related.length_eq.trans size) ahead (.of_related passes)).bind ?_
  intro _ reached _ later given
  rcases given with ⟨result, values, wraps, -⟩
  have resumed := resumes.trans later
  have single := Schema.resultCount_eq_one poses.member
  refine (leaves_tagResults values size single fun _ _ => trivial).mono ?_ fun _ _ => id
  intro _ _ _ tagged
  rcases tagged with ⟨flag, found, values, -⟩
  have active : layer ∈ machine.thread.layers := by
    rw [within.top]
    exact List.mem_cons_self
  obtain ⟨own, registers, alive⟩ := registered layer active
  rw [resumed.registry, registers] at found
  cases found
  have wraps' : machine.Wraps op below arguments result := by
    refine wraps.of_inner resumes.flags resumes.registry (fun _ lower member _ => ?_)
      (.refl machine op below arguments)
    exact iff_of_true (.inl (ahead ▸ member)) (.inl (within.ahead ▸ member))
  refine ⟨_, values, wraps'.marked (.inl kind) ?_ (fun current => ⟨registers, current⟩)
    within.grounded.levelled fun _ => kind⟩
  rw [Heap.newTagged, Tensor.liveWrappers, if_pos alive, Layer.wraps, kind]

theorem Machine.InBody.not_ahead (within : machine.InBody layer below)
    : layer ∉ machine.ambient.ahead := by
  rw [within.ahead]
  exact fun member => within.grounded.levelled.below_ne member rfl

/-- On the way out of a batching layer the result from below is given as it is. The layer does not
mark the call: none of the arguments is a batch of it, and numbers have been drawn for it before.
-/
theorem wraps_leaveBatching (holds : Contract.wraps.Holds budget) (poses : machine.Poses op)
    (within : machine.InBody layer below) (kind : layer.kind = .batching)
    (drawn : op.name = "rand" → ¬machine.thread.overlay.forces .batchMode)
    (owned : owners = below ∨ owners = layer :: below)
    : Contract.wraps (budget + 1) owners op machine
        (exitInterceptor.run (nested budget) op) := by
  intro registered
  have size := Machine.lastValues_length poses.enough
  have present := machine.values_eq op.arity
  generalize machine.firstValues op.arity = outer at present ⊢
  generalize machine.lastValues op.arity = arguments at present size ⊢
  refine quiet_writing.currentLayer.leaves_step (currentLayer_apply within.top) ?_
  simp only [kind]
  have called := holds.wraps_below poses.member within.toAbove registered present size within.ahead
    (.refl machine op below arguments)
  apply called.mono ?_ fun _ _ => id
  intro _ _ _ given
  rcases given with ⟨result, left, wraps, own⟩
  rcases owned with rfl | rfl
  · exact ⟨result, left, wraps⟩
  · refine ⟨result, left, wraps.unmarked ?_ within.grounded.levelled⟩
    intro marks
    rcases marks with differentiates | around | ⟨named, -, ahead | forces⟩
    · rw [kind] at differentiates
      cases differentiates
    · exact own.not_around within.grounded.levelled around
    · exact within.not_ahead ahead
    · exact drawn named forces

end

end LayeredDispatch
