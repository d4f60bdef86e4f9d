import LayeredDispatch.Proofs.Effects.Steadiness
import LayeredDispatch.Proofs.Results.Handing

/-! Results fit the layers that a call is above. Operators with a rule for batches answer requests;
this is about the others and about in-place addition, which gives back a handle of its caller. Main
statement: their results fit the layers as well, and unless a handle is given back all tags around
them are new, so that looking again at the tags around the arguments makes none of them stale.
-/

namespace LayeredDispatch

open Run Dispatcher

/-- The result of an operator that is asked for in no request. Numbers are drawn into a tensor of the
shape that was asked for.
-/
structure Schema.Places (op : Schema) (owners : List Layer) (arguments : List Value)
    (before after : Heap) (result : Tensor)
    : Prop where
  fits : result.Fits after owners
  counted : before.wrappers.size ≤ after.wrappers.size
  fresh : op.name ≠ "add_" → ∀ tag ∈ result.tags, before.wrappers.size ≤ tag.1
  drawn
    : op.name = "rand"
      → ∃ sizes,
          Value.sizesAt arguments op.name 0 = .ok sizes
          ∧ ((∀ size ∈ sizes, size < Size.bound) → result.shape after = ⟨sizes⟩)

/-- Layers whose batches have a size that is one. -/
def Layer.Bounded (layers : List Layer) : Prop :=
  ∀ layer ∈ layers, ∀ size, layer.transform.batchSize? = some size → size < Size.bound

/-- Calls of operators that are asked for in no request give results that fit the layers. -/
def Contract.places : Contract :=
  fun budget owners op machine body =>
    ∀ outer arguments,
      op.name ∉ ["add", "mul", "neg", "unsqueeze"]
      → Layer.Bounded owners
      → machine.Supplied budget op owners outer arguments
      → body.Leaves machine
          (fun _ values memory =>
            ∃ result,
              values = outer ++ [.tensor result]
              ∧ op.Places owners arguments machine.heap memory.heap result)
          (fun _ _ => True)

section

variable {machine held : Machine} {op : Schema} {owners below layers : List Layer} {layer : Layer}
  {arguments inner outer : List Value} {tensor result : Tensor} {budget : Nat}
  {heap before after : Heap}

-----------------------------------------------------------------------------------------
-- Heaps that leave the tags around a tensor alone
-----------------------------------------------------------------------------------------

theorem Heap.Grows.counted (h : before.Grows after)
    : before.wrappers.size ≤ after.wrappers.size := by
  rcases Nat.eq_zero_or_pos before.wrappers.size with none | some
  · omega
  · have last := (h.wrappers (before.wrappers.size - 1) (by omega)).1
    omega

/-- A tensor goes on to fit the layers where only other tags are changed, and keeps its shape.
Flags, storages and the shapes that its own tags remember are all that counts, by induction on its
wrappers.
-/
theorem Tensor.Fits.of_tags (h : tensor.Fits before layers) (flags : after.flags = before.flags)
    (storages : after.storages = before.storages)
    (kept
      : ∀ tag ∈ tensor.tags,
          tag.1 < before.wrappers.size
          → tag.1 < after.wrappers.size
            ∧ (after.wrapper tag.1).shape = (before.wrapper tag.1).shape)
    : tensor.Fits after layers ∧ tensor.shape after = tensor.shape before := by
  have read (cell : Nat) : after.storage cell = before.storage cell := by
    rw [Heap.storage, Heap.storage, storages]
  induction h with
  | dense present sized =>
      refine ⟨.dense (by rwa [storages]) (by rwa [read]), ?_⟩
      rw [shape, shape, read]
  | alone fits ih =>
      obtain ⟨fits, same⟩ := ih kept
      exact ⟨.alone fits, same⟩
  | tagged kind alive present accurate fits ih =>
      obtain ⟨own, others⟩ := List.forall_mem_cons.mp kept
      obtain ⟨inside, same⟩ := own present
      obtain ⟨fits, inner⟩ := ih others
      have alive' := (Heap.isAlive_congr flags _).trans alive
      constructor
      · refine .tagged kind alive' inside ?_ fits
        rw [same, accurate, inner]
      · rw [shape, shape, if_pos alive', if_pos alive, same]
  | batched batch outermost fits ih =>
      obtain ⟨fits, inner⟩ := ih kept
      constructor
      · refine .batched batch ?_ fits
        rwa [inner]
      · rw [shape, shape, inner]

/-- Looking again at the outermost tag of a tensor leaves a tag alone that is none around the
tensor.
-/
theorem Heap.wrapper_refresh_of_tags {cell : Nat} (apart : ∀ tag ∈ tensor.tags, tag.1 ≠ cell)
    : (heap.refresh tensor).wrapper cell = heap.wrapper cell := by
  cases tensor with
  | dense other => rfl
  | batched handle level value => rfl
  | tagged other level flag value =>
      exact heap.wrapper_refresh_other (apart _ List.mem_cons_self)

theorem Heap.size_wrappers_refresh (heap : Heap) (tensor : Tensor)
    : (heap.refresh tensor).wrappers.size = heap.wrappers.size := by
  cases tensor with
  | dense cell => rfl
  | batched handle level value => rfl
  | tagged cell level flag value => simp [refresh, setWrapper]

/-- Looking again at some tags leaves the others as they are. In particular it leaves those alone
that have been made later than all of them.
-/
theorem Heap.refreshed_other (heap : Heap) {tensors : List Tensor} {count : Nat}
    (old : ∀ tensor ∈ tensors, ∀ tag ∈ tensor.tags, tag.1 < count)
    : (tensors.foldl refresh heap).flags = heap.flags
      ∧ (tensors.foldl refresh heap).storages = heap.storages
      ∧ (tensors.foldl refresh heap).wrappers.size = heap.wrappers.size
      ∧ ∀ cell,
          count ≤ cell
          → (tensors.foldl refresh heap).wrapper cell = heap.wrapper cell := by
  induction tensors generalizing heap with
  | nil => exact ⟨rfl, rfl, rfl, fun _ _ => rfl⟩
  | cons tensor tensors ih =>
      obtain ⟨own, others⟩ := List.forall_mem_cons.mp old
      obtain ⟨flags, storages, size, kept⟩ := ih (heap.refresh tensor) others
      refine ⟨flags.trans ?_, storages.trans ?_, size.trans (heap.size_wrappers_refresh tensor), ?_⟩
      · cases tensor <;> rfl
      · cases tensor <;> rfl
      · intro cell later
        rw [List.foldl_cons, kept cell later]
        refine Heap.wrapper_refresh_of_tags fun tag member same => ?_
        exact absurd (own tag member) (same ▸ Nat.not_lt_of_le later)

/-- Looking again at tags that are up to date changes nothing that counts, by induction on the
tensors: each of them still fits the layers after those before it.
-/
theorem Heap.grows_refreshAll {heap : Heap} {tensors : List Tensor}
    (fits : ∀ tensor ∈ tensors, tensor.Fits heap layers)
    : heap.Grows (tensors.foldl refresh heap) := by
  induction tensors generalizing heap with
  | nil => exact .refl heap
  | cons tensor tensors ih =>
      obtain ⟨own, others⟩ := List.forall_mem_cons.mp fits
      have grows := Heap.grows_refresh own
      exact grows.trans (ih fun tensor member => ((others tensor member).grows grows).fits)

-----------------------------------------------------------------------------------------
-- From an inner call to the call around it
-----------------------------------------------------------------------------------------

/-- What stands for tensors is of no account to sizes, because sizes are related to themselves only.
-/
theorem Value.RelatedAll.sizesAt_eq {relation : Tensor → Tensor → Prop}
    (related : RelatedAll relation arguments inner) (name : String)
    : Value.sizesAt inner name 0 = Value.sizesAt arguments name 0 := by
  cases related with
  | nil => rfl
  | cons head tail =>
      cases head with
      | tensor related => rfl
      | list related => rfl
      | plain plain => rfl

/-- What a call places that was handed on, the call that hands it on places, as tags have only been
added in between.
-/
theorem Machine.HandsOn.places
    (handed : machine.HandsOn held budget op owners outer arguments inner)
    (h : op.Places owners inner held.heap after result)
    : op.Places owners arguments machine.heap after result where
  fits := h.fits
  counted := Nat.le_trans handed.grows.counted h.counted
  fresh named tag member := Nat.le_trans handed.grows.counted (h.fresh named tag member)
  drawn named := by
    rw [← handed.related.sizesAt_eq]
    exact h.drawn named

/-- A result that has been placed stays so in storage that grows. -/
theorem Schema.Places.grows {later : Heap} (h : op.Places owners arguments before after result)
    (grows : after.Grows later)
    : op.Places owners arguments before later result where
  fits := (h.fits.grows grows).fits
  counted := Nat.le_trans h.counted grows.counted
  fresh := h.fresh
  drawn named := by
    rcases h.drawn named with ⟨sizes, given, shape⟩
    exact ⟨sizes, given, fun bounded => (h.fits.grows grows).shape.trans (shape bounded)⟩

/-- A result that fits the layers below a layer fits that layer too, which owns none of its
wrappers.
-/
theorem Schema.Places.above (h : op.Places below arguments before after result)
    : op.Places (layer :: below) arguments before after result :=
  { h with fits := .alone h.fits }

/-- A call that is handed on places its result for the call that hands it on. -/
theorem Contract.Holds.places (holds : Contract.places.Holds budget)
    (handed : machine.HandsOn held budget op owners outer arguments inner)
    (named : op.name ∉ ["add", "mul", "neg", "unsqueeze"]) (bounded : Layer.Bounded owners)
    : ((nested budget).dispatch op).Leaves held
        (fun _ values memory =>
          ∃ result,
            values = outer ++ [.tensor result]
            ∧ op.Places owners arguments machine.heap memory.heap result)
        (fun _ _ => True) := by
  have called := holds handed.supplied.toCalling outer inner named bounded handed.supplied
  apply Leaves.mono called
  · intro _ _ _ left
    rcases left with ⟨result, values, places⟩
    exact ⟨result, values, handed.places places⟩
  · exact fun _ _ => id

theorem Layer.Bounded.lower (h : Layer.Bounded (layer :: below)) : Layer.Bounded below :=
  fun lower member => h lower (List.mem_cons_of_mem _ member)

-----------------------------------------------------------------------------------------
-- Below all layers
-----------------------------------------------------------------------------------------

/-- Below all layers a base kernel either makes a new storage, to which no tag belongs, or writes to
that of its target. In both cases the elements are as many as the shape says, and a random operator
gives the shape that was asked for.
-/
theorem places_base {kernel : Kernel} (poses : machine.Poses op)
    (found : baseKernel? op.name = some kernel)
    : Contract.places (budget + 1) [] op machine (kernel.run (nested budget) op) := by
  intro outer arguments named bounded supplied
  have last := Machine.lastValues_append supplied.values supplied.size
  have first := Machine.firstValues_append supplied.values supplied.size
  cases inPlace : op.isInPlace with
  | false =>
      have makes := Base.makes_baseKernel (nested budget) poses found inPlace
      unfold Run.Makes at makes
      rw [last, first] at makes
      apply makes.mono ?_ fun _ _ _ => trivial
      intro _ _ memory left
      rcases left with ⟨storage, makes, left, heap, -⟩
      refine ⟨_, left, ?_⟩
      rw [heap]
      have read := Heap.storage_newDense machine.heap storage
      refine ⟨.dense (by simp [Heap.newDense]) ?_, Nat.le_refl _, fun _ => List.forall_mem_nil _,
        fun random => ?_⟩
      · rw [read]
        refine makes.sized fun tensor member => ?_
        obtain ⟨cell, rfl, -, sized⟩ := (supplied.fits tensor member).eq_dense
        exact sized
      · rcases makes.drawn random with ⟨sizes, given, shape⟩
        exact ⟨sizes, given, fun _ => (congrArg Storage.shape read).trans shape⟩
  | true =>
      have writes := Base.writes_baseKernel (nested budget) poses found inPlace
      unfold Run.Writes at writes
      rw [last, first] at writes
      apply writes.mono ?_ fun _ _ _ => trivial
      intro _ _ memory left
      rcases left with ⟨target, storage, writes, left, rfl⟩
      have member := Value.mem_tensorsAll_head writes.first
      obtain ⟨cell, rfl, present, -⟩ := (supplied.fits target member).eq_dense
      refine ⟨_, left, .dense (by simpa [Heap.setStorage] using present) ?_, Nat.le_refl _,
        fun _ => List.forall_mem_nil _, fun random => ?_⟩
      · have read := Heap.storage_setStorage_same machine.heap cell storage present
        exact read.symm ▸ writes.sized
      · have pure := congrArg Schema.isInPlace (Contract.eq_rand poses.member random)
        rw [inPlace] at pure
        cases pure

/-- Outside all layers the call is handed on without dead wrappers, which keeps its arguments
fitting.
-/
theorem places_outside (holds : Contract.places.Holds budget) (atBase : machine.AtBase)
    : Contract.places (budget + 1) [] op machine
        (deadWrapperFallback.run (nested budget) op) := by
  intro outer arguments named bounded supplied
  exact leaves_outside supplied atBase fun held given handed => holds.places handed named bounded

-----------------------------------------------------------------------------------------
-- The kernels around layers
-----------------------------------------------------------------------------------------

/-- In front of a layer the call is handed to its body, on arguments that take the places of those
given.
-/
theorem places_enter (holds : Contract.places.Holds budget) (above : machine.Above layer below)
    (front : machine.thread.overlay.forces .entryInterceptor)
    : Contract.places (budget + 1) (layer :: below) op machine
        (entryInterceptor.run (nested budget) op) := by
  intro outer arguments named bounded supplied
  exact leaves_entry supplied above front (fun _ _ _ => trivial) fun held given handed =>
    holds.places handed named bounded

/-- The body of a differentiation layer hands the call on and then records what produced the result,
which changes no shape and no storage.
-/
theorem places_differentiate (holds : Contract.places.Holds budget) (poses : machine.Poses op)
    (within : machine.InBody layer below) (kind : layer.kind = .differentiation)
    (shown : machine.thread.overlay.excluded.contains .differentiation = false)
    : Contract.places (budget + 1) (layer :: below) op machine
        (differentiationBody.run (nested budget) op) := by
  intro outer arguments named bounded supplied
  refine quiet_writing.currentLayer.leaves_step (currentLayer_apply within.top) ?_
  refine (quiet_read _).leaves_step rfl ?_
  refine Leaves.bind (leaves_hidden supplied within kind shown fun held handed =>
    holds.places handed named bounded) ?_
  intro _ reached _ _ left
  rcases left with ⟨result, values, places⟩
  have single := Schema.resultCount_eq_one poses.member
  refine Leaves.mono (leaves_recordGradFns _ single values) ?_ fun _ _ => id
  intro _ _ _ left
  exact ⟨result, left.1.trans values, places.grows left.2.1⟩

/-- A new tag around a result that fits the layers below. The tags around the arguments, which are
looked at again, are other ones, or up to date.
-/
theorem Schema.Places.tagged {flag : Nat} (h : op.Places below arguments before after result)
    (kind : layer.kind = .differentiation) (alive : after.isAlive flag = true)
    (fits : ∀ tensor ∈ Value.tensorsAll arguments, tensor.Fits before (layer :: below))
    (steady
      : op.name = "add_"
        → ∀ tensor ∈ Value.tensorsAll arguments, tensor.Fits after (layer :: below))
    : op.Places (layer :: below) arguments before
        ((Value.tensorsAll arguments).foldl Heap.refresh
          (after.newTagged result layer.level flag).2)
        (after.newTagged result layer.level flag).1 := by
  let tagged := (after.newTagged result layer.level flag).2
  have grown := after.grows_newTagged result layer.level flag
  have stands := h.fits.standsFor_newTagged kind alive
  have old : ∀ tensor ∈ Value.tensorsAll arguments, ∀ tag ∈ tensor.tags,
      tag.1 < before.wrappers.size :=
    fun tensor member tag found => ((fits tensor member).suits.tags found).1
  obtain ⟨flags, storages, size, others⟩ := tagged.refreshed_other old
  have kept
      : (after.newTagged result layer.level flag).1.Fits
            ((Value.tensorsAll arguments).foldl Heap.refresh tagged) (layer :: below)
        ∧ (after.newTagged result layer.level flag).1.shape
              ((Value.tensorsAll arguments).foldl Heap.refresh tagged)
            = (after.newTagged result layer.level flag).1.shape tagged := by
    by_cases added : op.name = "add_"
    · have grows : tagged.Grows ((Value.tensorsAll arguments).foldl Heap.refresh tagged) :=
        Heap.grows_refreshAll fun tensor member => ((steady added tensor member).grows grown).fits
      have later := stands.fits.grows grows
      exact ⟨later.fits, later.shape⟩
    · refine stands.fits.of_tags flags storages fun tag member inside => ?_
      have apart : before.wrappers.size ≤ tag.1 := by
        rcases List.mem_cons.mp member with rfl | member
        · exact h.counted
        · exact h.fresh added tag member
      exact ⟨by rwa [size], congrArg Wrapper.shape (others _ apart)⟩
  refine ⟨kept.1, ?_, fun named => ?_, fun named => ?_⟩
  · rw [size]
    exact Nat.le_trans h.counted grown.counted
  · exact List.forall_mem_cons.mpr ⟨h.counted, h.fresh named⟩
  · rcases h.drawn named with ⟨sizes, given, shape⟩
    refine ⟨sizes, given, fun bounded => ?_⟩
    rw [kept.2, stands.shape, shape bounded]

/-- On the way out of a differentiation layer the result from below gets a new tag. In-place
addition has left the shapes of the arguments as they were, so that looking at them again changes
nothing. For other operators the new tag is later than those around the arguments.
-/
theorem places_leaveDifferentiation (holds : Contract.places.Holds budget)
    (within : machine.InBody layer below) (kind : layer.kind = .differentiation)
    : Contract.places (budget + 1) (layer :: below) op machine
        (exitInterceptor.run (nested budget) op) := by
  intro outer arguments named bounded supplied
  refine @leaves_tagging machine op below layer arguments outer budget
    (fun _ values memory =>
      ∃ result,
        values = outer ++ [.tensor result]
        ∧ op.Places (layer :: below) arguments machine.heap memory.heap result)
    (fun _ _ => True)
    (fun result memory =>
      op.Places below arguments machine.heap memory.heap result
      ∧ (op.name = "add_"
        → ∀ tensor ∈ Value.tensorsAll arguments, tensor.Fits memory.heap (layer :: below)))
    supplied within kind ?_ ?_
  · intro held given handed
    have called := holds.places handed named bounded.lower
    by_cases added : op.name = "add_"
    · have supplied' := handed.supplied
      have steady
          : ((nested budget).dispatch op).Leaves held
              (fun _ _ memory => held.heap.Steady memory.heap)
              (fun _ memory => held.heap.Steady memory.heap) := by
        refine @leaves_steady below given held op below (outer ++ arguments) budget
          supplied'.toCalling supplied'.values supplied'.size ?_ ?_
        · rw [added]
          decide
        · exact fun tensor member => (supplied'.fits tensor member).suits
      apply Leaves.mono (called.and steady)
      · intro _ _ _ both
        rcases both with ⟨⟨result, values, places⟩, steady⟩
        exact ⟨result, values, places, fun _ => handed.fits_after steady supplied.fits⟩
      · exact fun _ _ _ => trivial
    · apply Leaves.mono called
      · intro _ _ _ left
        rcases left with ⟨result, values, places⟩
        exact ⟨result, values, places, fun same => absurd same added⟩
      · exact fun _ _ => id
  · intro result flag memory alive left
    exact ⟨_, rfl, left.1.tagged kind alive supplied.fits left.2⟩

/-- On the way out of a batching layer nothing is added to the result from below. It fits the layer
as well, since nothing was handed on that belongs to it.
-/
theorem places_leaveBatching (holds : Contract.places.Holds budget)
    (within : machine.InBody layer below) (kind : layer.kind = .batching)
    (owned
      : owners = below
        ∨ (owners = layer :: below
          ∧ (Value.carried machine.heap (machine.lastValues op.arity)).contains .batched = false))
    : Contract.places (budget + 1) owners op machine
        (exitInterceptor.run (nested budget) op) := by
  intro outer arguments named bounded supplied
  have lower : Layer.Bounded below := by
    rcases owned with rfl | ⟨rfl, -⟩
    · exact bounded
    · exact bounded.lower
  apply Leaves.mono (leaves_unbatched supplied within kind owned fun held _ handed =>
    holds.places handed named lower)
  · intro _ _ _ left
    rcases left with ⟨result, values, places⟩
    rcases owned with rfl | ⟨rfl, -⟩
    · exact ⟨result, values, places⟩
    · exact ⟨result, values, places.above⟩
  · exact fun _ _ => id

-----------------------------------------------------------------------------------------
-- Rules
-----------------------------------------------------------------------------------------

theorem Heap.Steady.counted (h : before.Steady after)
    : before.wrappers.size ≤ after.wrappers.size := by
  rcases Nat.eq_zero_or_pos before.wrappers.size with none | some
  · omega
  · have last := (h.wrappers (before.wrappers.size - 1) (by omega)).1
    omega

/-- The rule of in-place addition leaves all shapes as they are. This is what the rule may do at
most, read for arguments that fit the layers.
-/
theorem steady_addInPlace (poses : machine.Poses Base.schemas[8])
    (within : machine.InBody layer below) (kind : layer.kind = .batching)
    (fits
      : ∀ tensor ∈ Value.tensorsAll (machine.lastValues 2),
          tensor.Fits machine.heap (layer :: below))
    : (Batching.addInPlace.run (nested budget) Base.schemas[8]).Leaves machine
        (fun _ _ memory => machine.heap.Steady memory.heap) (fun _ _ => True) := by
  let census := Census.among machine.heap (machine.lastValues 2)
  have suits : ∀ tensor ∈ Value.tensorsAll (machine.lastValues 2),
      tensor.Suits machine.heap (layer :: below) :=
    fun tensor member => (fits tensor member).suits
  have holds : (Contract.effects census).Holds budget := (Contract.effects_kept census).holds budget
  have affects := effects_addInPlace holds poses within kind (Census.sound_of_suits suits)
    (Census.known_among machine.heap _)
  apply Leaves.mono affects
  · intro _ _ memory left
    rcases left with ⟨_, -, done⟩
    exact @Census.Allows.steadyHeap _ _ _ machine.memory memory _ done.allows suits (by decide)
  · exact fun _ _ _ => trivial

/-- A call that the rule issues in the place of its own leaves a single value, for which the rule puts
the target.
-/
theorem hands_addStanding (calling : machine.Calling Base.schemas[8] below)
    (registered : machine.Registered) (values : machine.values = outer)
    (target first second : Tensor)
    : Run.Leaves
        (do
          pushAll [.tensor first, .tensor second]
          (nested budget).dispatch Base.schemas[8]
          Batching.replaceLast (.tensor target))
        machine (fun _ values _ => values = outer ++ [.tensor target]) (fun _ _ => True) := by
  refine (quiet_writing.pushAll _).leaves_step rfl ?_
  let pushed : Machine :=
    { machine with values := machine.values ++ [.tensor first, .tensor second] }
  have calling : pushed.Calling Base.schemas[8] below :=
    ⟨calling.member, calling.owning, calling.drawn⟩
  have registered : pushed.Registered := registered
  have wraps : Contract.wraps.Holds budget := Contract.wraps_kept.holds budget
  have called := wraps.wraps calling registered rfl
    (rfl : [Value.tensor first, .tensor second].length = 2)
  refine called.bind ?_
  intro _ returned _ _ left
  rcases left with ⟨result, left, -⟩
  rw [values] at left
  exact (quiet_writing.replaceLast _).leaves (replaceLast_apply left _) rfl

/-- Where the target is not batched the arguments are handed on; otherwise the caller gets its handle
back.
-/
theorem leaves_addInPlace {ok : Unit → List Value → Memory → Prop}
    (poses : machine.Poses Base.schemas[8]) (within : machine.InBody layer below)
    (kind : layer.kind = .batching)
    (shown : machine.thread.overlay.excluded.contains .batched = false)
    (supplied : machine.Supplied (budget + 1) Base.schemas[8] (layer :: below) outer arguments)
    (standing
      : ∀ target other physical memory,
          arguments = [.tensor target, .tensor other]
          → target.physicalAt? layer.level = some physical
          → ok () (outer ++ [.tensor target]) memory)
    (inner
      : ∀ held,
          held.ambient = machine.ambient.hide (.only .batched)
          → machine.HandsOn held budget Base.schemas[8] below outer arguments arguments
          → ((nested budget).dispatch Base.schemas[8]).Leaves held ok (fun _ _ => True))
    : (Batching.addInPlace.run (nested budget) Base.schemas[8]).Leaves machine ok
        (fun _ _ => True) := by
  have size : arguments.length = 2 := supplied.size
  refine quiet_writing.currentLayer.leaves_step (currentLayer_apply within.top) ?_
  refine (quiet_writing.pop _).leaves_step supplied.popping ?_
  refine (idle_lift (Value.plain_tensorAt _ _ _).orderly).leaves_bind (fun _ => trivial) ?_
  intro target targetAt
  refine (idle_lift (Value.plain_tensorAt _ _ _).orderly).leaves_bind (fun _ => trivial) ?_
  intro other otherAt
  obtain rfl := Value.eq_pair size (Value.tensorAt_ok (lift_ok targetAt).1)
    (Value.tensorAt_ok (lift_ok otherAt).1)
  refine .holding (moves_hide _ _) ?_
  intro held atHeld
  have hidden : held.ambient = machine.ambient.hide (.only .batched) := atHeld.ambient
  have heap : held.heap = machine.heap := atHeld.heap
  have values : held.values = outer := atHeld.values
  have calling := within.hideBatched kind poses.member (by decide) hidden
  have registered : held.Registered :=
    supplied.registered.popped.shifted atHeld fun _ active => active
  cases targetPhysical : target.physicalAt? layer.level with
  | none =>
      cases otherPhysical : other.physicalAt? layer.level with
      | some batch => exact leaves_fail trivial
      | none =>
          refine (quiet_writing.pushAll _).leaves_step rfl ?_
          have shared : ∀ tensor ∈ Value.tensorsAll [.tensor target, .tensor other],
              tensor.physicalAt? layer.level = none :=
            List.forall_mem_cons.mpr
              ⟨targetPhysical, List.forall_mem_cons.mpr ⟨otherPhysical, List.forall_mem_nil _⟩⟩
          refine inner _ hidden ?_
          refine .of_same ⟨calling.member, calling.owning, calling.drawn⟩ registered
            (congrArg (· ++ _) values) size ?_ heap fun tensor member =>
              (supplied.fits tensor member).of_shared kind (shared tensor member)
          exact fun drawless _ => (supplied.serves within kind shown drawless atHeld).steps
  | some physical =>
      have given (reached : Machine) (resumes : held.Resumes reached)
          (same : reached.values = outer) (addend : Tensor)
          : Run.Leaves
              (do
                pushAll [.tensor physical, .tensor addend]
                (nested budget).dispatch Base.schemas[8]
                Batching.replaceLast (.tensor target))
              reached ok (fun _ _ => True) := by
        have left := @hands_addStanding reached below outer budget (calling.resumes resumes)
          (registered.resumes resumes) same target physical addend
        apply left.mono ?_ fun _ _ => id
        rintro ⟨⟩ _ memory rfl
        exact standing target other physical memory rfl targetPhysical
      refine (quiet_read _).leaves_step rfl ?_
      cases otherPhysical : other.physicalAt? layer.level with
      | none =>
          refine (quiet_pure other).leaves_step rfl ?_
          exact given held (.refl held) values other
      | some batch =>
          have wraps : Contract.wraps.Holds budget := Contract.wraps_kept.holds budget
          refine (passes_pad wraps calling.owning registered _ _).bind ?_
          intro padded reached _ resumes left
          exact given reached resumes (left.1.trans values) padded

/-- The rule of in-place addition gives either one of its arguments back, which still fits the
layers because all shapes have stayed, or what the call below has placed.
-/
theorem places_addInPlace (holds : Contract.places.Holds budget)
    (poses : machine.Poses Base.schemas[8]) (within : machine.InBody layer below)
    (kind : layer.kind = .batching)
    (shown : machine.thread.overlay.excluded.contains .batched = false)
    : Contract.places (budget + 1) (layer :: below) Base.schemas[8] machine
        (Batching.addInPlace.run (nested budget) Base.schemas[8]) := by
  intro outer arguments named bounded supplied
  have last : machine.lastValues 2 = arguments :=
    Machine.lastValues_append supplied.values supplied.size
  have fits := supplied.fits
  rw [← last] at fits
  have handed
      : (Batching.addInPlace.run (nested budget) Base.schemas[8]).Leaves machine
          (fun _ values memory =>
            ∃ result,
              values = outer ++ [.tensor result]
              ∧ (result ∈ Value.tensorsAll arguments
                ∨ Base.schemas[8].Places (layer :: below) arguments machine.heap memory.heap
                    result))
          (fun _ _ => True) := by
    apply leaves_addInPlace poses within kind shown supplied
    · rintro target other physical memory rfl -
      exact ⟨target, rfl, .inl List.mem_cons_self⟩
    · intro held _ handed
      apply Leaves.mono (holds.places handed (by decide) bounded.lower)
      · intro _ _ _ left
        rcases left with ⟨result, left, places⟩
        exact ⟨result, left, .inr places.above⟩
      · exact fun _ _ => id
  apply (handed.and (steady_addInPlace poses within kind fits)).mono ?_ fun _ _ _ => trivial
  intro _ _ memory both
  rcases both with ⟨⟨result, values, given | places⟩, steady⟩
  · exact ⟨result, values, ((supplied.fits result given).steady steady).1, steady.counted,
      fun added => absurd rfl added, nofun⟩
  · exact ⟨result, values, places⟩

/-- A size that is read back from its signed form is below the bound, and is the size itself if that
was below the bound. Only sizes whose signed form is not negative are read back.
-/
theorem Size.toNat_toSigned {size : Size} (natural : 0 ≤ Size.toSigned size)
    : (Size.toSigned size).toNat < Size.bound
      ∧ (size < Size.bound → (Size.toSigned size).toNat = size) := by
  have large : Size.bound = 18446744073709551616 := rfl
  rw [Size.toSigned, Int.bmod_def, large] at natural ⊢
  split at natural
  · rename_i low
    rw [if_pos low]
    refine ⟨by omega, fun inside => ?_⟩
    rw [← Int.natCast_emod, Int.toNat_natCast]
    exact Nat.mod_eq_of_lt inside
  · omega

/-- What an operator reads of sizes in signed form, by induction on the sizes. A size that became
negative is refused, so that all others can be told.
-/
theorem Value.mapM_toSigned {sizes found : List Size} {name : String}
    (h
      : (sizes.map Size.toSigned).mapM
          (fun size =>
            if 0 ≤ size then Except.ok size.toNat
            else (Outcome.fail (.invalidArgument name 0 (.negativeSize size)) : Outcome Size))
        = .ok found)
    : List.Forall₂ (fun size read => read < Size.bound ∧ (size < Size.bound → read = size)) sizes
        found := by
  induction sizes generalizing found with
  | nil =>
      cases h
      exact .nil
  | cons size sizes ih =>
      rw [List.map_cons, List.mapM_cons] at h
      obtain ⟨first, head, h⟩ := Outcome.bind_ok h
      obtain ⟨others, rest, h⟩ := Outcome.bind_ok h
      cases h
      refine .cons ?_ (ih rest)
      split at head
      · rename_i natural
        rw [← Except.ok.inj head]
        exact Size.toNat_toSigned natural
      · cases head

/-- Sizes that are read back stay below the bound, and are the same if all of them were below it.
-/
theorem Size.forall_bounded {sizes found : List Size}
    (h
      : List.Forall₂ (fun size read => read < Size.bound ∧ (size < Size.bound → read = size)) sizes
          found)
    : (∀ size ∈ found, size < Size.bound)
      ∧ ((∀ size ∈ sizes, size < Size.bound) → found = sizes) := by
  induction h with
  | nil => exact ⟨List.forall_mem_nil _, fun _ => rfl⟩
  | cons head tail ih =>
      refine ⟨List.forall_mem_cons.mpr ⟨head.1, ih.1⟩, fun inside => ?_⟩
      obtain ⟨first, rest⟩ := List.forall_mem_cons.mp inside
      rw [head.2 first, ih.2 rest]

/-- A larger draw, of one more dimension, is a batch of what was asked for. The first dimension is
the size of the batch, which is bounded and therefore read back as it is, and the others are the
sizes asked for.
-/
theorem Schema.Places.newBatched {sizes : List Size} {listed : List Int} {batch : Size}
    (h
      : (Base.factorySchema "rand").Places (layer :: below)
          [.ints ((batch :: sizes).map Size.toSigned)] before after result)
    (sized : layer.transform.batchSize? = some batch) (bounded : batch < Size.bound)
    (alone : result.physicalAt? layer.level = none)
    (asked : Value.sizesAt [.ints listed] "rand" 0 = .ok sizes)
    : (Base.factorySchema "rand").Places (layer :: below) [.ints listed] before
        (after.newBatched result layer.level).2 (after.newBatched result layer.level).1 := by
  rcases h.drawn rfl with ⟨found, given, shape⟩
  cases Value.mapM_toSigned given with
  | @cons _ read _ others head tail =>
      obtain rfl := head.2 bounded
      obtain ⟨inside, same⟩ := Size.forall_bounded tail
      have shape : result.shape after = ⟨read :: others⟩ :=
        shape (List.forall_mem_cons.mpr ⟨head.1, inside⟩)
      have fits := h.fits.of_shared (Layer.kind_of_batchSize? sized) alone
      have stands := fits.grows (after.grows_newBatched result layer.level)
      refine ⟨fits.newBatched sized (congrArg (fun shape => shape.dims.head?) shape), h.counted,
        h.fresh, fun _ => ⟨sizes, asked, fun bounded => ?_⟩⟩
      change ((result.shape (after.newBatched result layer.level).2).dropLeading) = _
      rw [stands.shape, shape, ← same bounded]
      rfl

/-- What is not wrapped by a batching layer is no batch of it: a batch at its level would have its
wrapper.
-/
theorem Tensor.physicalAt?_eq_none_of_wraps (kind : layer.kind = .batching)
    (bare : layer.wraps ∉ tensor.liveWrappers heap)
    : tensor.physicalAt? layer.level = none := by
  cases found : tensor.physicalAt? layer.level with
  | none => rfl
  | some physical =>
      obtain ⟨handle, rfl⟩ := Tensor.physicalAt?_eq_some found
      rw [Layer.wraps_batched kind] at bare
      exact absurd List.mem_cons_self bare

/-- The rule for random operators draws once for all entries or once for each, as the layer says. A
draw for all is handed on as it is. One for each is asked for with larger sizes, and its result,
which the layer has not wrapped yet, is marked as a batch.
-/
theorem places_random (holds : Contract.places.Holds budget)
    (poses : machine.Poses (Base.factorySchema "rand")) (within : machine.InBody layer below)
    (kind : layer.kind = .batching)
    (shown : machine.thread.overlay.excluded.contains .batched = false)
    : Contract.places (budget + 1) (layer :: below) (Base.factorySchema "rand") machine
        (Batching.random.run (nested budget) (Base.factorySchema "rand")) := by
  intro outer arguments named bounded supplied
  have levelled := within.grounded.levelled
  have size : arguments.length = 1 := supplied.size
  refine quiet_writing.currentLayer.leaves_step (currentLayer_apply within.top) ?_
  refine .holding (moves_hide _ machine) ?_
  intro held atHeld
  have hidden : held.ambient = machine.ambient.hide (.only .batchMode) := atHeld.ambient
  have calling := within.hideBatchMode kind shown poses.member hidden
  have registered : held.Registered := supplied.registered.shifted atHeld fun _ active => active
  have values : held.values = outer ++ arguments := atHeld.values.trans supplied.values
  split
  · exact leaves_fault trivial trivial
  · exact leaves_fail trivial
  · exact holds.places (.of_same calling registered values size
      (fun drawless => absurd rfl drawless) atHeld.heap supplied.fits) named bounded
  · rename_i batch policy
    have sized : layer.transform.batchSize? = some batch := by rw [policy]; rfl
    have popping : pop 1 held = .ok arguments { held with values := outer } := by
      rw [← size]
      exact pop_append values
    refine (quiet_writing.pop _).leaves_step popping ?_
    refine (idle_lift (Value.plain_sizesAt _ _ _).orderly).leaves_bind (fun _ => trivial) ?_
    intro sizes sizesAt
    obtain ⟨listed, first⟩ := Value.sizesAt_ok (lift_ok sizesAt).1
    obtain rfl : arguments = [.ints listed] := Value.eq_single size first
    let larger : Value := .ints ((batch :: sizes).map Size.toSigned)
    refine (quiet_writing.push larger).leaves_step rfl ?_
    let pushed : Machine := { held with values := outer ++ [larger] }
    have calling : pushed.Calling (Base.factorySchema "rand") (layer :: below) :=
      ⟨calling.member, calling.owning, calling.drawn⟩
    have registered : pushed.Registered := registered
    have supplied'
        : pushed.Supplied budget (Base.factorySchema "rand") (layer :: below) outer [larger] :=
      { calling with
        registered := registered
        values := rfl
        size := rfl
        fits := List.forall_mem_nil _
        steps := fun drawless => absurd rfl drawless }
    have placed := holds calling outer [larger] named bounded supplied'
    have wraps : Contract.wraps.Holds budget := Contract.wraps_kept.holds budget
    have wrapped := wraps.wraps calling registered rfl (rfl : [larger].length = 1)
    refine Leaves.bind ((placed.and wrapped).mono (fun _ _ _ => id) fun _ _ _ => trivial) ?_
    intro _ returned _ _ both
    rcases both with ⟨⟨result, left, places⟩, other, left', wraps, -⟩
    obtain rfl : result = other := by
      rw [left] at left'
      simpa using left'
    have past
        : ¬pushed.ambient.Marks pushed.heap (Base.factorySchema "rand").name [larger] layer :=
      within.not_marks_hidden kind hidden
    have bare : layer.wraps ∉ result.liveWrappers pushed.heap := by
      rw [wraps.wrappers, levelled.mem_map_filter List.mem_cons_self]
      exact past
    have alone := Tensor.physicalAt?_eq_none_of_wraps kind bare
    refine (quiet_writing.wrapResults 1 layer.level).leaves (wrapResults_apply left layer.level) ?_
    refine ⟨_, rfl, ?_⟩
    have heap : pushed.heap = machine.heap := atHeld.heap
    rw [heap] at places
    exact places.newBatched sized (bounded layer List.mem_cons_self batch sized) alone
      (lift_ok sizesAt).1

/-- Every kernel gives results that fit the layers, if the calls that it issues do, with one case
for each kernel. Of the rules for operators that are asked for in requests nothing is said here.
-/
theorem Contract.places_kept : Contract.places.Kept where
  congr same places outer arguments named bounded supplied :=
    .congr same (places outer arguments named bounded supplied)
  unhandled ended unhandled _ _ _ _ _ := leaves_ended ended unhandled.orderly trivial
  traced places outer arguments named bounded supplied :=
    .traced (places outer arguments named bounded (supplied.inSpan _))
  base poses _ found _ := places_base poses found
  outside holds _ atBase := places_outside holds atBase
  enter holds _ above front := places_enter holds above front
  differentiate holds poses within kind shown _ := places_differentiate holds poses within kind shown
  leaveDifferentiation holds _ within kind _ := places_leaveDifferentiation holds within kind
  leaveBatching holds _ within kind _ owned := places_leaveBatching holds within kind owned
  pointwise _ _ _ _ _ _ named _ _ requested := by
    simp only [List.mem_cons, List.not_mem_nil, or_false] at named requested
    tauto
  unsqueeze _ _ _ _ _ _ same _ _ requested := by
    subst same
    exact absurd (by decide) requested
  addInPlace holds poses within kind shown _ same := by
    subst same
    exact places_addInPlace holds poses within kind shown
  missingRule _ _ _ _ _ :=
    (still_log _).leaves_bind (fun _ => trivial) fun _ _ _ _ _ => leaves_fail trivial
  random holds poses within kind _ shown same := by
    subst same
    exact places_random holds poses within kind shown

end

end LayeredDispatch
