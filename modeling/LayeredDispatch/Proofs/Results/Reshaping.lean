import LayeredDispatch.Proofs.Results.Closure

/-! Resizing in place under a stack of layers. The base operator gives the storage its new shape; the
tags around the target, which remember the old one, are brought up to date by the layers that own them,
each on the way out of its body and from the value below the tag. Since the inner layers are left first,
that value has been brought up to date by then.

Main statement: after a call that resizes a tensor, the storage below it has been cut or extended to the
sizes asked for, and the tensor, the result and all values below their tags report them.
-/

namespace LayeredDispatch

open Run Dispatcher

/-- A tensor and the values below its wrappers, outermost first. -/
def Tensor.parts : Tensor → List Tensor
  | .dense cell => [.dense cell]
  | .tagged cell level flag value => .tagged cell level flag value :: value.parts
  | .batched handle level value => .batched handle level value :: value.parts

/-- A tensor in live tags only, each of which remembers one shape, the shape of the storage. -/
inductive Tensor.Reports (heap : Heap) (shape : Shape) : Tensor → Prop where
  | dense {cell : Nat} (present : cell < heap.storages.size)
    (stored : (heap.storage cell).shape = shape)
    : Reports heap shape (.dense cell)
  | tagged {cell flag : Nat} {level : Level} {value : Tensor} (alive : heap.isAlive flag = true)
    (present : cell < heap.wrappers.size) (remembered : (heap.wrapper cell).shape = shape)
    (inner : Reports heap shape value)
    : Reports heap shape (.tagged cell level flag value)

/-- What a call that resizes `target` gives: a tensor around the same storage, which has been resized,
and both report the sizes.
-/
structure Tensor.Resized (sizes : List Size) (before : Heap) (target : Tensor) (after : Heap)
    (result : Tensor)
    : Prop where
  base : result.baseCell = target.baseCell
  storage
    : (before.storage target.baseCell).resize ⟨sizes⟩ = .ok (after.storage target.baseCell)
  flags : after.flags = before.flags
  counted : before.wrappers.size ≤ after.wrappers.size
  target : target.Reports after ⟨sizes⟩
  result : result.Reports after ⟨sizes⟩

/-- Calls that resize give a tensor in the place of a target and of sizes. -/
def Contract.resizes : Contract :=
  fun budget owners op machine body =>
    ∀ outer arguments,
      op.name = "resize_"
      → machine.Supplied budget op owners outer arguments
      → body.Leaves machine
          (fun _ values memory =>
            ∃ target listed sizes result,
              arguments = [.tensor target, .ints listed]
              ∧ Value.sizesAt arguments op.name 1 = .ok sizes
              ∧ values = outer ++ [.tensor result]
              ∧ Tensor.Resized sizes machine.heap target memory.heap result)
          (fun _ _ => True)

section

variable {machine held reached : Machine} {op : Schema} {owners below layers : List Layer} {layer : Layer}
  {arguments inner outer values : List Value} {target tensor value result : Tensor}
  {listed : List Int} {sizes : List Size} {shape : Shape} {budget cell flag : Nat} {level : Level}
  {heap before after later : Heap}

-----------------------------------------------------------------------------------------
-- Tensors that report one shape
-----------------------------------------------------------------------------------------

namespace Tensor.Reports

/-- A tensor that reports a shape has it: the outermost tag is alive and remembers the shape, or
there is none.
-/
theorem shape_eq (h : tensor.Reports heap shape) : tensor.shape heap = shape := by
  cases h with
  | dense present stored => exact stored
  | tagged alive present remembered inner => rw [Tensor.shape, if_pos alive, remembered]

/-- All parts of a tensor report the shape, by induction on the tags. -/
theorem shape_part (h : tensor.Reports heap shape)
    : ∀ part ∈ tensor.parts, part.shape heap = shape := by
  induction h with
  | dense present stored => exact List.forall_mem_singleton.mpr stored
  | tagged alive present remembered inner ih =>
      exact List.forall_mem_cons.mpr ⟨(tagged alive present remembered inner).shape_eq, ih⟩

theorem of_tagged (h : (Tensor.tagged cell level flag value).Reports heap shape)
    : value.Reports heap shape := by
  cases h with
  | tagged alive present remembered inner => exact inner

theorem stored (h : tensor.Reports heap shape) : tensor.baseCell < heap.storages.size := by
  induction h with
  | dense present stored => exact present
  | tagged alive present remembered inner ih => exact ih

/-- What is reported goes on to be reported while storage grows, tag after tag. -/
theorem grows (h : tensor.Reports before shape) (grows : before.Grows after)
    : tensor.Reports after shape := by
  induction h with
  | dense present stored =>
      obtain ⟨inside, same⟩ := grows.storages _ present
      exact .dense inside (by rw [same, stored])
  | tagged alive present remembered inner ih =>
      obtain ⟨inside, same⟩ := grows.wrappers _ present
      have alive' := (Heap.isAlive_congr grows.flags _).trans alive
      exact .tagged alive' inside (by rw [same, remembered]) ih

/-- A new tag remembers what the value reports at the time when it is made. -/
theorem newTagged (h : value.Reports heap shape) (alive : heap.isAlive flag = true)
    : (heap.newTagged value level flag).1.Reports (heap.newTagged value level flag).2 shape := by
  refine .tagged alive ?_ ?_ (h.grows (heap.grows_newTagged value level flag))
  · simp [Heap.newTagged]
  · simp [Heap.newTagged, Heap.wrapper, h.shape_eq]

/-- Looking again at a tag around a value that reports the shape spoils nothing. If it is one of the
tensor's own tags, it remembers the same shape afterwards; other tags are left alone.
-/
theorem refresh (h : tensor.Reports heap shape)
    (fresh
      : ∀ {cell flag level value},
          target = .tagged cell level flag value → value.Reports heap shape)
    : tensor.Reports (heap.refresh target) shape := by
  induction h with
  | dense present stored => cases target <;> exact .dense present stored
  | @tagged cell flag level value alive present remembered inner ih =>
      cases target with
      | dense other => exact .tagged alive present remembered inner
      | batched handle other below => exact .tagged alive present remembered inner
      | tagged own other held below =>
          refine .tagged alive (by simpa [Heap.refresh, Heap.setWrapper] using present) ?_ ih
          by_cases same : own = cell
          · subst same
            rw [Heap.refresh, heap.wrapper_setWrapper_same _ _ present]
            exact (fresh rfl).shape_eq
          · rw [heap.wrapper_refresh_other same, remembered]

/-- A tag that is looked at again reports what the value below it does, whatever it remembered
before.
-/
theorem refreshed (fresh : value.Reports heap shape) (alive : heap.isAlive flag = true)
    (present : cell < heap.wrappers.size)
    : (Tensor.tagged cell level flag value).Reports
        (heap.refresh (.tagged cell level flag value)) shape := by
  refine .tagged alive (by simpa [Heap.refresh, Heap.setWrapper] using present) ?_ ?_
  · rw [Heap.refresh, heap.wrapper_setWrapper_same _ _ present]
    exact fresh.shape_eq
  · refine fresh.refresh ?_
    rintro _ _ _ _ ⟨⟩
    exact fresh

end Tensor.Reports

-----------------------------------------------------------------------------------------
-- From an inner call to the call around it
-----------------------------------------------------------------------------------------

/-- A call that resizes what takes the place of the target, over the same storage. Storage has only
grown before, so that the one that is resized is as it was.
-/
theorem Machine.HandsOn.resized {relation : Tensor → Tensor → Prop}
    (handed : machine.HandsOn held budget op owners outer arguments inner)
    (fits : ∀ tensor ∈ Value.tensorsAll arguments, tensor.Fits machine.heap layers)
    (related : Value.RelatedAll relation arguments inner)
    (same : ∀ tensor result, relation tensor result → result.baseCell = tensor.baseCell)
    (given : inner = [.tensor value, .ints listed])
    (resized : Tensor.Resized sizes held.heap value after result)
    : ∃ target,
        arguments = [.tensor target, .ints listed]
        ∧ relation target value
        ∧ Tensor.Resized sizes machine.heap value after result := by
  subst given
  rcases related with _ | ⟨head, tail⟩
  obtain ⟨target, rfl, relates⟩ := head.to_tensor
  rcases tail with _ | ⟨head, tail⟩
  cases tail
  cases head
  have stored : value.baseCell < machine.heap.storages.size := by
    rw [same target value relates]
    exact (fits target List.mem_cons_self).suits.stored
  have kept := (handed.grows.storages _ stored).2
  exact ⟨target, rfl, relates,
    { resized with
      storage := kept ▸ resized.storage
      flags := resized.flags.trans handed.grows.flags
      counted := Nat.le_trans handed.grows.counted resized.counted }⟩

/-- What is said of a value that takes the place of the target is said of the target, if both are
around one storage and the target reports what the value does.
-/
theorem Tensor.Resized.of_value (h : Tensor.Resized sizes before value after result)
    (base : value.baseCell = target.baseCell)
    (reports : value.Reports after ⟨sizes⟩ → target.Reports after ⟨sizes⟩)
    : Tensor.Resized sizes before target after result :=
  ⟨h.base.trans base, base ▸ h.storage, h.flags, h.counted, reports h.target, h.result⟩

/-- What has been resized stays so while storage grows. -/
theorem Tensor.Resized.grows (h : Tensor.Resized sizes before target after result)
    (grows : after.Grows later)
    : Tensor.Resized sizes before target later result where
  base := h.base
  storage := by rw [(grows.storages _ h.target.stored).2, h.storage]
  flags := grows.flags.trans h.flags
  counted := Nat.le_trans h.counted grows.counted
  target := h.target.grows grows
  result := h.result.grows grows

/-- A call that is handed on resizes what takes the place of the target. From the sizes that the
inner call has been given those of the outer one are read, as sizes are handed on unchanged.
-/
theorem Contract.Holds.resizes {relation : Tensor → Tensor → Prop}
    (holds : Contract.resizes.Holds budget)
    (handed : machine.HandsOn held budget op owners outer arguments inner)
    (named : op.name = "resize_")
    (fits : ∀ tensor ∈ Value.tensorsAll arguments, tensor.Fits machine.heap layers)
    (related : Value.RelatedAll relation arguments inner)
    (same : ∀ tensor result, relation tensor result → result.baseCell = tensor.baseCell)
    : ((nested budget).dispatch op).Leaves held
        (fun _ values memory =>
          ∃ target value listed sizes result,
            arguments = [.tensor target, .ints listed]
            ∧ relation target value
            ∧ Value.sizesAt arguments op.name 1 = .ok sizes
            ∧ values = outer ++ [.tensor result]
            ∧ Tensor.Resized sizes machine.heap value memory.heap result)
        (fun _ _ => True) := by
  apply (holds handed.supplied.toCalling outer inner named handed.supplied).mono ?_ fun _ _ => id
  intro _ _ _ left
  rcases left with ⟨value, listed, sizes, result, given, asked, values, resized⟩
  obtain ⟨target, rfl, relates, resized⟩ := handed.resized fits related same given resized
  refine ⟨target, value, listed, sizes, result, rfl, relates, ?_, values, resized⟩
  rw [given] at asked
  exact asked

-----------------------------------------------------------------------------------------
-- Below all layers
-----------------------------------------------------------------------------------------

/-- The entries after resizing are the old ones, cut to as many as the sizes ask for, and zeros
where they are too few.
-/
theorem Storage.resize_ok {storage resized : Storage} (h : storage.resize shape = .ok resized)
    : resized
      = ⟨shape,
          storage.data.take shape.dims.prod
            ++ Array.replicate (shape.dims.prod - storage.data.size) 0⟩ := by
  obtain ⟨count, counted, h⟩ := Outcome.bind_ok h
  obtain ⟨_, _, h⟩ := Outcome.bind_ok h
  cases h
  obtain rfl := Shape.numel?_eq_some (Outcome.orFault_ok counted)
  have rest
      : shape.dims.prod - (storage.data.take shape.dims.prod).size
        = shape.dims.prod - storage.data.size := by
    rw [Array.take, Array.size_extract, Nat.sub_zero]
    rcases Nat.le_total shape.dims.prod storage.data.size with short | long
    · rw [Nat.min_eq_left short, Nat.sub_self, Nat.sub_eq_zero_of_le short]
    · rw [Nat.min_eq_right long]
  rw [rest]

theorem Schema.eq_resize (member : op ∈ Base.schemas) (named : op.name = "resize_")
    : op = Base.schemas[9] := by
  simp only [Base.schemas, List.mem_cons, List.not_mem_nil, or_false] at member
  rcases member with rfl | rfl | rfl | rfl | rfl | rfl | rfl | rfl | rfl | rfl <;>
    first | rfl | exact absurd named (by decide)

/-- The base operator resizes the storage of a dense target and gives the target. Targets in
wrappers are refused, as are sizes of which some are negative.
-/
theorem Base.leaves_resizeInPlace (calls : Calls) (present : machine.values = outer ++ arguments)
    (size : arguments.length = 2)
    : (resizeInPlace.run calls schemas[9]).Leaves machine
        (fun _ values memory =>
          ∃ cell listed sizes storage,
            arguments = [.tensor (.dense cell), .ints listed]
            ∧ Value.sizesAt arguments "resize_" 1 = .ok sizes
            ∧ (machine.heap.storage cell).resize ⟨sizes⟩ = .ok storage
            ∧ values = outer ++ [.tensor (.dense cell)]
            ∧ memory.heap = machine.heap.setStorage cell storage)
        (fun _ _ => True) := by
  have popping : pop 2 machine = .ok arguments { machine with values := outer } := by
    rw [← size]
    exact pop_append present
  refine (quiet_writing.pop 2).leaves_step popping ?_
  refine (idle_lift (Value.plain_tensorAt _ _ _).orderly).leaves_bind (fun _ => trivial) ?_
  intro target targetAt
  refine (idle_lift (Value.plain_sizesAt _ _ _).orderly).leaves_bind (fun _ => trivial) ?_
  intro sizes sizesAt
  refine (idle_reading.storageOf _ _ _).leaves_bind (fun _ => trivial) fun current read => ?_
  obtain ⟨dense, rfl⟩ := storageOf_ok read
  refine (idle_lift (Storage.plain_resize _ _).orderly).leaves_bind (fun _ => trivial) ?_
  intro resized made
  have asked := (lift_ok sizesAt).1
  obtain ⟨listed, second⟩ := Value.sizesAt_ok asked
  have pair := Value.eq_pair size (Value.tensorAt_ok (lift_ok targetAt).1) second
  cases target with
  | tagged cell level flag value => cases dense
  | batched handle level value => cases dense
  | dense cell =>
      have written
          : Quiet (do
              onHeap fun heap => heap.setStorage cell resized
              pushTensor (.dense cell)) :=
        (quiet_writing.setStorage _ _).bind fun _ => quiet_writing.push _
      exact written.leaves rfl ⟨cell, listed, sizes, resized, pair, asked, (lift_ok made).1, rfl, rfl⟩

/-- Below all layers the storage itself is resized, and the dense target, around which there is no
tag, reports the new sizes.
-/
theorem resizes_base {kernel : Kernel} (poses : machine.Poses op)
    (found : baseKernel? op.name = some kernel)
    : Contract.resizes (budget + 1) [] op machine (kernel.run (nested budget) op) := by
  intro outer arguments named supplied
  obtain rfl := Schema.eq_resize poses.member named
  cases found
  apply (Base.leaves_resizeInPlace (nested budget) supplied.values supplied.size).mono ?_ fun _ _ => id
  intro _ _ memory left
  rcases left with ⟨cell, listed, sizes, storage, rfl, asked, made, values, heap⟩
  obtain ⟨present, -⟩ := (supplied.fits (.dense cell) List.mem_cons_self).suits
  have read : memory.heap.storage cell = storage := by
    rw [heap, machine.heap.storage_setStorage_same _ _ present]
  have reports : (Tensor.dense cell).Reports memory.heap ⟨sizes⟩ := by
    refine .dense ?_ ?_
    · simpa [heap, Heap.setStorage] using present
    · rw [read, Storage.resize_ok made]
  refine ⟨_, listed, sizes, _, rfl, asked, values, rfl, ?_, ?_, ?_, reports, reports⟩
  · rw [Tensor.baseCell, read, made]
  · rw [heap]
    rfl
  · rw [heap]
    exact Nat.le_refl _

/-- Outside all layers a tensor takes the place of itself only, as there are no tags that could
differ.
-/
theorem Tensor.Replaces.eq_outside (h : Tensor.Replaces [] before tensor after result)
    (fits : tensor.Fits before [])
    : result = tensor := by
  obtain ⟨cell, rfl, -⟩ := fits.eq_dense
  obtain ⟨other, rfl, -⟩ := h.fits.eq_dense
  exact h.bare

/-- Outside all layers the call is handed on without dead wrappers, of which a target that fits has
none.
-/
theorem resizes_outside (holds : Contract.resizes.Holds budget) (atBase : machine.AtBase)
    : Contract.resizes (budget + 1) [] op machine
        (deadWrapperFallback.run (nested budget) op) := by
  intro outer arguments named supplied
  refine leaves_outside supplied atBase fun held given handed => ?_
  have same
      : ∀ tensor result,
          Tensor.Replaces [] machine.heap tensor held.heap result
          → result.baseCell = tensor.baseCell := by
    intro tensor result replaces
    rw [← result.baseCell_bare, replaces.bare, tensor.baseCell_bare]
  apply (holds.resizes handed named supplied.fits handed.related same).mono ?_ fun _ _ => id
  intro _ _ _ left
  rcases left with ⟨target, value, listed, sizes, result, rfl, replaces, asked, values, resized⟩
  obtain rfl := replaces.eq_outside (supplied.fits target List.mem_cons_self)
  exact ⟨value, listed, sizes, result, rfl, asked, values, resized⟩

-----------------------------------------------------------------------------------------
-- The kernels around layers
-----------------------------------------------------------------------------------------

theorem Layer.Receives.base (h : layer.Receives tensor result)
    : result.baseCell = tensor.baseCell := by
  cases h with
  | same tagged => rfl
  | tagged kind cell flag => rfl

/-- Where it reports a shape, what it was received for does so too, because it has at most one tag
less.
-/
theorem Layer.Receives.reports (h : layer.Receives tensor result)
    (reports : result.Reports heap shape)
    : tensor.Reports heap shape := by
  cases h with
  | same tagged => exact reports
  | tagged kind cell flag => exact reports.of_tagged

/-- In front of a layer the call resizes what the layer has received, and with it the target. -/
theorem resizes_enter (holds : Contract.resizes.Holds budget) (above : machine.Above layer below)
    (front : machine.thread.overlay.forces .entryInterceptor)
    : Contract.resizes (budget + 1) (layer :: below) op machine
        (entryInterceptor.run (nested budget) op) := by
  intro outer arguments named supplied
  refine leaves_entering supplied above front (fun _ _ _ => trivial) ?_
  intro received held given _ _ handed receives
  apply (holds.resizes handed named supplied.fits receives fun _ _ => Layer.Receives.base).mono ?_
    fun _ _ => id
  intro _ _ _ left
  rcases left with ⟨target, value, listed, sizes, result, rfl, receives, asked, values, resized⟩
  exact ⟨target, listed, sizes, result, rfl, asked, values,
    resized.of_value receives.base receives.reports⟩

/-- A call that is handed on as it is resizes the target itself. -/
theorem Contract.Holds.resizes_same (holds : Contract.resizes.Holds budget)
    (handed : machine.HandsOn held budget op owners outer arguments arguments)
    (named : op.name = "resize_")
    (fits : ∀ tensor ∈ Value.tensorsAll arguments, tensor.Fits machine.heap layers)
    : ((nested budget).dispatch op).Leaves held
        (fun _ values memory =>
          ∃ target listed sizes result,
            arguments = [.tensor target, .ints listed]
            ∧ Value.sizesAt arguments op.name 1 = .ok sizes
            ∧ values = outer ++ [.tensor result]
            ∧ Tensor.Resized sizes machine.heap target memory.heap result)
        (fun _ _ => True) := by
  have related : Value.RelatedAll (fun tensor result => result = tensor) arguments arguments :=
    .refl arguments fun _ _ => rfl
  apply (holds.resizes handed named fits related fun _ _ same => congrArg _ same).mono ?_
    fun _ _ => id
  intro _ _ _ left
  rcases left with ⟨target, value, listed, sizes, result, rfl, rfl, asked, values, resized⟩
  exact ⟨value, listed, sizes, result, rfl, asked, values, resized⟩

/-- The body of a differentiation layer hands the call on as it is. Recording comes after it, and
changes no shape.
-/
theorem resizes_differentiate (holds : Contract.resizes.Holds budget) (poses : machine.Poses op)
    (within : machine.InBody layer below) (kind : layer.kind = .differentiation)
    (shown : machine.thread.overlay.excluded.contains .differentiation = false)
    : Contract.resizes (budget + 1) (layer :: below) op machine
        (differentiationBody.run (nested budget) op) := by
  intro outer arguments named supplied
  refine quiet_writing.currentLayer.leaves_step (currentLayer_apply within.top) ?_
  refine (quiet_read _).leaves_step rfl ?_
  refine Leaves.bind (leaves_hidden supplied within kind shown fun held handed =>
    holds.resizes_same handed named supplied.fits) ?_
  intro _ reached _ _ left
  rcases left with ⟨target, listed, sizes, result, rfl, asked, values, resized⟩
  have single := Schema.resultCount_eq_one poses.member
  refine Leaves.mono (leaves_recordGradFns _ single values) ?_ fun _ _ => id
  intro _ _ _ left
  exact ⟨target, listed, sizes, result, rfl, asked, left.1.trans values, resized.grows left.2.1⟩

/-- On the way out of the layer that has put a tag around the target, the tag is brought up to date from
the value below it, and a new one is put around the result.
-/
theorem Tensor.Resized.tagged (h : Tensor.Resized sizes before value after result)
    (untagged : target.Untagged layer.level value) (alive : after.isAlive flag = true)
    (fits : target.Fits before layers)
    : Tensor.Resized sizes before target
        ((after.newTagged result layer.level flag).2.refresh target)
        (after.newTagged result layer.level flag).1 := by
  have grown := h.grows (after.grows_newTagged result layer.level flag)
  have wrapped := @Reports.newTagged _ ⟨sizes⟩ flag layer.level after h.result alive
  generalize (after.newTagged result layer.level flag).2 = later at grown wrapped ⊢
  -- What is below the outermost tag has been brought up to date by the layers that are left already.
  have fresh {cell own level below}
      (same : target = .tagged cell level own below)
      : below.Reports later ⟨sizes⟩ := by
    rcases untagged with rfl | ⟨_, _, rfl⟩
    · exact (same ▸ grown.target).of_tagged
    · cases same
      exact grown.target
  have reports : target.Reports (later.refresh target) ⟨sizes⟩ := by
    rcases untagged with rfl | ⟨cell, own, rfl⟩
    · exact grown.target.refresh fresh
    · obtain ⟨-, live, present, -, -⟩ := fits.suits
      exact grown.target.refreshed ((Heap.isAlive_congr grown.flags _).trans live)
        (Nat.lt_of_lt_of_le present grown.counted)
  obtain ⟨storages, flags⟩ := later.storages_refreshAll [target]
  rw [List.foldl_cons, List.foldl_nil] at storages flags
  have read (cell : Nat) : (later.refresh target).storage cell = later.storage cell := by
    rw [Heap.storage, storages, Heap.storage]
  refine ⟨?_, ?_, flags.trans grown.flags, ?_, reports, wrapped.refresh fresh⟩
  · exact h.base.trans untagged.base
  · rw [read, ← untagged.base]
    exact grown.storage
  · rw [Heap.size_wrappers_refresh]
    exact grown.counted

/-- On the way out of a differentiation layer the value below the tag of the layer is resized.
Looking again at the arguments brings the tag up to date, which is where the caller's handle learns
of the new sizes.
-/
theorem resizes_leaveDifferentiation (holds : Contract.resizes.Holds budget)
    (within : machine.InBody layer below) (kind : layer.kind = .differentiation)
    : Contract.resizes (budget + 1) (layer :: below) op machine
        (exitInterceptor.run (nested budget) op) := by
  intro outer arguments named supplied
  let mid (result : Tensor) (memory : Memory) : Prop :=
    ∃ target value listed sizes,
      arguments = [.tensor target, .ints listed]
      ∧ target.Untagged layer.level value
      ∧ Value.sizesAt arguments op.name 1 = .ok sizes
      ∧ Tensor.Resized sizes machine.heap value memory.heap result
  refine @leaves_untagging _ _ _ _ _ _ _ _ _ mid supplied within kind ?_ ?_
  · intro copied held given _ _ handed untagged
    apply (holds.resizes handed named supplied.fits untagged fun _ _ => Tensor.Untagged.base).mono ?_
      fun _ _ => id
    intro _ _ _ left
    rcases left with ⟨target, value, listed, sizes, result, same, untagged, asked, values, resized⟩
    exact ⟨result, values, target, value, listed, sizes, same, untagged, asked, resized⟩
  · intro result flag memory alive left
    rcases left with ⟨target, value, listed, sizes, rfl, untagged, asked, resized⟩
    have fits := supplied.fits target List.mem_cons_self
    exact ⟨target, listed, sizes, _, rfl, asked, rfl, resized.tagged untagged alive fits⟩

theorem resizes_leaveBatching (holds : Contract.resizes.Holds budget)
    (within : machine.InBody layer below) (kind : layer.kind = .batching)
    (owned
      : owners = below
        ∨ (owners = layer :: below
          ∧ (Value.carried machine.heap (machine.lastValues op.arity)).contains .batched = false))
    : Contract.resizes (budget + 1) owners op machine
        (exitInterceptor.run (nested budget) op) := by
  intro outer arguments named supplied
  exact leaves_unbatched supplied within kind owned fun held _ handed =>
    holds.resizes_same handed named supplied.fits

/-- Every kernel resizes what the calls that it issues resize. No batch is resized, because there is
no rule for it.
-/
theorem Contract.resizes_kept : Contract.resizes.Kept where
  congr same resizes outer arguments named supplied :=
    .congr same (resizes outer arguments named supplied)
  unhandled ended unhandled _ _ _ _ := leaves_ended ended unhandled.orderly trivial
  traced resizes outer arguments named supplied :=
    .traced (resizes outer arguments named (supplied.inSpan _))
  base poses _ found _ := resizes_base poses found
  outside holds _ atBase := resizes_outside holds atBase
  enter holds _ above front := resizes_enter holds above front
  differentiate holds poses within kind shown _ :=
    resizes_differentiate holds poses within kind shown
  leaveDifferentiation holds _ within kind _ := resizes_leaveDifferentiation holds within kind
  leaveBatching holds _ within kind _ owned := resizes_leaveBatching holds within kind owned
  pointwise _ _ _ _ _ _ listed _ _ named := by simp [named] at listed
  unsqueeze _ _ _ _ _ _ same _ _ named := by
    subst same
    exact absurd named (by decide)
  addInPlace _ _ _ _ _ _ same _ _ named := by
    subst same
    exact absurd named (by decide)
  missingRule _ _ _ _ :=
    (still_log _).leaves_bind (fun _ => trivial) fun _ _ _ _ _ => leaves_fail trivial
  random _ _ _ _ _ _ same _ _ named := by
    subst same
    exact absurd named (by decide)

-----------------------------------------------------------------------------------------
-- Calls by name
-----------------------------------------------------------------------------------------

/-- Sizes are read from a list without negative entries, which is the list of the sizes that are
read.
-/
theorem Value.mapM_toNat {name : String} {index : Nat}
    (h
      : listed.mapM
          (fun size =>
            if 0 ≤ size then Except.ok size.toNat
            else (Outcome.fail (.invalidArgument name index (.negativeSize size)) : Outcome Size))
        = .ok sizes)
    : listed = sizes.map Int.ofNat := by
  induction listed generalizing sizes with
  | nil =>
      cases h
      rfl
  | cons size listed ih =>
      rw [List.mapM_cons] at h
      obtain ⟨first, head, h⟩ := Outcome.bind_ok h
      obtain ⟨others, rest, h⟩ := Outcome.bind_ok h
      cases h
      split at head
      · rename_i natural
        cases head
        rw [List.map_cons, ← ih rest, Int.ofNat_eq_natCast, Int.toNat_of_nonneg natural]
      · cases head

/-- Under a built stack a call that resizes is given a tensor and sizes, and gives a tensor back. It
is one of the nested calls, at the depth with which a call by name starts.
-/
theorem Dispatcher.leaves_resizes (built : machine.Built)
    (fits : ∀ tensor ∈ Value.tensorsAll arguments, tensor.Fits machine.heap machine.thread.layers)
    : (standard.call "resize_" arguments).Leaves machine
        (fun results _ memory =>
          ∃ target sizes result,
            arguments = [.tensor target, .ints (sizes.map Int.ofNat)]
            ∧ results = [.tensor result]
            ∧ Tensor.Resized sizes machine.heap target memory.heap result)
        (fun _ _ => True) := by
  refine leaves_standard built (fun _ _ => trivial) ?_
  intro op named count calling
  have resizes : Contract.resizes.Holds (standard.budget machine.thread.layers.length) :=
    Contract.resizes_kept.holds _
  have supplied := built.founded.supplied calling count fits
  apply (resizes calling [] _ named supplied).mono ?_ fun _ _ => id
  intro _ _ _ left
  rcases left with ⟨target, listed, sizes, result, rfl, asked, rfl, resized⟩
  exact ⟨target, sizes, result, by rw [← Value.mapM_toNat asked], rfl, resized⟩

/-- Resizing in place reaches every wrapper. Under a built stack, after a call that resizes a well-formed
tensor, the dense tensor at the end of the result is the one at the end of the target. Its entries are
the old ones, cut or extended with zeros to as many as the sizes ask for; and the target, the result and
all values below their wrappers report these sizes.
-/
theorem Dispatcher.call_resizes (built : machine.Built)
    (wellFormed : target.WellFormed machine.heap machine.thread.layers)
    (ended
      : standard.call "resize_" [.tensor target, .ints listed] machine = .ok values reached)
    : ∃ sizes result,
        listed = sizes.map Int.ofNat
        ∧ values = [.tensor result]
        ∧ result.baseCell = target.baseCell
        ∧ reached.heap.storage target.baseCell
          = ⟨⟨sizes⟩,
              (machine.heap.storage target.baseCell).data.take sizes.prod
                ++ Array.replicate
                    (sizes.prod - (machine.heap.storage target.baseCell).data.size) 0⟩
        ∧ ∀ part ∈ target.parts ++ result.parts, part.shape reached.heap = ⟨sizes⟩ := by
  have fits := (Tensor.wellFormed_iff_fits built.founded.levelled).mp wellFormed
  have resizes := @leaves_resizes machine [.tensor target, .ints listed] built
    (List.forall_mem_singleton.mpr fits)
  obtain ⟨-, _, sizes, result, ⟨⟩, given, resized⟩ := Ends.of_ok resizes ended
  refine ⟨sizes, result, rfl, given, resized.base, Storage.resize_ok resized.storage, ?_⟩
  intro part member
  rcases List.mem_append.mp member with member | member
  · exact resized.target.shape_part part member
  · exact resized.result.shape_part part member

/-- Witness: a tensor with tags from above and from below a batching layer is made longer. -/
theorem Dispatcher.call_resizes_three_layers
    : ∃ (machine reached : Machine) (target result : Tensor),
        machine.Built
        ∧ target.WellFormed machine.heap machine.thread.layers
        ∧ target.levels = [3, 1]
        ∧ standard.call "resize_" [.tensor target, .ints [3, 2]] machine = .ok [.tensor result] reached
        ∧ result.baseCell = target.baseCell
        ∧ reached.heap.storage target.baseCell = ⟨⟨[3, 2]⟩, #[1, 2, 3, 4, 0, 0]⟩
        ∧ ∀ part ∈ target.parts ++ result.parts, part.shape reached.heap = ⟨[3, 2]⟩ := by
  let fresh : Machine :=
    { heap :=
        { storages := #[⟨⟨[2, 2]⟩, #[1, 2, 3, 4]⟩]
          wrappers := #[{ shape := ⟨[2, 2]⟩ }, { shape := ⟨[2, 2]⟩ }] } }
  let target : Tensor := .tagged 1 3 2 (.tagged 0 1 0 (.dense 0))
  have opened := Machine.Built.opened
    (.opened
      (.opened (@Machine.Built.fresh fresh rfl rfl)
        (rfl : openLayer (.differentiation (some false) none) fresh = .ok 1 _))
      (rfl : openLayer (.batching 2 .error) _ = .ok 2 _))
    (rfl : openLayer (.differentiation (some true) none) _ = .ok 3 _)
  obtain ⟨machine, built, wellFormed, stored, succeeds⟩
      : ∃ machine : Machine,
          machine.Built
          ∧ target.WellFormed machine.heap machine.thread.layers
          ∧ machine.heap.storage 0 = ⟨⟨[2, 2]⟩, #[1, 2, 3, 4]⟩
          ∧ (standard.call "resize_" [.tensor target, .ints [3, 2]]).succeeds machine = true := by
    refine ⟨_, opened, ⟨by decide, ?_⟩, rfl, by decide +kernel⟩
    exact ⟨⟨_, List.mem_cons_self, rfl, rfl⟩, rfl, by decide, rfl,
      ⟨_, List.mem_cons_of_mem _ (List.mem_cons_of_mem _ List.mem_cons_self), rfl, rfl⟩, rfl,
      by decide, rfl, by decide, rfl⟩
  obtain ⟨results, reached, ended⟩ := succeeds_iff.mp succeeds
  obtain ⟨sizes, result, listed, rfl, base, storage, shapes⟩ := call_resizes built wellFormed ended
  obtain rfl : sizes = [3, 2] := List.map_injective_iff.mpr (fun _ _ => Int.ofNat.inj) listed.symm
  rw [show target.baseCell = 0 from rfl, stored] at storage
  exact ⟨machine, reached, target, result, built, wellFormed, rfl, ended, base, storage, shapes⟩

end

end LayeredDispatch
