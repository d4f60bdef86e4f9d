import LayeredDispatch.Proofs.Families.Padding

/-! The rules of batching layers answer requests if the calls that they issue do. A rule replaces
operands that the layer has batched by their physical values; what it makes of these is a batch whose
entries are answers.
-/

namespace LayeredDispatch

open Run

/-- What takes the place of an operand of an element-wise operator: a batch that is padded to logical
rank `rank`, or the operand itself if the layer has not batched it.
-/
inductive Tensor.Aligned (layer : Layer) (below : List Layer) (size rank : Nat) (before : Heap)
    (tensor : Tensor) (after : Heap) (other : Tensor)
    : Prop where
  | batch (own : (tensor.physicalAt? layer.level).isSome = true) (fits : other.Fits after below)
    (full : (other.shape after).rank = rank + 1)
    (shape : Shape.Entry size rank (other.shape after) (tensor.shape before))
    (member
      : ∀ index, Layer.InBatches below index →
          Storage.Entry size (index layer.level) rank (other.member after index)
            (tensor.member before index))
  | alone (own : tensor.physicalAt? layer.level = none)
    (short : (tensor.shape before).rank ≤ rank)
    (stands : Tensor.StandsFor below before tensor after other)

namespace Tensor

variable {layer : Layer} {below : List Layer} {size rank : Nat} {heap before middle after : Heap}
  {tensor between other physical : Tensor} {dims : List Nat}

/-- The physical value of a batched operand belongs to the layers below, has the batch in front of
the shape of the operand, and the members of the operand as its entries.
-/
theorem Fits.physicalAt? (h : tensor.Fits heap (layer :: below))
    (levelled : Layer.Levelled (layer :: below)) (batch : layer.transform.batchSize? = some size)
    (found : tensor.physicalAt? layer.level = some physical)
    : physical.Fits heap below
      ∧ ∃ dims,
          physical.shape heap = ⟨size :: dims⟩
          ∧ tensor.shape heap = ⟨dims⟩
          ∧ ∀ index,
              tensor.member heap index = (physical.member heap index).slice (index layer.level) := by
  obtain ⟨handle, rfl⟩ := physicalAt?_eq_some found
  cases h with
  | alone fits =>
      have le := fits.level_le levelled.2 List.mem_cons_self
      rw [levelled.1] at le
      exact absurd le (Nat.not_succ_le_self _)
  | batched batch' outermost fits =>
      obtain rfl := Option.some.inj (batch.symm.trans batch')
      obtain ⟨dims, same⟩ := List.head?_eq_some_iff.mp outermost
      have shape : physical.shape heap = ⟨size :: dims⟩ := congrArg Shape.mk same
      refine ⟨fits, dims, shape, ?_, fun index => rfl⟩
      rw [Tensor.shape, shape]
      rfl

/-- What a batching layer has not batched belongs to the layers below. -/
theorem Fits.of_shared (h : tensor.Fits heap (layer :: below)) (kind : layer.kind = .batching)
    (shared : tensor.physicalAt? layer.level = none)
    : tensor.Fits heap below := by
  cases h with
  | alone fits => exact fits
  | tagged other alive present accurate fits =>
      rw [kind] at other
      cases other
  | batched batch outermost fits => simp [Tensor.physicalAt?] at shared

/-- What takes the place of an operand fits the layers below. -/
theorem Aligned.fits (h : Aligned layer below size rank before tensor after other)
    : other.Fits after below := by
  cases h with
  | batch own fits full shape member => exact fits
  | alone own short stands => exact stands.fits

/-- Its shape is that of a padded batch, or the one of the operand. -/
theorem Aligned.shape (h : Aligned layer below size rank before tensor after other)
    : Shape.Entry size rank (other.shape after) (tensor.shape before) := by
  cases h with
  | batch own fits full shape member => exact shape
  | alone own short stands =>
      rw [stands.shape]
      exact .shared _ short

/-- The members of what takes the place of an operand are batches of its members, or the same. -/
theorem Aligned.entry (h : Aligned layer below size rank before tensor after other)
    {index : Level → Nat} (inBatches : Layer.InBatches below index)
    : Storage.Entry size (index layer.level) rank (other.member after index)
        (tensor.member before index) := by
  cases h with
  | batch own fits full shape member => exact member index inBatches
  | alone own short stands =>
      rw [← stands.member]
      refine .shared _ ?_
      rwa [stands.fits.shape_member, stands.shape]

/-- An operand may be looked at on an earlier heap, as long as it stands in for itself. -/
theorem Aligned.of_standsFor (stands : StandsFor (layer :: below) before tensor middle tensor)
    (h : Aligned layer below size rank middle tensor after other)
    : Aligned layer below size rank before tensor after other := by
  cases h with
  | batch own fits full shape member =>
      refine .batch own fits full (by rwa [← stands.shape]) ?_
      intro index inBatches
      rw [← stands.member]
      exact member index inBatches
  | alone own short later =>
      exact .alone own (by rwa [← stands.shape]) (stands.trans later)

/-- What takes the place of an operand does so while the heap grows for the others. -/
theorem Aligned.grows {later : Heap} (h : Aligned layer below size rank before tensor after other)
    (grows : after.Grows later)
    : Aligned layer below size rank before tensor later other := by
  cases h with
  | batch own fits full shape member =>
      have stands := fits.grows grows
      refine .batch own stands.fits (by rwa [stands.shape]) (by rwa [stands.shape]) ?_
      intro index inBatches
      rw [stands.member]
      exact member index inBatches
  | alone own short stands => exact .alone own short (stands.grows grows)

theorem Fits.member_eq {layers : List Layer} {shape : Shape} (h : tensor.Fits heap layers)
    (same : tensor.shape heap = shape) (index : Level → Nat)
    : tensor.member heap index = ⟨shape, (tensor.member heap index).data⟩ := by
  rw [← same, ← h.shape_member index]

/-- A padded batch takes the place of a batched operand. The ones that were inserted bring the rank
of its entries up to the greatest rank.
-/
theorem Padded.aligned (own : tensor.physicalAt? layer.level = some physical)
    (fits : physical.Fits before below) (shape : physical.shape before = ⟨size :: dims⟩)
    (entry : tensor.shape before = ⟨dims⟩)
    (member
      : ∀ index,
          tensor.member before index
          = (physical.member before index).slice (index layer.level))
    (short : dims.length ≤ rank)
    (padded : Padded below size dims before physical (rank - dims.length) after other)
    : Aligned layer below size rank before tensor after other := by
  have reached : dims.length + (rank - dims.length) = rank := Nat.add_sub_cancel' short
  refine .batch (by rw [own]; rfl) padded.fits ?_ ?_ fun index inBatches => ?_
  · rw [padded.rank_eq, reached]
  · rw [padded.shape, entry]
    exact .batched dims _ reached
  · rw [member, padded.fits.member_eq padded.shape, padded.data index inBatches,
      fits.member_eq shape]
    exact .batched dims _ _ reached

end Tensor

section

variable {machine : Machine} {layer : Layer} {below : List Layer} {size budget rank : Nat}
  {calls : Calls} {tensor stand : Tensor} {request other : Request Tensor} {outer : List Value}
  {before after : Heap}

/-- An operand is padded if the layer has batched it, and stays as it is otherwise. Padding fails
for sizes only.
-/
theorem meets_align (h : calls.Answering budget) (serves : machine.Serves below budget)
    (levelled : Layer.Levelled (layer :: below)) (batch : layer.transform.batchSize? = some size)
    (fits : tensor.Fits machine.heap (layer :: below))
    (short : (tensor.shape machine.heap).rank ≤ rank)
    : Run.Meets
        (match tensor.physicalAt? layer.level with
          | none => return tensor
          | some physical => Batching.padToRank calls physical rank)
        machine
        (fun other values heap =>
          values = machine.values
          ∧ machine.heap.Grows heap
          ∧ Tensor.Aligned layer below size rank machine.heap tensor heap other)
        Exit.TooLarge := by
  cases found : tensor.physicalAt? layer.level with
  | none =>
      have below := fits.of_shared (Layer.kind_of_batchSize? batch) found
      exact meets_pure ⟨rfl, .refl _, .alone found short below.standsFor⟩
  | some physical =>
      obtain ⟨inner, dims, shape, entry, member⟩ := fits.physicalAt? levelled batch found
      have short : dims.length ≤ rank := by
        rw [entry] at short
        exact short
      refine (meets_pad h serves (inner.unpadded shape) (rank + 2) short (by omega)).mono ?_
        fun _ => id
      rintro result values heap ⟨same, grows, padded⟩
      exact ⟨same, grows, padded.aligned found inner shape entry member short⟩

/-- A result below a batching layer whose entries answer a request. -/
structure Request.AnsweredEach (request : Request Tensor) (layer : Layer) (below : List Layer)
    (size : Nat) (before after : Heap) (result : Tensor)
    : Prop where
  fits : result.Fits after below
  shape
    : (request.map (Tensor.shape before)).onShape.map (·.withLeading size)
      = some (result.shape after)
  member
    : ∀ index, Layer.InBatches (layer :: below) index →
        (request.map (Tensor.member before index)).onDense
        = .ok ((result.member after index).slice (index layer.level))

/-- Marked as batched, a result whose entries answer a request answers it. The members of the batch
are its entries, at the index of the level of the layer.
-/
theorem Request.AnsweredEach.newBatched {result : Tensor}
    (h : request.AnsweredEach layer below size before after result)
    (batch : layer.transform.batchSize? = some size)
    : request.Answered (layer :: below) before (after.newBatched result layer.level).2
        (after.newBatched result layer.level).1 := by
  obtain ⟨shape, suits, leading⟩ := Option.map_eq_some_iff.mp h.shape
  have stands := h.fits.grows (after.grows_newBatched result layer.level)
  refine ⟨h.fits.newBatched batch ?_, ?_, fun index inBatches => ?_⟩
  · rw [← leading]
    rfl
  · change _ = some ((result.shape (after.newBatched result layer.level).2).dropLeading)
    rw [suits, stands.shape, ← leading]
    rfl
  · rw [h.member index inBatches, ← stands.member]
    rfl

/-- The last value is marked as batched. -/
theorem wrapResults_apply {result : Tensor} (values : machine.values = outer ++ [.tensor result])
    (level : Level)
    : Batching.wrapResults 1 level machine
      = .ok () { machine with
          values := outer ++ [.tensor (machine.heap.newBatched result level).1]
          heap := (machine.heap.newBatched result level).2 } := by
  have start : Size.sub? (outer ++ [Value.tensor result]).length 1 = some outer.length := by
    simp [Size.sub?]
  have found : Outcome.orFault (some outer.length) .overflow = .ok outer.length := rfl
  unfold Batching.wrapResults
  simp only [bind_apply, read_apply, values, start, found, lift_ok_apply, List.drop_left,
    List.take_left, List.mapM_cons, List.mapM_nil, batchAt, allocate_apply, pure_apply]
  rfl

/-- The result of a rule is marked as batched, which turns entries that answer into an answer. -/
theorem meets_wrapResults {failed : Exit → Prop} {result : Tensor} {before : Heap}
    (values : machine.values = outer ++ [.tensor result]) (grows : before.Grows machine.heap)
    (batch : layer.transform.batchSize? = some size)
    (answered : request.AnsweredEach layer below size before machine.heap result)
    : (Batching.wrapResults 1 layer.level).Meets machine
        (fun _ values heap =>
          ∃ result,
            values = outer ++ [.tensor result]
            ∧ before.Grows heap
            ∧ request.Answered (layer :: below) before heap result)
        failed :=
  (quiet_writing.wrapResults 1 layer.level).meets (wrapResults_apply values layer.level)
    ⟨_, rfl, grows.trans (machine.heap.grows_newBatched result layer.level),
      answered.newBatched batch⟩

-----------------------------------------------------------------------------------------
-- Element-wise operators
-----------------------------------------------------------------------------------------

/-- The members of the operands have the shapes of the operands. -/
theorem Request.shapes_member {layers : List Layer}
    (fits : ∀ tensor ∈ request.operands, tensor.Fits before layers) (index : Level → Nat)
    : (request.map (Tensor.member before index)).map Storage.shape
      = request.map (Tensor.shape before) := by
  rw [Request.map_map]
  exact request.map_congr fun tensor member => (fits tensor member).shape_member index

/-- What takes the place of a batch has a greater rank than all operands. -/
theorem Tensor.Aligned.larger (own : (tensor.physicalAt? layer.level).isSome = true)
    (h : Tensor.Aligned layer below size rank before tensor after stand)
    : rank < (stand.shape after).rank := by
  cases h with
  | batch _ fits full shape member => exact full ▸ Nat.lt_succ_self rank
  | alone shared short stands =>
      rw [shared] at own
      cases own

section

variable (pointwise : request.isPointwise = true)
  (related
    : request.Related
        (fun tensor =>
          Tensor.Aligned layer below size (request.map (Tensor.shape before)).rank before tensor
            after) other)
  (own : ∃ tensor ∈ request.operands, (tensor.physicalAt? layer.level).isSome = true)

include pointwise related own

/-- Aligned shapes suit the operator where those of the operands do, and the result has the batch in
front.
-/
theorem Request.onShape_aligned
    : (other.map (Tensor.shape after)).onShape
      = (request.map (Tensor.shape before)).onShape.map (·.withLeading size) := by
  obtain ⟨tensor, member, own⟩ := own
  obtain ⟨stand, member, aligned⟩ := related.exists_right member
  refine Request.onShape_entry ?_ (related.flip_map fun _ _ => Tensor.Aligned.shape)
    ⟨stand.shape after, ?_, aligned.larger own⟩
  · rwa [other.isPointwise_map, related.isPointwise_eq]
  · rw [other.operands_map]
    exact List.mem_map_of_mem member

/-- An element-wise operator on aligned operands answers entry by entry. The member at an index is
an entry of what the operator makes of the batches, which is what it makes of their entries.
-/
theorem Request.Answered.each {later : Heap} {result : Tensor}
    (fits : ∀ tensor ∈ request.operands, tensor.Fits before (layer :: below))
    (batch : layer.transform.batchSize? = some size)
    (answered : other.Answered below after later result)
    : request.AnsweredEach layer below size before later result := by
  refine ⟨answered.fits, ?_, fun index inBatches => ?_⟩
  · rw [← answered.shape, Request.onShape_aligned pointwise related own]
  · obtain ⟨tensor, member, own⟩ := own
    obtain ⟨stand, member, aligned⟩ := related.exists_right member
    have lower : Layer.InBatches below index := fun _ => inBatches _ ∘ List.mem_cons_of_mem _
    refine Request.onDense_entry ?_ (related.flip_map fun _ _ aligned => ?_)
      ⟨stand.member after index, ?_, ?_⟩ (inBatches _ List.mem_cons_self _ batch) ?_
      (answered.member index lower)
    · rwa [other.isPointwise_map, related.isPointwise_eq]
    · rw [Request.shapes_member fits]
      exact aligned.entry lower
    · rw [other.operands_map]
      exact List.mem_map_of_mem member
    · rw [Request.shapes_member fits, aligned.fits.shape_member]
      exact aligned.larger own
    · rw [request.operands_map]
      intro storage inside
      obtain ⟨operand, member, rfl⟩ := List.mem_map.mp inside
      exact (fits operand member).sized_member inBatches

/-- Where the physical values do not suit the operator, the operands do not. -/
theorem Request.Refused.each {exit : Exit} (refused : other.Refused after exit)
    : request.Refused before exit := by
  rwa [Request.Refused, Request.onShape_aligned pointwise related own,
    Option.map_eq_none_iff] at refused

end

/-- The rank that the rule pads to is the greatest one among the operands. -/
theorem Request.logicalRank_arguments (request : Request Tensor) (heap : Heap)
    : Batching.logicalRank heap request.arguments
      = (request.map (Tensor.shape heap)).rank := by
  cases request <;>
    simp [Batching.logicalRank, Request.arguments, Request.map, Request.rank, Value.tensor?,
      List.filterMap_cons]

/-- Physical values are replaced, other arguments stay. The loop over the arguments is one over the
operands, since the others are no tensors.
-/
theorem Request.mapM_arguments (request : Request Tensor) (level : Level)
    (replace : Tensor → Run Tensor)
    : request.arguments.mapM (fun argument =>
          match Batching.physicalArgument? level argument with
          | none => return argument
          | some physical => return .tensor (← replace physical))
      = Request.arguments <$> request.traverse fun tensor =>
          match tensor.physicalAt? level with
          | none => return tensor
          | some physical => replace physical := by
  cases request with
  | binary op left right =>
      simp only [Request.arguments, Request.traverse, List.mapM_cons, List.mapM_nil,
        Batching.physicalArgument?, Value.tensor?, Option.bind_some]
      cases left.physicalAt? level <;> cases right.physicalAt? level <;>
        simp [Request.arguments]
  | neg input =>
      simp only [Request.arguments, Request.traverse, List.mapM_cons, List.mapM_nil,
        Batching.physicalArgument?, Value.tensor?, Option.bind_some]
      cases input.physicalAt? level <;> simp [Request.arguments]
  | unsqueeze input dim =>
      simp only [Request.arguments, Request.traverse, List.mapM_cons, List.mapM_nil,
        Batching.physicalArgument?, Value.tensor?, Option.bind_some, Option.bind_none]
      cases input.physicalAt? level <;> simp [Request.arguments]

theorem Request.any_arguments (request : Request Tensor) (level : Level)
    : (request.arguments.any fun argument =>
          (Batching.physicalArgument? level argument).isSome)
      = request.operands.any fun tensor => (tensor.physicalAt? level).isSome := by
  cases request <;>
    simp [Request.arguments, Request.operands, Batching.physicalArgument?, Value.tensor?]

/-- In the body of a batching layer, with its hook hidden, requests of tensors that fit the layers
below are answered, and there is a step less to the base.
-/
theorem Request.Posed.serves {held : Machine} {values : List Value}
    (posed : request.Posed (layer :: below) outer machine)
    (top : machine.thread.layers = layer :: below) (grounded : Layer.Grounded (layer :: below))
    (kind : layer.kind = .batching) (inBody : machine.thread.overlay.InBody .batching)
    (shown : machine.thread.overlay.excluded.contains .batched = false)
    (steps : machine.ambient.steps ≤ budget + 1)
    (atHeld
      : Machine.Shifted { machine with values } (machine.ambient.hide (.only .batched)) held)
    : held.Serves below budget := by
  refine ⟨?_, ?_, ?_⟩
  · rw [atHeld.ambient]
    exact .hide_batched top grounded kind inBody
  · have registered : Machine.Registered { machine with values } := posed.registered
    exact registered.shifted atHeld fun _ => id
  · have less := @Ambient.steps_hide machine.ambient layer below (.only .batched) top inBody.entry
      (by rwa [kind]) (by rw [kind]; rfl)
    rw [atHeld.ambient]
    exact Nat.le_of_lt_succ (Nat.lt_of_lt_of_le less steps)

/-- All operands are aligned, one after another, to the greatest rank among them. Each stays aligned
while the heap grows for the others.
-/
theorem meets_alignAll (h : calls.Answering budget) (serves : machine.Serves below budget)
    (levelled : Layer.Levelled (layer :: below)) (batch : layer.transform.batchSize? = some size)
    (fits : ∀ tensor ∈ request.operands, tensor.Fits machine.heap (layer :: below))
    : (request.arguments.mapM fun argument =>
          match Batching.physicalArgument? layer.level argument with
          | none => return argument
          | some physical =>
              return Value.tensor
                (← Batching.padToRank calls physical
                  (Batching.logicalRank machine.heap request.arguments))).Meets machine
        (fun arguments values heap =>
          ∃ other : Request Tensor,
            arguments = other.arguments
            ∧ values = machine.values
            ∧ machine.heap.Grows heap
            ∧ request.Related
                (fun tensor =>
                  Tensor.Aligned layer below size (request.map (Tensor.shape machine.heap)).rank
                    machine.heap tensor heap) other)
        Exit.TooLarge := by
  have stable (tensor other : Tensor) (before after : Heap)
      (aligned
        : Tensor.Aligned layer below size (request.map (Tensor.shape machine.heap)).rank
            machine.heap tensor before other)
      (grows : before.Grows after) :=
    aligned.grows grows
  rw [request.logicalRank_arguments, request.mapM_arguments]
  refine Meets.map (Meets.mono (Meets.traverse (fun tensor member start resumes _ grows => ?_)
    stable) ?_ fun _ => id)
  · have stands := (fits tensor member).grows grows
    refine (meets_align h (serves.resumes resumes) levelled batch stands.fits ?_).mono ?_
      fun _ => id
    · rw [stands.shape]
      refine Request.le_rank ?_
      rw [request.operands_map]
      exact List.mem_map_of_mem member
    · rintro other _ heap ⟨same, grown, aligned⟩
      exact ⟨same, grown, aligned.of_standsFor stands⟩
  · exact fun other _ _ left => ⟨other, rfl, left⟩

/-- The rule for element-wise operators answers requests. The operands are aligned, the call on them
is answered by the layers below, and its entries answer the request.
-/
theorem answers_pointwise (h : calls.Answering budget)
    (posed : request.Posed (layer :: below) outer machine)
    (top : machine.thread.layers = layer :: below) (grounded : Layer.Grounded (layer :: below))
    (batch : layer.transform.batchSize? = some size)
    (inBody : machine.thread.overlay.InBody .batching)
    (shown : machine.thread.overlay.excluded.contains .batched = false)
    (steps : machine.ambient.steps ≤ budget + 1) (pointwise : request.isPointwise = true)
    : (Batching.pointwise.run calls request.schema).Answers request (layer :: below) outer
        machine := by
  have kind := Layer.kind_of_batchSize? batch
  have popped := pop_append posed.values
  rw [request.length_arguments] at popped
  refine quiet_writing.currentLayer.step (currentLayer_apply top) ?_
  refine (quiet_writing.pop _).step popped ?_
  refine (quiet_read _).step rfl ?_
  refine .holding (moves_hide _ _) ?_
  intro held atHeld
  have serves := posed.serves top grounded kind inBody shown steps atHeld
  have values : held.values = outer := atHeld.values
  have heap : held.heap = machine.heap := atHeld.heap
  have fits := posed.fits
  rw [← heap] at fits ⊢
  have aligning := (meets_alignAll h serves grounded.levelled batch fits).mono (fun _ _ _ => id)
    (fun _ large => (Or.inr large : request.Refused held.heap _))
  refine Meets.bind aligning ?_
  intro _ aligned _ resumes given
  rcases given with ⟨other, same, values', grows, related⟩
  subst same
  refine (quiet_writing.pushAll _).step rfl ?_
  have answers
      : (calls.dispatch other.schema).Answers other below outer
          { aligned with values := aligned.values ++ other.arguments } := by
    refine h.answers ((serves.resumes resumes).withValues _) ?_
      (related.right fun _ _ => Tensor.Aligned.fits)
    rw [values', values]
  rw [related.schema_eq] at answers
  rw [request.any_arguments, request.resultCount_schema]
  by_cases own : (request.operands.any fun tensor => (tensor.physicalAt? layer.level).isSome) = true
  · have owned := List.any_eq_true.mp own
    rw [if_pos own]
    refine Meets.bind (answers.mono (fun _ _ _ => id)
      fun _ => Request.Refused.each pointwise related owned) ?_
    intro _ returned _ _ given
    rcases given with ⟨result, values, grown, answer⟩
    exact meets_wrapResults values (grows.trans grown) batch
      (answer.each pointwise related owned fits batch)
  · have stands
        : request.Related
            (fun tensor => Tensor.StandsFor below held.heap tensor aligned.heap) other := by
      refine related.mono ?_
      intro tensor member stand aligned
      cases aligned with
      | batch isOwn fits full shape entry =>
          exact absurd (List.any_eq_true.mpr ⟨tensor, member, isOwn⟩) own
      | alone shared short stands => exact stands
    rw [if_neg own]
    refine Meets.bind (answers.of_standsFor stands grows) ?_
    intro _ returned _ _ given
    rcases given with ⟨result, values, grown, answer⟩
    exact meets_pure ⟨result, values, grown, answer.above⟩

-----------------------------------------------------------------------------------------
-- Inserted dimensions
-----------------------------------------------------------------------------------------

/-- A dimension that is inserted into the physical value, one place further, is inserted into each
entry.
-/
theorem Request.Answered.unsqueeze_each {later : Heap} {physical result : Tensor} {dim : Int}
    {dims : List Nat} (natural : 0 ≤ dim) (fits : physical.Fits before below)
    (shape : physical.shape before = ⟨size :: dims⟩) (entry : tensor.shape before = ⟨dims⟩)
    (member
      : ∀ index,
          tensor.member before index
          = (physical.member before index).slice (index layer.level))
    (answered : (Request.unsqueeze physical (dim + 1)).Answered below before later result)
    : (Request.unsqueeze tensor dim).AnsweredEach layer below size before later result := by
  refine ⟨answered.fits, ?_, fun index inBatches => ?_⟩
  · rw [← answered.shape, Request.map, Request.map, entry, shape,
      Request.onShape_unsqueeze dims natural]
  · have lower : Layer.InBatches below index := fun _ => inBatches _ ∘ List.mem_cons_of_mem _
    have made := answered.member index lower
    rw [Request.map, fits.member_eq shape] at made
    rw [Request.map, member, fits.member_eq shape]
    exact Request.onDense_unsqueeze natural _ made

/-- The rule for inserting a dimension answers requests. A negative position, and one outside of the
shape, is refused by the rule itself as the base would refuse it.
-/
theorem answers_unsqueeze {dim : Int} (h : calls.Answering budget)
    (posed : (Request.unsqueeze tensor dim).Posed (layer :: below) outer machine)
    (top : machine.thread.layers = layer :: below) (grounded : Layer.Grounded (layer :: below))
    (batch : layer.transform.batchSize? = some size)
    (inBody : machine.thread.overlay.InBody .batching)
    (shown : machine.thread.overlay.excluded.contains .batched = false)
    (steps : machine.ambient.steps ≤ budget + 1)
    : (Batching.unsqueeze.run calls (Request.unsqueeze tensor dim).schema).Answers
        (.unsqueeze tensor dim) (layer :: below) outer machine := by
  have kind := Layer.kind_of_batchSize? batch
  have values : machine.values = outer ++ [.tensor tensor, .int dim] := posed.values
  have popped
      : pop 2 machine = .ok [.tensor tensor, .int dim] { machine with values := outer } :=
    pop_append values
  refine quiet_writing.currentLayer.step (currentLayer_apply top) ?_
  refine (quiet_writing.pop _).step popped ?_
  refine (quiet_lift (Value.plain_tensorAt _ _ _).orderly).step (lift_ok_apply tensor _) ?_
  refine (quiet_lift (Value.plain_intAt _ _ _).orderly).step (lift_ok_apply dim _) ?_
  refine .holding (moves_hide _ _) ?_
  intro held atHeld
  have serves := posed.serves top grounded kind inBody shown steps atHeld
  have values : held.values = outer := atHeld.values
  have heap : held.heap = machine.heap := atHeld.heap
  have fits : tensor.Fits held.heap (layer :: below) := by
    rw [heap]
    exact posed.fits tensor (List.mem_singleton_self tensor)
  rw [← heap]
  cases found : tensor.physicalAt? layer.level with
  | none =>
      refine (quiet_writing.pushAll _).step rfl ?_
      have answers
          : (calls.dispatch (Request.unsqueeze tensor dim).schema).Answers
              (.unsqueeze tensor dim) below outer
              { held with values := held.values ++ [.tensor tensor, .int dim] } := by
        refine h.answers (serves.withValues _) (congrArg (· ++ _) values) ?_
        exact List.forall_mem_singleton.mpr (fits.of_shared kind found)
      exact answers.above
  | some physical =>
      obtain ⟨inner, dims, shape, entry, member⟩ := fits.physicalAt? grounded.levelled batch found
      refine (quiet_read _).step rfl ?_
      dsimp only
      split
      · rename_i inside
        refine (quiet_writing.pushAll _).step rfl ?_
        have answers
            : (calls.dispatch (Request.unsqueeze tensor dim).schema).Answers
                (.unsqueeze physical (dim + 1)) below outer
                { held with values := held.values ++ [.tensor physical, .int (dim + 1)] } :=
          @Calls.Answering.answers _ below budget calls (.unsqueeze physical (dim + 1)) outer h
            (serves.withValues _) (congrArg (· ++ _) values) (List.forall_mem_singleton.mpr inner)
        refine Meets.bind (answers.mono (fun _ _ _ => id) fun exit => Or.imp_left fun none => ?_) ?_
        · rw [Request.map, shape, Request.onShape_unsqueeze dims inside.1,
            Option.map_eq_none_iff] at none
          rwa [Request.map, entry]
        · rintro _ returned _ _ ⟨result, values, grown, answer⟩
          exact meets_wrapResults values grown batch
            (answer.unsqueeze_each inside.1 inner shape entry member)
      · rename_i outside
        refine meets_fail (Or.inl ?_)
        simp only [Request.map, Request.onShape, Shape.unsqueeze?]
        split
        · rw [if_neg]
          omega
        · rfl

end

end LayeredDispatch
