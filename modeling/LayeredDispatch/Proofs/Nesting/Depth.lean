import LayeredDispatch.Proofs.Dispatch.Confinement
import LayeredDispatch.Proofs.Nesting.Lengthening

/-! How deep the calls that kernels issue nest. Each kernel that hands a call on takes it nearer to the
base, and values are padded in as many calls as there are dimensions to reach. Main statement: a call
that may nest as deep as there are kernels on its way never runs out of room.
-/

namespace LayeredDispatch

open Run Dispatcher

/-- The hook that takes a call into the body of a layer. Random operators come to the rule of batching
layers for them, whatever their arguments are.
-/
def Layer.bodyHook (layer : Layer) (op : Schema) : Capability :=
  if layer.kind = .batching ∧ op.name = "rand" then .batchMode else layer.kind.hook

/-- How many kernels of the top layer a call has still to come to at most: those of entry, body and
exit, or some of them.
-/
def Overlay.stages (overlay : Overlay) (layer : Layer) (op : Schema) : Nat :=
  if overlay.excluded.contains .entryInterceptor = false then 3
  else if overlay.excluded.contains (layer.bodyHook op) = false then 2
  else 1

/-- How deep a call nests at most, itself included: three kernels for every layer below the top one, and
below all layers the base kernel, and before that the fallback if dead tags are to be taken off.
-/
def Machine.depth (machine : Machine) (op : Schema) : Nat :=
  match machine.thread.layers with
  | [] =>
      if (Value.carried machine.heap (machine.lastValues op.arity)).contains .taggedWrapper then 2
      else 1
  | layer :: below => 3 * below.length + 2 + machine.thread.overlay.stages layer op

/-- From `machine` the computation hands the state back and comes to an end before calls nest too deep.
-/
def Run.Finishes (body : Run α) (machine : Machine) : Prop :=
  body.Leaves machine (fun _ _ _ => True) (fun exit _ => exit ≠ .fault .diverged)

/-- Calls that may nest as deep as there are kernels on their way come to an end. -/
def Contract.finishes : Contract :=
  fun budget _ op machine body => machine.depth op ≤ budget → body.Finishes machine

/-- The same for a kernel, whose calls may nest `budget` deep. -/
def Kernel.Finishes (budget : Nat) (_ : List Layer) (op : Schema) (machine : Machine)
    (_ : Capability) (kernel : Kernel)
    : Prop :=
  machine.depth op ≤ budget + 1 → (kernel.run (nested budget) op).Finishes machine

/-- A state inside some layer in which a call may nest as deep as there are kernels on its way. -/
structure Machine.Ready (machine : Machine) (budget : Nat) (op : Schema) (owners : List Layer) : Prop
    where
  active : machine.thread.layers ≠ []
  calling : machine.Calling op owners
  room : machine.depth op ≤ budget

section

variable {machine held reached : Machine} {op : Schema} {layer : Layer} {below owners : List Layer}
  {budget rank made : Nat} {overlay : Overlay} {set : CapabilitySet} {tensor result : Tensor}
  {heap after : Heap}

-----------------------------------------------------------------------------------------
-- Computations that come to an end
-----------------------------------------------------------------------------------------

namespace Run

/-- A sequence comes to an end if its parts do, the second one from any state that the first one
hands back.
-/
theorem Finishes.bind {first : Run α} {next : α → Run β} (head : first.Finishes machine)
    (tail : ∀ value reached, machine.Resumes reached → (next value).Finishes reached)
    : (first >>= next).Finishes machine :=
  Leaves.bind head fun value reached _ resumes _ => tail value reached resumes

/-- What ends in one of the regular ways, and hands the state back, comes to an end: running out of
room is
not a regular way.
-/
theorem Confined.finishes {body : Run α} (h : body.Confined Exit.Regular) (quiet : Quiet body)
    (machine : Machine)
    : body.Finishes machine :=
  (h.mono fun _ => Exit.Regular.ne_diverged).meets quiet machine

theorem finishes_pure (value : α) (machine : Machine) : (pure value : Run α).Finishes machine :=
  leaves_pure trivial

theorem finishes_fail (error : DispatchError) (machine : Machine)
    : (fail error : Run α).Finishes machine :=
  leaves_fail nofun

/-- Visits one after another come to an end if each of them does, by induction on what is visited.
-/
theorem Finishes.mapM {visit : α → Run β} {items : List α}
    (each : ∀ item start, machine.Resumes start → (visit item).Finishes start)
    : (items.mapM visit).Finishes machine := by
  induction items generalizing machine with
  | nil => exact finishes_pure [] machine
  | cons item items ih =>
      rw [List.mapM_cons]
      refine (each item machine (.refl machine)).bind fun first reached resumes => ?_
      have rest : (items.mapM visit).Finishes reached :=
        ih fun item start later => each item start (resumes.trans later)
      exact rest.bind fun others final _ => finishes_pure _ final

end Run

-----------------------------------------------------------------------------------------
-- Steps to the base
-----------------------------------------------------------------------------------------

/-- A call that has a layer on top of it has one of its kernels to come to at least, that of its
exit.
-/
theorem Overlay.stages_pos (overlay : Overlay) (layer : Layer) (op : Schema)
    : 0 < overlay.stages layer op := by
  unfold stages
  split
  · decide
  · split <;> decide

/-- It has three to come to at most. -/
theorem Overlay.stages_le (overlay : Overlay) (layer : Layer) (op : Schema)
    : overlay.stages layer op ≤ 3 := by
  unfold stages
  split
  · decide
  · split <;> decide

/-- In the body of a layer its entry is behind a call. -/
theorem Overlay.stages_le_two (entry : overlay.excluded.contains .entryInterceptor = true)
    : overlay.stages layer op ≤ 2 := by
  rw [stages, entry, if_neg Bool.noConfusion]
  split <;> decide

/-- Below all layers a call whose arguments carry a dead tag goes through the fallback to the base
kernel.
-/
theorem Machine.depth_dead (layers : machine.thread.layers = [])
    (carries : machine.Carries op .taggedWrapper)
    : machine.depth op = 2 := by
  rw [depth, layers]
  exact if_pos carries

/-- Without dead tags it goes to the base kernel at once. -/
theorem Machine.depth_bare (layers : machine.thread.layers = [])
    (bare
      : (Value.carried machine.heap (machine.lastValues op.arity)).contains .taggedWrapper = false)
    : machine.depth op = 1 := by
  rw [depth, layers]
  exact if_neg (bare ▸ Bool.false_ne_true)

theorem Machine.depth_above (top : machine.thread.layers = layer :: below)
    : machine.depth op = 3 * below.length + 2 + machine.thread.overlay.stages layer op := by
  rw [depth, top]

theorem Machine.depth_pos (machine : Machine) (op : Schema) : 0 < machine.depth op := by
  unfold depth
  split
  · split <;> decide
  · omega

/-- A call nests at most three deep for every layer and two deeper, whatever the overlay shows or
hides.
-/
theorem Machine.depth_le (machine : Machine) (op : Schema)
    : machine.depth op ≤ 3 * machine.thread.layers.length + 2 := by
  cases layers : machine.thread.layers with
  | nil =>
      rw [depth, layers]
      simp only [List.length_nil]
      split <;> decide
  | cons layer below =>
      have stages := machine.thread.overlay.stages_le layer op
      rw [depth_above layers, List.length_cons]
      omega

/-- A state that has been handed back lets calls nest as deep as before: layers and hidden hooks are
the
same, and inside a layer nothing else counts.
-/
theorem Machine.depth_resumes (active : machine.thread.layers ≠ []) (resumes : machine.Resumes reached)
    : reached.depth op = machine.depth op := by
  obtain ⟨layer, below, top⟩ := List.exists_cons_of_ne_nil active
  rw [depth_above top, depth_above (resumes.layers.trans top), Overlay.stages, Overlay.stages,
    resumes.excluded]

/-- A call in front of a layer has three kernels of the layer to come to. -/
theorem Machine.depth_front (top : machine.thread.layers = layer :: below)
    (front : machine.thread.overlay.forces .entryInterceptor)
    : machine.depth op = 3 * below.length + 5 := by
  rw [depth_above top, Overlay.stages, if_pos front.2]

/-- A call in the body of a layer has two kernels of the layer to come to while the hook is shown.
-/
theorem Machine.InBody.depth_shown (within : machine.InBody layer below)
    (shown : machine.thread.overlay.excluded.contains (layer.bodyHook op) = false)
    : machine.depth op = 3 * below.length + 4 := by
  rw [Machine.depth_above within.top, Overlay.stages, within.inBody.entry, if_neg Bool.noConfusion,
    if_pos shown]

/-- A call above a layer nests deeper than any call below it. -/
theorem Machine.Above.lt_depth (above : machine.Above layer below)
    : 3 * below.length + 2 < machine.depth op := by
  have stages := machine.thread.overlay.stages_pos layer op
  rw [Machine.depth_above above.top]
  omega

theorem Layer.bodyHook_of_name (named : op.name ≠ "rand") : layer.bodyHook op = layer.kind.hook :=
  if_neg fun both => named both.2

theorem Layer.bodyHook_differentiation (kind : layer.kind = .differentiation)
    : layer.bodyHook op = .differentiation := by
  rw [bodyHook, kind]
  exact if_neg fun both => nomatch both.1

/-- Hiding the hook of the body takes a call to the exit of the layer. -/
theorem Machine.InBody.depth_hide (within : machine.InBody layer below)
    (hides : set.contains (layer.bodyHook op) = true) (atHeld : held.ambient = machine.ambient.hide set)
    : held.depth op = 3 * below.length + 3 := by
  have top : held.thread.layers = layer :: below :=
    (congrArg Ambient.layers atHeld).trans within.top
  have overlay : held.thread.overlay.excluded = machine.thread.overlay.excluded ∪ set :=
    congrArg (fun ambient => ambient.overlay.excluded) atHeld
  rw [Machine.depth_above top, Overlay.stages, overlay, CapabilitySet.contains_union,
    CapabilitySet.contains_union, within.inBody.entry, hides, Bool.or_true]
  rfl

namespace Machine.Ready

/-- A state that has been handed back is as ready for the next call. -/
theorem resumes (h : machine.Ready budget op owners) (resumes : machine.Resumes reached)
    : reached.Ready budget op owners where
  active := by
    rw [resumes.layers]
    exact h.active
  calling := h.calling.resumes resumes
  room := by
    rw [depth_resumes h.active resumes]
    exact h.room

/-- In a layer the values of a call are of no account. -/
theorem onValues (h : machine.Ready budget op owners) (values : List Value)
    : Machine.Ready { machine with values } budget op owners :=
  h.resumes (.of_eq rfl rfl rfl rfl)

/-- A call from such a state comes to an end. -/
theorem dispatch (h : machine.Ready budget op owners) (holds : Contract.finishes.Holds budget)
    : ((nested budget).dispatch op).Finishes machine :=
  holds h.calling h.room

/-- So does one whose arguments are put on top of the values first. -/
theorem dispatch_pushed (h : machine.Ready budget op owners)
    (holds : Contract.finishes.Holds budget) (values : List Value)
    : Run.Finishes (do pushAll values; (nested budget).dispatch op) machine :=
  Finishes.bind ((confined_modify _).finishes (quiet_writing.pushAll values) machine)
    fun _ _ resumes => (h.resumes resumes).dispatch holds

end Machine.Ready

-----------------------------------------------------------------------------------------
-- Padding
-----------------------------------------------------------------------------------------

/-- A tensor into which `made` dimensions have been inserted. After the first insertion the tags around
it are there, and after the second one they remember the right rank, whatever they were before.
-/
structure Tensor.Inserted (made : Nat) (heap : Heap) (tensor : Tensor) : Prop where
  anchored : 0 < made → tensor.Anchored heap
  room : 0 < made → made + tensor.batches ≤ tensor.baseRank heap
  ranked : 1 < made → tensor.Ranked heap

/-- Of a tensor into which nothing has been inserted nothing is known. -/
theorem Tensor.inserted_none (heap : Heap) (tensor : Tensor) : tensor.Inserted 0 heap :=
  ⟨nofun, nofun, nofun⟩

/-- Each insertion adds to what is known. The first one makes all tags anew, so that they are there;
the
second one makes them around a value whose tags were there, so that they remember the right rank.
-/
theorem Tensor.Inserted.insert (h : tensor.Inserted made heap)
    (lengthened : tensor.Lengthened heap 1 after result)
    : result.Inserted (made + 1) after where
  anchored _ := lengthened.fresh.mono fun _ inside => inside.2
  room _ := by
    have first := lengthened.room.2
    rw [lengthened.rank, lengthened.batches]
    rcases Nat.eq_zero_or_pos made with rfl | before
    · omega
    · have room := h.room before
      omega
  ranked before := lengthened.ranked (h.anchored (Nat.lt_of_succ_lt_succ before))

/-- After two insertions a tensor is known to have as many dimensions as have been inserted. -/
theorem Tensor.Inserted.le_rank (h : tensor.Inserted made heap) (twice : 1 < made)
    : made ≤ (tensor.shape heap).rank := by
  have room := h.room (Nat.lt_of_succ_lt twice)
  rw [(h.ranked twice).rank_eq]
  omega

/-- Padding comes to an end: the calls left and the dimensions inserted make up two more than the
rank
to reach, and that many insertions are enough for any tensor. By induction on the calls left.
The two more are for a tag that remembers a wrong rank: after two insertions it no longer can.
-/
theorem Run.finishes_pad {left : Nat} (holds : Contract.finishes.Holds budget)
    (ready : machine.Ready budget Base.schemas[5] owners)
    (inserted : tensor.Inserted made machine.heap) (count : left + made = rank + 2)
    : (Batching.pad (nested budget) rank left tensor).Finishes machine := by
  induction left generalizing machine tensor made with
  | zero =>
      refine (quiet_read _).leaves_step rfl ?_
      have reached : made ≤ (tensor.shape machine.heap).rank := inserted.le_rank (by omega)
      have enough : ¬(tensor.shape machine.heap).rank < rank + 1 := by omega
      rw [if_neg enough]
      exact finishes_pure tensor machine
  | succ left ih =>
      refine (quiet_read _).leaves_step rfl ?_
      split
      · have lengthens : Contract.lengthens.Holds budget := Contract.lengthens_kept.holds budget
        have called
            : ((nested budget).callTensor "unsqueeze" [.tensor tensor, .int 1]).Leaves machine
                (fun result _ memory => tensor.Lengthened machine.heap 1 memory.heap result)
                (fun exit _ => exit ≠ .fault .diverged) := by
          refine .callTensor (.call (fun _ _ => nofun) fun op found _ => ?_)
          cases found
          have ready := ready.onValues [.tensor tensor, .int 1]
          have longer := lengthens ready.calling rfl [] tensor 1 rfl
          refine (longer.and (ready.dispatch holds)).mono ?_ fun _ _ => And.right
          rintro _ _ _ ⟨⟨result, rfl, lengthened⟩, -⟩
          exact ⟨result, [], rfl, lengthened⟩
        refine called.bind fun result reached _ resumes lengthened => ?_
        exact ih (ready.resumes resumes) (inserted.insert lengthened) (by omega)
      · exact finishes_pure tensor machine

/-- So it comes to an end from any tensor, with as many calls as the loop allows for. -/
theorem Run.finishes_padToRank (holds : Contract.finishes.Holds budget)
    (ready : machine.Ready budget Base.schemas[5] owners) (physical : Tensor) (rank : Nat)
    : (Batching.padToRank (nested budget) physical rank).Finishes machine :=
  finishes_pad holds ready (Tensor.inserted_none machine.heap physical) rfl

-----------------------------------------------------------------------------------------
-- Below and around all layers
-----------------------------------------------------------------------------------------

/-- The base kernels issue no calls. -/
theorem finishes_base {kernel : Kernel} {capability : Capability}
    (found : baseKernel? op.name = some kernel)
    : kernel.Finishes budget owners op machine capability :=
  fun _ =>
    ((Base.confined_baseKernel found _ op).mono fun _ => Exit.Own.ne_diverged).meets
      (quiet_baseKernel found _ op) machine

/-- Below all layers dead tags are taken off once.
The call is handed on with tensors that carry no dead tag, so it nests one less deep.
-/
theorem finishes_outside (holds : Contract.finishes.Holds budget) (poses : machine.Poses op)
    (atBase : machine.AtBase) (carries : machine.Carries op .taggedWrapper)
    : deadWrapperFallback.Finishes budget [] op machine .taggedWrapper := by
  intro room
  rw [Machine.depth_dead atBase.layers carries] at room
  have size := Machine.lastValues_length poses.enough
  have present := machine.values_eq op.arity
  generalize machine.firstValues op.arity = outer at present
  generalize machine.lastValues op.arity = arguments at present size
  have persists
      : Memory.Persists (fun _ _ => True) fun _ (_ tensor : Tensor) => tensor.taggedLevel? = none :=
    ⟨fun _ => trivial, fun _ _ => trivial, fun bare _ => bare⟩
  unfold deadWrapperFallback
  simp only
  rw [← size]
  refine (Leaves.mapLast persists present ?_).bind ?_
  · intro tensor _ start _ _ _
    refine (quiet_read _).leaves_step rfl ?_
    split
    · exact leaves_fault trivial nofun
    · rename_i bare
      exact leaves_pure ⟨rfl, trivial, bare⟩
  rintro _ bared _ resumes ⟨inner, values, -, related⟩
  have calling : machine.Calling op [] :=
    .of_layers poses.member (.base atBase.layers atBase.overlay) atBase.layers
  refine holds (calling.resumes resumes) ?_
  have untagged
      : (Value.carried bared.heap (bared.lastValues op.arity)).contains .taggedWrapper = false := by
    rw [Machine.lastValues_append values (related.length_eq.trans size),
      contains_carried (by decide), List.any_eq_false]
    intro tensor member
    have bare : tensor.taggedLevel? = none :=
      related.forall_right (fun _ _ => trivial) (fun _ _ bare _ => bare) tensor member
    cases tensor with
    | tagged cell level flag value => cases bare
    | dense cell =>
        rw [Tensor.capabilities]
        decide
    | batched handle level value =>
        rw [Tensor.capabilities]
        decide
  rw [Machine.depth_bare (resumes.layers.trans atBase.layers) untagged]
  exact Nat.le_of_succ_le_succ room

-----------------------------------------------------------------------------------------
-- The kernels around layers
-----------------------------------------------------------------------------------------

/-- The entry interceptor hands a call to the body, under an overlay that hides the entry of the
layer.
Checking and receiving the arguments before comes to an end without calls.
-/
theorem finishes_enter (holds : Contract.finishes.Holds budget) (poses : machine.Poses op)
    (above : machine.Above layer below) (front : machine.thread.overlay.forces .entryInterceptor)
    : entryInterceptor.Finishes budget (layer :: below) op machine .entryInterceptor := by
  intro room
  rw [Machine.depth_front above.top front] at room
  refine .enter above.top fun logged resumes _ => ?_
  have refuses := regular_writing.refuseCapturedMutation op layer
  refine (refuses.finishes (quiet_writing.refuseCapturedMutation op layer) logged).bind ?_
  intro _ checked passed
  have receives := regular_writing.mapLast (regular_writing.receive layer) op.arity
  refine (receives.finishes (quiet_writing.mapLast (quiet_writing.receive layer) _) checked).bind
    fun _ received later => ?_
  refine (quiet_read _).leaves_step rfl ?_
  refine .holding (moves_replaceOverlay _ received) fun held atHeld => ?_
  have resumed := resumes.trans (passed.trans later)
  have above : received.Above layer below := ⟨resumed.layers.trans above.top, above.grounded⟩
  have calling : held.Calling op (layer :: below) := above.enter poses.member atHeld.ambient
  refine holds calling ?_
  have top : held.thread.layers = layer :: below :=
    (congrArg Ambient.layers atHeld.ambient).trans above.top
  have overlay : held.thread.overlay = layer.kind.entryOverlay received.thread.overlay :=
    congrArg Ambient.overlay atHeld.ambient
  have entered : held.thread.overlay.excluded.contains .entryInterceptor = true := by
    rw [overlay]
    exact (layer.kind.entryOverlay_inBody _).entry
  have stages : held.thread.overlay.stages layer op ≤ 2 := Overlay.stages_le_two entered
  rw [Machine.depth_above top]
  omega

/-- The body of a differentiation layer hides its hook before it hands the call on, to the exit. -/
theorem finishes_differentiate (holds : Contract.finishes.Holds budget) (poses : machine.Poses op)
    (within : machine.InBody layer below) (kind : layer.kind = .differentiation)
    (shown : machine.thread.overlay.excluded.contains .differentiation = false)
    : differentiationBody.Finishes budget (layer :: below) op machine .differentiation := by
  intro room
  have hook : layer.bodyHook op = .differentiation := Layer.bodyHook_differentiation kind
  rw [within.depth_shown (hook ▸ shown)] at room
  refine quiet_writing.currentLayer.leaves_step (currentLayer_apply within.top) ?_
  refine (quiet_read _).leaves_step rfl ?_
  have called
      : (Run.holding (Guard.hide TransformKind.differentiation.owned)
          ((nested budget).dispatch op)).Finishes machine := by
    refine .holding (moves_hide _ machine) fun held atHeld => ?_
    refine holds (within.hideDifferentiation kind poses.member atHeld.ambient) ?_
    have hides : TransformKind.differentiation.owned.contains (layer.bodyHook op) = true := by
      rw [hook]
      decide
    rw [within.depth_hide hides atHeld.ambient]
    omega
  exact called.bind fun _ reached _ =>
    (regular_writing.recordGradFns op layer.level _).finishes
      (quiet_writing.recordGradFns op layer.level _) reached

/-- Below the top layer three kernels of a call are behind it. -/
theorem finishes_dispatchBelow (holds : Contract.finishes.Holds budget) (member : op ∈ Base.schemas)
    (above : machine.Above layer below) (room : 3 * below.length + 2 ≤ budget)
    : (dispatchBelow (nested budget) op layer).Finishes machine := by
  refine .below above.top above.grounded.levelled.1 (fun start _ _ _ => ?_) fun held atHeld => ?_
  · exact (regular_writing.overlayBelow op layer).finishes (quiet_writing.overlayBelow op layer) start
  · refine holds (above.leave member atHeld.ambient) ?_
    have layers : held.thread.layers = below := congrArg Ambient.layers atHeld.ambient
    have depth := held.depth_le op
    rw [layers] at depth
    exact depth.trans room

/-- The exit interceptor hands the call down; copying arguments and tagging results need no room.
-/
theorem finishes_leave (holds : Contract.finishes.Holds budget) (poses : machine.Poses op)
    (above : machine.Above layer below)
    : exitInterceptor.Finishes budget owners op machine .exitInterceptor := by
  intro room
  have room : 3 * below.length + 2 ≤ budget := Nat.le_of_lt_succ (above.lt_depth.trans_le room)
  refine quiet_writing.currentLayer.leaves_step (currentLayer_apply above.top) ?_
  cases layer.kind with
  | batching => exact finishes_dispatchBelow holds poses.member above room
  | differentiation =>
      have copies := regular_writing.copyUntagged op layer.level
      refine (copies.finishes (quiet_writing.copyUntagged op layer.level) machine).bind
        fun _ copied resumes => ?_
      have above : copied.Above layer below := ⟨resumes.layers.trans above.top, above.grounded⟩
      refine (finishes_dispatchBelow holds poses.member above room).bind fun _ returned _ => ?_
      exact (regular_writing.tagResults op layer.level).finishes
        (quiet_writing.tagResults op layer.level) returned

-----------------------------------------------------------------------------------------
-- The rules of batching layers
-----------------------------------------------------------------------------------------

/-- A state that has been handed back is in the body of the same layer.
The overlay may include the interceptors by now, which are hidden in the body all the same.
-/
theorem Machine.InBody.resumes (h : machine.InBody layer below) (resumes : machine.Resumes reached)
    : reached.InBody layer below where
  top := resumes.layers.trans h.top
  grounded := h.grounded
  inBody := by
    rcases resumes.overlay with same | ⟨_, included⟩
    · rw [same]
      exact h.inBody
    · rw [included]
      exact h.inBody.intercepting

/-- In the body of a batching layer with its hook hidden a call has room to go on below. -/
theorem Machine.InBody.ready (within : machine.InBody layer below) (kind : layer.kind = .batching)
    (room : 3 * below.length + 3 ≤ budget)
    (atHeld : machine.Shifted (machine.ambient.hide (.only .batched)) held)
    (member : op ∈ Base.schemas) (named : op.name ≠ "rand")
    : held.Ready budget op below where
  active := by
    rw [show held.thread.layers = machine.thread.layers from congrArg Ambient.layers atHeld.ambient,
      within.top]
    exact List.cons_ne_nil layer below
  calling := within.hideBatched kind member named atHeld.ambient
  room := by
    have hides : (CapabilitySet.only .batched).contains (layer.bodyHook op) = true := by
      rw [Layer.bodyHook_of_name named, kind]
      decide
    rw [within.depth_hide hides atHeld.ambient]
    exact room

/-- A rule has room for the exit of its layer. -/
theorem Machine.InBody.room_below (within : machine.InBody layer below) (kind : layer.kind = .batching)
    (shown : machine.thread.overlay.excluded.contains .batched = false) (named : op.name ≠ "rand")
    (room : machine.depth op ≤ budget + 1)
    : 3 * below.length + 3 ≤ budget := by
  have hook : layer.bodyHook op = .batched := by
    rw [Layer.bodyHook_of_name named, kind]
    rfl
  rw [within.depth_shown (hook ▸ shown)] at room
  omega

theorem finishes_pop (count : Nat) (machine : Machine) : (pop count).Finishes machine :=
  (regular_writing.pop count).finishes (quiet_writing.pop count) machine

/-- The rule for element-wise operators pads its arguments and issues one call, each with the hook
hidden.
After any of them the state is as ready for the next one.
-/
theorem finishes_pointwise (holds : Contract.finishes.Holds budget) (poses : machine.Poses op)
    (within : machine.InBody layer below) (kind : layer.kind = .batching)
    (shown : machine.thread.overlay.excluded.contains .batched = false)
    (named : op.name ∈ ["add", "mul", "neg"])
    : Batching.pointwise.Finishes budget (layer :: below) op machine .batched := by
  intro room
  have drawless : op.name ≠ "rand" := by
    rintro random
    rw [random] at named
    exact absurd named (by decide)
  have room := within.room_below kind shown drawless room
  refine quiet_writing.currentLayer.leaves_step (currentLayer_apply within.top) ?_
  refine (finishes_pop _ machine).bind fun arguments popped resumes => ?_
  refine (quiet_read _).leaves_step rfl ?_
  have within := within.resumes resumes
  refine .holding (moves_hide _ popped) fun held atHeld => ?_
  have ready : held.Ready budget op below := within.ready kind room atHeld poses.member drawless
  have readyPad : held.Ready budget Base.schemas[5] below :=
    within.ready kind room atHeld (by decide) (by decide)
  refine Finishes.bind (.mapM fun argument start later => ?_) fun padded start later => ?_
  · cases Batching.physicalArgument? layer.level argument with
    | none => exact finishes_pure argument start
    | some physical =>
        exact (finishes_padToRank holds (readyPad.resumes later) physical _).bind
          fun _ reached _ => finishes_pure _ reached
  refine ((confined_modify _).finishes (quiet_writing.pushAll padded) start).bind
    fun _ pushed after => ?_
  refine (((ready.resumes later).resumes after).dispatch holds).bind fun _ returned _ => ?_
  split
  · exact (regular_writing.wrapResults _ _).finishes (quiet_writing.wrapResults _ _) returned
  · exact finishes_pure _ returned

/-- The rule for inserting a dimension issues one call. -/
theorem finishes_unsqueeze (holds : Contract.finishes.Holds budget)
    (within : machine.InBody layer below) (kind : layer.kind = .batching)
    (shown : machine.thread.overlay.excluded.contains .batched = false)
    : Batching.unsqueeze.Finishes budget (layer :: below) Base.schemas[5] machine .batched := by
  intro room
  have room := within.room_below kind shown (by decide) room
  refine quiet_writing.currentLayer.leaves_step (currentLayer_apply within.top) ?_
  refine (finishes_pop 2 machine).bind fun arguments popped resumes => ?_
  have reads := confined_lift (Value.plain_tensorAt arguments Base.schemas[5].name 0).regular
  refine (reads.finishes (quiet_lift (Value.plain_tensorAt _ _ _).orderly) popped).bind
    fun input looked later => ?_
  have counts := confined_lift (Value.plain_intAt arguments Base.schemas[5].name 1).regular
  refine (counts.finishes (quiet_lift (Value.plain_intAt _ _ _).orderly) looked).bind
    fun dim start last => ?_
  have within := within.resumes (resumes.trans (later.trans last))
  refine .holding (moves_hide _ start) fun held atHeld => ?_
  have ready : held.Ready budget Base.schemas[5] below :=
    within.ready kind room atHeld (by decide) (by decide)
  split
  · refine (quiet_read _).leaves_step rfl ?_
    dsimp only
    split
    · refine ((confined_modify _).finishes (quiet_writing.pushAll _) held).bind
        fun _ pushed after => ?_
      refine ((ready.resumes after).dispatch holds).bind fun _ returned _ => ?_
      exact (regular_writing.wrapResults _ _).finishes (quiet_writing.wrapResults _ _) returned
    · exact finishes_fail _ held
  · exact ready.dispatch_pushed holds arguments

/-- The rule for in-place addition pads the addend, if it is batched, and issues one call. -/
theorem finishes_addInPlace (holds : Contract.finishes.Holds budget)
    (within : machine.InBody layer below) (kind : layer.kind = .batching)
    (shown : machine.thread.overlay.excluded.contains .batched = false)
    : Batching.addInPlace.Finishes budget (layer :: below) Base.schemas[8] machine .batched := by
  intro room
  have room := within.room_below kind shown (by decide) room
  refine quiet_writing.currentLayer.leaves_step (currentLayer_apply within.top) ?_
  refine (finishes_pop 2 machine).bind fun arguments popped resumes => ?_
  have reads (index : Nat) := confined_lift
    (Value.plain_tensorAt arguments Base.schemas[8].name index).regular
  refine ((reads 0).finishes (quiet_lift (Value.plain_tensorAt _ _ _).orderly) popped).bind
    fun target looked later => ?_
  refine ((reads 1).finishes (quiet_lift (Value.plain_tensorAt _ _ _).orderly) looked).bind
    fun other start last => ?_
  have within := within.resumes (resumes.trans (later.trans last))
  refine .holding (moves_hide _ start) fun held atHeld => ?_
  have ready : held.Ready budget Base.schemas[8] below :=
    within.ready kind room atHeld (by decide) (by decide)
  have readyPad : held.Ready budget Base.schemas[5] below :=
    within.ready kind room atHeld (by decide) (by decide)
  split
  · exact finishes_fail _ held
  · exact ready.dispatch_pushed holds arguments
  · refine (quiet_read _).leaves_step rfl ?_
    rename_i physical _
    have added (addend : Tensor) (padded : Machine) (after : held.Resumes padded)
        : Run.Finishes
            (do
              pushAll [.tensor physical, .tensor addend]
              (nested budget).dispatch Base.schemas[8]
              Batching.replaceLast (.tensor target))
            padded := by
      refine ((confined_modify _).finishes (quiet_writing.pushAll _) padded).bind
        fun _ pushed last => ?_
      refine (((ready.resumes after).resumes last).dispatch holds).bind fun _ returned _ => ?_
      exact (regular_writing.replaceLast _).finishes (quiet_writing.replaceLast _) returned
    dsimp only
    split
    · exact (finishes_padToRank holds readyPad _ _).bind added
    · exact added other held (.refl held)

/-- The rule for random numbers refuses or issues one call. It is reached by another hook than the
other
rules, whose room is counted by that hook.
-/
theorem finishes_random (holds : Contract.finishes.Holds budget)
    (within : machine.InBody layer below) (kind : layer.kind = .batching)
    (forces : machine.thread.overlay.forces .batchMode)
    (shown : machine.thread.overlay.excluded.contains .batched = false)
    : Batching.random.Finishes budget (layer :: below) (Base.factorySchema "rand") machine
        .batchMode := by
  intro room
  have hook : layer.bodyHook (Base.factorySchema "rand") = .batchMode := if_pos ⟨kind, rfl⟩
  rw [within.depth_shown (hook ▸ forces.2)] at room
  refine quiet_writing.currentLayer.leaves_step (currentLayer_apply within.top) ?_
  refine .holding (moves_hide _ machine) fun held atHeld => ?_
  have ready : held.Ready budget (Base.factorySchema "rand") (layer :: below) := by
    refine ⟨?_, within.hideBatchMode kind shown (by decide) atHeld.ambient, ?_⟩
    · rw [show held.thread.layers = machine.thread.layers from congrArg Ambient.layers atHeld.ambient,
        within.top]
      exact List.cons_ne_nil layer below
    · have hides
          : (CapabilitySet.only .batchMode).contains (layer.bodyHook (Base.factorySchema "rand"))
            = true := by
        rw [hook]
        decide
      rw [within.depth_hide hides atHeld.ambient]
      omega
  split
  · exact leaves_fault trivial nofun
  · exact finishes_fail _ held
  · exact ready.dispatch holds
  · refine (finishes_pop 1 held).bind fun arguments popped resumes => ?_
    have reads := confined_lift
      (Value.plain_sizesAt arguments (Base.factorySchema "rand").name 0).regular
    refine (reads.finishes (quiet_lift (Value.plain_sizesAt _ _ _).orderly) popped).bind
      fun sizes start later => ?_
    refine ((confined_modify _).finishes (quiet_writing.push _) start).bind fun _ pushed last => ?_
    have ready := ready.resumes (resumes.trans (later.trans last))
    refine (ready.dispatch holds).bind fun _ returned _ => ?_
    exact (regular_writing.wrapResults _ _).finishes (quiet_writing.wrapResults _ _) returned

theorem finishes_missingRule : Batching.missingRule.Finishes budget owners op machine .batched :=
  fun _ => ((regular_writing.log _).finishes (quiet_log _) machine).bind
    fun _ logged _ => finishes_fail _ logged

-----------------------------------------------------------------------------------------
-- All calls
-----------------------------------------------------------------------------------------

/-- Every kernel comes to an end with room for the calls that are left. One entry for each kernel,
as above.
-/
theorem Kernel.finishes_handling (holds : Contract.finishes.Holds budget)
    : Handling budget (Kernel.Finishes budget) where
  unhandled ended inactive _ :=
    leaves_ended ended inactive.unhandled.orderly (by cases inactive <;> nofun)
  base _ _ found _ := finishes_base found
  outside poses atBase carries := finishes_outside holds poses atBase carries
  enter poses above front := finishes_enter holds poses above front
  differentiate poses within kind shown _ := finishes_differentiate holds poses within kind shown
  leaveDifferentiation poses within _ _ := finishes_leave holds poses within.toAbove
  leaveBatching poses within _ _ _ := finishes_leave holds poses within.toAbove
  pointwise poses within kind shown _ named := finishes_pointwise holds poses within kind shown named
  unsqueeze _ within kind shown _ same := by
    subst same
    exact finishes_unsqueeze holds within kind shown
  addInPlace _ within kind shown _ same := by
    subst same
    exact finishes_addInPlace holds within kind shown
  missingRule := finishes_missingRule
  random _ within kind forces shown same := by
    subst same
    exact finishes_random holds within kind forces shown

/-- A call that may nest as deep as there are kernels on its way comes to an end.
The principle for contracts needs: what is the same comes to the same end, there is no room below
depth
one, an end that no kernel handles is none of running out of room, and what has been shown of
kernels.
-/
theorem Contract.finishes_holds (budget : Nat) : Contract.finishes.Holds budget := by
  refine @holds_of_kernels Contract.finishes ?_ ?_ ?_ ?_ budget
  · intro _ _ _ _ _ _ same finishes room
    exact .congr same (finishes room)
  · intro _ op machine _ room
    exact absurd room (Nat.not_le.mpr (machine.depth_pos op))
  · intro _ _ _ _ _ _ ended unselected _
    exact leaves_ended ended unselected.unhandled.orderly (by cases unselected <;> nofun)
  · intro budget owners op machine capability kernel holds poses calling selected room
    let inside := machine.inSpan op.name capability
    have poses : inside.Poses op := ⟨poses.member, poses.enough⟩
    have calling : inside.Calling op owners := ⟨calling.member, calling.owning, calling.drawn⟩
    exact .traced ((Kernel.finishes_handling holds).select poses calling selected room)

end
end LayeredDispatch
