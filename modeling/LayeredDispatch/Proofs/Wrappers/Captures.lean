import LayeredDispatch.Proofs.Effects.Steadiness
import LayeredDispatch.Proofs.Wrappers.Contracts

/-! In-place operators and the values that layers capture. Each differentiation layer looks only at
the target that arrives in front of it, when the layers above have taken off their wrappers; but none
of them puts a tag on that it has not found. Main statements: an in-place call gives a value only if
the target has a live tag of every differentiation layer; under differentiation layers alone it is
refused where a tag is missing, and nothing has changed.
-/

namespace LayeredDispatch

open Run Dispatcher

/-- The first argument is tagged by all differentiation layers among some. -/
def Layer.Target (layers : List Layer) (heap : Heap) (arguments : List Value) : Prop :=
  ∀ layer ∈ layers,
    layer.kind = .differentiation
    → ∃ target,
        arguments.head? = some (.tensor target)
        ∧ (.differentiation, layer.level) ∈ target.liveWrappers heap

/-- The layers whose entry is still ahead of a call: in the body of the top layer, those below it. -/
def Ambient.ahead (ambient : Ambient) : List Layer :=
  if ambient.overlay.excluded.contains .entryInterceptor then ambient.layers.tail
  else ambient.layers

/-- In-place calls succeed only on targets that all layers ahead have tagged. -/
def Contract.captures : Contract :=
  fun _ _ op machine body =>
    op.isInPlace = true
    → body.Leaves machine
        (fun _ _ _ =>
          Layer.Target machine.ambient.ahead machine.heap (machine.lastValues op.arity))
        (fun _ _ => True)

section

variable {layers below owners : List Layer} {layer : Layer} {heap other : Heap}
  {arguments inner outer : List Value} {ambient : Ambient} {machine held : Machine} {op : Schema}
  {budget : Nat} {tensor result : Tensor} {calls : Calls}

-----------------------------------------------------------------------------------------
-- Layers ahead
-----------------------------------------------------------------------------------------

theorem Ambient.ahead_front (front : ambient.overlay.forces .entryInterceptor)
    : ambient.ahead = ambient.layers := by
  rw [ahead, front.2]
  rfl

theorem Ambient.ahead_body (entry : ambient.overlay.excluded.contains .entryInterceptor = true)
    : ambient.ahead = ambient.layers.tail := by
  rw [ahead, entry]
  rfl

theorem Ambient.ahead_base (layers : ambient.layers = []) : ambient.ahead = [] := by
  simp [ahead, layers]

/-- Below a layer a call is in front of all layers that are left. -/
theorem Ambient.ahead_leave (ambient : Ambient) (layer : Layer) (below : List Layer)
    : (ambient.leave layer below).ahead = below := by
  cases below with
  | nil => exact ahead_base rfl
  | cons next rest => exact ahead_front (Overlay.front_forces _)

/-- The body of a layer is behind its entry, so the layers below are ahead. -/
theorem Ambient.ahead_enter (top : ambient.layers = layer :: below)
    : (ambient.enter layer.kind).ahead = below := by
  have entered : (ambient.enter layer.kind).overlay.excluded.contains .entryInterceptor = true :=
    (layer.kind.entryOverlay_inBody ambient.overlay).entry
  rw [ahead_body entered]
  exact congrArg List.tail top

/-- Hidden hooks change nothing of where a call in a body is. -/
theorem Ambient.ahead_hide {set : CapabilitySet}
    (entry : ambient.overlay.excluded.contains .entryInterceptor = true)
    : (ambient.hide set).ahead = ambient.layers.tail := by
  have hidden : (ambient.overlay.excluded ∪ set).contains .entryInterceptor = true := by
    rw [CapabilitySet.contains_union, entry, Bool.true_or]
  exact @ahead_body (ambient.hide set) hidden

/-- Where the state is handed back, the same layers are ahead. The one thing that may have changed,
the inclusion of the interceptors, says nothing of what is excluded.
-/
theorem Ambient.ahead_resumes (resumes : machine.Resumes held)
    : held.ambient.ahead = machine.ambient.ahead := by
  rcases resumes.ambient with same | ⟨_, included⟩
  · rw [same]
  · rw [included]
    rfl

theorem Machine.AtBase.ahead (atBase : machine.AtBase) : machine.ambient.ahead = [] :=
  Ambient.ahead_base atBase.layers

/-- In front of a layer that layer and all below are ahead. -/
theorem Machine.Above.ahead_front (above : machine.Above layer below)
    (front : machine.thread.overlay.forces .entryInterceptor)
    : machine.ambient.ahead = layer :: below := by
  rw [← above.top]
  exact Ambient.ahead_front front

/-- In the body of a layer those below are ahead. -/
theorem Machine.InBody.ahead (within : machine.InBody layer below)
    : machine.ambient.ahead = below := by
  have entry : machine.ambient.overlay.excluded.contains .entryInterceptor = true :=
    within.inBody.entry
  have layers : machine.ambient.layers = layer :: below := within.top
  rw [Ambient.ahead_body entry, layers]
  rfl

theorem Machine.InBody.ahead_hide (within : machine.InBody layer below) (set : CapabilitySet)
    : (machine.ambient.hide set).ahead = below := by
  have entry : machine.ambient.overlay.excluded.contains .entryInterceptor = true :=
    within.inBody.entry
  have layers : machine.ambient.layers = layer :: below := within.top
  rw [Ambient.ahead_hide entry, layers]
  rfl

-----------------------------------------------------------------------------------------
-- Targets
-----------------------------------------------------------------------------------------

theorem Layer.target_nil : Layer.Target [] heap arguments :=
  fun _ member => absurd member List.not_mem_nil

/-- A tag that is found on what replaces the first argument is found on the argument, provided that
no replacement puts on a tag of the layers in question. What takes the place of the first argument
is the first of what takes the place of all.
-/
theorem Layer.Target.of_related {relation : Tensor → Tensor → Prop}
    (h : Layer.Target layers other inner)
    (related : Value.RelatedAll relation arguments inner)
    (found
      : ∀ layer ∈ layers,
          layer.kind = .differentiation
          → ∀ tensor result,
              relation tensor result
              → (.differentiation, layer.level) ∈ result.liveWrappers other
              → (.differentiation, layer.level) ∈ tensor.liveWrappers heap)
    : Layer.Target layers heap arguments := by
  intro layer member kind
  obtain ⟨target, first, tagged⟩ := h layer member kind
  cases related with
  | nil => cases first
  | cons head tail =>
      cases first
      obtain ⟨tensor, rfl, related⟩ := head.to_tensor
      exact ⟨tensor, rfl, found layer member kind tensor target related tagged⟩

/-- A target of several layers is one of the top layer and of those below. -/
theorem Layer.target_cons
    : Layer.Target (layer :: below) heap arguments
      ↔ Layer.Target [layer] heap arguments ∧ Layer.Target below heap arguments := by
  simp only [Layer.Target, List.forall_mem_cons, List.not_mem_nil, false_implies, implies_true,
    and_true]

/-- Batching layers tag no target. -/
theorem Layer.target_batching (kind : layer.kind = .batching)
    : Layer.Target [layer] heap arguments := by
  intro other member differentiates
  rw [List.mem_singleton.mp member, kind] at differentiates
  cases differentiates

/-- Whether tags are alive depends on the flags of the heap only. -/
theorem Layer.Target.congr (h : Layer.Target layers other arguments)
    (flags : other.flags = heap.flags)
    : Layer.Target layers heap arguments := by
  intro layer member kind
  obtain ⟨target, first, tagged⟩ := h layer member kind
  rw [Tensor.liveWrappers_congr flags] at tagged
  exact ⟨target, first, tagged⟩

/-- A value that is tagged at a level once dead tags are taken off has a live tag of the level. The
dead tags around it do not count among the live wrappers.
-/
theorem Tensor.liveWrappers_of_taggedLevel? {level : Level}
    (tagged : (tensor.unwrapDead heap).taggedLevel? = some level)
    : (.differentiation, level) ∈ tensor.liveWrappers heap := by
  induction tensor with
  | dense cell => cases tagged
  | tagged cell own flag value ih =>
      rw [unwrapDead] at tagged
      rw [liveWrappers]
      split at tagged
      · rename_i alive
        cases tagged
        rw [if_pos alive]
        exact List.mem_cons_self
      · rename_i dead
        rw [if_neg dead]
        exact ih tagged
  | batched handle own value ih => cases tagged

-----------------------------------------------------------------------------------------
-- What kernels find of the target
-----------------------------------------------------------------------------------------

/-- The level at which the target of a call is tagged, once dead tags are off. -/
def Value.targetLevel? (heap : Heap) (arguments : List Value) : Option Level :=
  ((arguments.head?.bind tensor?).map (Tensor.unwrapDead heap)).bind Tensor.taggedLevel?

/-- A differentiation layer lets an in-place call pass if it has tagged the target. Otherwise it
logs and refuses the call; the state is untouched apart from the log.
-/
theorem Run.refuseCapturedMutation_apply (kind : layer.kind = .differentiation)
    (inPlace : op.isInPlace = true) (enough : op.arity ≤ machine.values.length)
    : refuseCapturedMutation op layer machine
      = (if Value.targetLevel? machine.heap (machine.lastValues op.arity) ≠ some layer.level then
          do
            log (.rejectedMutation op.name layer.level)
            fail (.capturedMutation op.name)
        else pure ()) machine := by
  rw [refuseCapturedMutation, if_pos ⟨kind, inPlace⟩, bind_apply, peek_apply enough]
  dsimp only
  unfold Value.targetLevel?
  cases (machine.lastValues op.arity).head?.bind Value.tensor? with
  | none => rfl
  | some target => rfl

/-- A target that the layer lets pass has its tag. -/
theorem Layer.target_of_targetLevel?
    (found : Value.targetLevel? heap arguments = some layer.level)
    : Layer.Target [layer] heap arguments := by
  intro other member _
  cases List.mem_singleton.mp member
  rcases Option.bind_eq_some_iff.mp found with ⟨bare, written, tagged⟩
  rcases Option.map_eq_some_iff.mp written with ⟨target, first, rfl⟩
  rcases Option.bind_eq_some_iff.mp first with ⟨value, head, isTensor⟩
  rw [Value.tensor?_eq_some isTensor] at head
  exact ⟨target, head, Tensor.liveWrappers_of_taggedLevel? tagged⟩

/-- What takes the place of a tensor has no tags of other levels than one that the tensor has not. -/
def Tensor.TaggedAt (heap : Heap) (own : Level) (tensor result : Tensor) : Prop :=
  ∀ level ≠ own,
    (.differentiation, level) ∈ result.liveWrappers heap
    → (.differentiation, level) ∈ tensor.liveWrappers heap

/-- The entry interceptor puts on tags of its layer only. What it takes off are dead tags, which are
no live wrappers.
-/
theorem Machine.Received.taggedAt {memory : Memory}
    (received : machine.Received layer tensor result memory)
    : Tensor.TaggedAt machine.heap layer.level tensor result := by
  intro level other found
  rw [← Tensor.liveWrappers_unwrapDead]
  cases received with
  | bare tagged => exact found
  | tagged kind registered =>
      simp only [Heap.newTagged, Tensor.liveWrappers] at found
      split at found
      · rcases List.mem_cons.mp found with same | found
        · cases same
          exact absurd rfl other
        · exact found
      · exact found

/-- The same on a heap with the same flags. -/
theorem Tensor.TaggedAt.congr {own : Level} (h : Tensor.TaggedAt other own tensor result)
    (flags : other.flags = heap.flags)
    : Tensor.TaggedAt heap own tensor result := by
  intro level apart
  rw [← Tensor.liveWrappers_congr flags, ← Tensor.liveWrappers_congr flags]
  exact h level apart

/-- What is left without a tag has no other tags than before. -/
theorem Tensor.Untagged.liveWrappers {level : Level} (h : tensor.Untagged level result)
    : (result.liveWrappers heap).Sublist (tensor.liveWrappers heap) := by
  rcases h with rfl | ⟨cell, flag, rfl⟩
  · exact List.Sublist.refl _
  · exact Tensor.liveWrappers_tagged heap cell level flag result

/-- The tags that a target has after the tags of a layer are off it had before. -/
theorem Layer.Target.untagged {level : Level} (target : Layer.Target layers other inner)
    (related : Value.RelatedAll (Tensor.Untagged level) arguments inner)
    (flags : other.flags = heap.flags)
    : Layer.Target layers heap arguments := by
  refine target.of_related related ?_
  intro lower _ _ tensor result untagged found
  rw [Tensor.liveWrappers_congr flags] at found
  exact untagged.liveWrappers.subset found

/-- A target that was let into a layer and has the tags of the layers below had them before, since
the layer puts on no tags but its own. Together with its own tag these are the tags of all the
layers.
-/
theorem Layer.Target.received (own : Layer.Target [layer] heap arguments)
    (levelled : Layer.Levelled (layer :: below)) (target : Layer.Target below other inner)
    (flags : other.flags = heap.flags)
    (related : Value.RelatedAll (Tensor.TaggedAt heap layer.level) arguments inner)
    : Layer.Target (layer :: below) heap arguments := by
  refine Layer.target_cons.mpr ⟨own, target.of_related related ?_⟩
  intro lower member _ tensor result kept found
  rw [Tensor.liveWrappers_congr flags] at found
  refine kept lower.level (Nat.ne_of_lt ?_) found
  rw [levelled.1]
  exact Nat.lt_succ_of_le (levelled.2.level_le member)

-----------------------------------------------------------------------------------------
-- Kernels
-----------------------------------------------------------------------------------------

/-- A call that a kernel hands on tells of the target that it has handed on, and from that a kernel
may conclude what it needs to know of its own target.
-/
theorem Contract.Holds.target (holds : Contract.captures.Holds budget)
    (calling : held.Calling op owners) (inPlace : op.isInPlace = true)
    (values : held.values = outer ++ inner) (size : inner.length = op.arity)
    (ahead : held.ambient.ahead = below)
    (found : Layer.Target below held.heap inner → Layer.Target layers heap arguments)
    : ((nested budget).dispatch op).Leaves held (fun _ _ _ => Layer.Target layers heap arguments)
        (fun _ _ => True) := by
  have called := holds calling inPlace
  rw [ahead, Machine.lastValues_append values size] at called
  exact called.mono (fun _ _ _ => found) fun _ _ => id

/-- In front of a layer the target must have the tag of the layer, if that differentiates, because
the call is refused otherwise. The tags of the layers below are known from the call in the body.
-/
theorem captures_enter (holds : Contract.captures.Holds budget) (poses : machine.Poses op)
    (above : machine.Above layer below)
    (front : machine.thread.overlay.forces .entryInterceptor)
    : Contract.captures (budget + 1) (layer :: below) op machine
        (entryInterceptor.run (nested budget) op) := by
  intro inPlace
  rw [above.ahead_front front]
  have size := Machine.lastValues_length poses.enough
  have present := machine.values_eq op.arity
  generalize machine.firstValues op.arity = outer at present
  generalize machine.lastValues op.arity = arguments at present size ⊢
  refine .enter above.top ?_
  intro logged resumes atLogged
  have heap : logged.heap = machine.heap := atLogged.heap
  have values : logged.values = machine.values := atLogged.values
  refine (still_noting.refuseCapturedMutation op layer).leaves_bind (fun _ => trivial) ?_
  intro _ checked passed _ _
  obtain rfl := refuseCapturedMutation_ok passed
  have own : Layer.Target [layer] machine.heap arguments := by
    cases kind : layer.kind with
    | batching => exact Layer.target_batching kind
    | differentiation =>
        have enough : op.arity ≤ checked.values.length := values ▸ poses.enough
        rw [refuseCapturedMutation_apply kind inPlace enough, heap,
          Machine.lastValues_append (values.trans present) size] at passed
        split at passed
        · cases passed
        · rename_i tagged
          exact Layer.target_of_targetLevel? (not_not.mp tagged)
  have relates
      : Memory.Persists (fun _ _ => True) fun _ => Tensor.TaggedAt machine.heap layer.level :=
    ⟨fun _ => trivial, fun _ _ => trivial, fun related _ => related⟩
  rw [← size]
  refine (Leaves.mapLast relates (values.trans present) ?_).bind ?_
  · intro tensor _ start later _ _
    have flags : start.heap.flags = machine.heap.flags := (resumes.trans later).flags
    apply (leaves_receive layer tensor fun _ => trivial).mono ?_ fun _ _ => id
    intro result _ _ received
    exact ⟨received.1, trivial, received.2.taggedAt.congr flags⟩
  intro _ received _ later left
  rcases left with ⟨inner, values, -, related⟩
  refine (quiet_read _).leaves_step rfl ?_
  refine .holding (moves_replaceOverlay _ received) ?_
  intro held atHeld
  have above' : received.Above layer below :=
    ⟨later.layers.trans (resumes.layers.trans above.top), above.grounded⟩
  have ahead : held.ambient.ahead = below := by
    rw [atHeld.ambient]
    exact Ambient.ahead_enter above'.top
  refine holds.target (above'.enter poses.member atHeld.ambient) inPlace
    (atHeld.values.trans values) (related.length_eq.trans size) ahead ?_
  have flags : held.heap.flags = machine.heap.flags := by rw [atHeld.heap, later.flags, heap]
  exact fun target => own.received above.grounded.levelled target flags related

/-- The body of a differentiation layer hands on its arguments as they are. -/
theorem captures_differentiate (holds : Contract.captures.Holds budget) (poses : machine.Poses op)
    (within : machine.InBody layer below) (kind : layer.kind = .differentiation)
    : Contract.captures (budget + 1) (layer :: below) op machine
        (differentiationBody.run (nested budget) op) := by
  intro inPlace
  rw [within.ahead]
  refine quiet_writing.currentLayer.leaves_step (currentLayer_apply within.top) ?_
  refine (quiet_read _).leaves_step rfl ?_
  have called
      : (Run.holding (Guard.hide TransformKind.differentiation.owned)
          ((nested budget).dispatch op)).Leaves machine
          (fun _ _ _ => Layer.Target below machine.heap (machine.lastValues op.arity))
          (fun _ _ => True) := by
    refine .holding (moves_hide _ machine) ?_
    intro held atHeld
    have ahead : held.ambient.ahead = below := by rw [atHeld.ambient, within.ahead_hide]
    refine holds.target (within.hideDifferentiation kind poses.member atHeld.ambient) inPlace
      (atHeld.values.trans (machine.values_eq _)) (Machine.lastValues_length poses.enough) ahead ?_
    exact fun target => target.congr (congrArg Heap.flags atHeld.heap)
  exact called.then_quiet fun _ => quiet_writing.recordGradFns op layer.level _

/-- Below a layer a call tells of the target that it is given. The guards on the way are of no
account.
-/
theorem Contract.Holds.target_below (holds : Contract.captures.Holds budget)
    (member : op ∈ Base.schemas) (above : machine.Above layer below)
    (inPlace : op.isInPlace = true) (values : machine.values = outer ++ inner)
    (size : inner.length = op.arity)
    : (dispatchBelow (nested budget) op layer).Leaves machine
        (fun _ _ _ => Layer.Target below machine.heap inner) (fun _ _ => True) := by
  refine .dispatchBelow above.top above.grounded.levelled.1 (fun _ => trivial) ?_
  intro held atHeld
  have ahead : held.ambient.ahead = below := by
    rw [atHeld.ambient]
    exact machine.ambient.ahead_leave layer below
  exact holds.target (above.leave member atHeld.ambient) inPlace (atHeld.values.trans values) size
    ahead fun target => target.congr (congrArg Heap.flags atHeld.heap)

/-- On the way out of a differentiation layer the target loses the tag of that layer, so the tags of
the layers below that are found on the copy are found on the target.
-/
theorem captures_leaveDifferentiation (holds : Contract.captures.Holds budget)
    (poses : machine.Poses op) (within : machine.InBody layer below)
    (kind : layer.kind = .differentiation)
    : Contract.captures (budget + 1) (layer :: below) op machine
        (exitInterceptor.run (nested budget) op) := by
  intro inPlace
  rw [within.ahead]
  have size := Machine.lastValues_length poses.enough
  refine quiet_writing.currentLayer.leaves_step (currentLayer_apply within.top) ?_
  simp only [kind]
  refine (leaves_copyUntagged (machine.values_eq _) size fun _ => trivial).bind ?_
  intro _ copied _ resumes left
  rcases left with ⟨inner, values, -, related⟩
  have above : copied.Above layer below := ⟨resumes.layers.trans within.top, within.grounded⟩
  have called := holds.target_below poses.member above inPlace values
    (related.length_eq.trans size)
  refine (called.mono (fun _ _ _ target => ?_) fun _ _ => id).then_quiet
    fun _ => quiet_writing.tagResults op layer.level
  exact target.untagged related resumes.flags

/-- On the way out of a batching layer the arguments are left alone. -/
theorem captures_leaveBatching (holds : Contract.captures.Holds budget)
    (poses : machine.Poses op) (within : machine.InBody layer below)
    (kind : layer.kind = .batching)
    : Contract.captures (budget + 1) owners op machine
        (exitInterceptor.run (nested budget) op) := by
  intro inPlace
  rw [within.ahead]
  refine quiet_writing.currentLayer.leaves_step (currentLayer_apply within.top) ?_
  simp only [kind]
  exact holds.target_below poses.member within.toAbove inPlace (machine.values_eq _)
    (Machine.lastValues_length poses.enough)

/-- A call on values that have just been pushed. -/
theorem Contract.Holds.target_pushed (holds : Contract.captures.Holds budget)
    (calling : machine.Calling op owners) (inPlace : op.isInPlace = true)
    (size : inner.length = op.arity)
    : ((nested budget).dispatch op).Leaves { machine with values := machine.values ++ inner }
        (fun _ _ _ => Layer.Target machine.ambient.ahead machine.heap inner) (fun _ _ => True) := by
  let pushed : Machine := { machine with values := machine.values ++ inner }
  have calling : pushed.Calling op owners := ⟨calling.member, calling.owning, calling.drawn⟩
  exact holds.target calling inPlace rfl size rfl id

/-- In-place addition to the physical value of the target, with some value for the other argument.
-/
theorem Contract.Holds.target_addStanding {physical addend : Tensor} {result : Value}
    (holds : Contract.captures.Holds budget)
    (calling : machine.Calling Base.schemas[8] owners)
    : Run.Leaves
        (do
          pushAll [.tensor physical, .tensor addend]
          (nested budget).dispatch Base.schemas[8]
          Batching.replaceLast result)
        machine
        (fun _ _ _ =>
          Layer.Target machine.ambient.ahead machine.heap [.tensor physical, .tensor addend])
        (fun _ _ => True) := by
  refine (quiet_writing.pushAll _).leaves_step rfl ?_
  exact (holds.target_pushed calling rfl rfl).then_quiet fun _ => quiet_writing.replaceLast _

/-- A batch wrapper around the target hides none of its tags. -/
theorem Layer.Target.batched {handle : Nat} {level : Level} {first : Tensor}
    {others others' : List Value} (h : Layer.Target layers heap (.tensor first :: others))
    : Layer.Target layers heap (.tensor (.batched handle level first) :: others') := by
  intro layer member kind
  rcases h layer member kind with ⟨target, head, tagged⟩
  cases head
  exact ⟨_, rfl, List.mem_cons_of_mem _ tagged⟩

/-- The rule for sums in place hands on the value below the batch of the target. It has the tags of
the target, whichever of the three ways the rule takes with the addend.
-/
theorem captures_addInPlace (holds : Contract.captures.Holds budget)
    (poses : machine.Poses Base.schemas[8]) (within : machine.InBody layer below)
    (kind : layer.kind = .batching)
    : Contract.captures (budget + 1) (layer :: below) Base.schemas[8] machine
        (Batching.addInPlace.run (nested budget) Base.schemas[8]) := by
  intro inPlace
  rw [within.ahead]
  have size : (machine.lastValues 2).length = 2 := Machine.lastValues_length poses.enough
  refine quiet_writing.currentLayer.leaves_step (currentLayer_apply within.top) ?_
  refine (still_pop _).leaves_bind (fun _ => trivial) ?_
  intro arguments popped ended _ _
  obtain ⟨rfl, -, rfl⟩ := pop_ok ended
  refine (idle_lift (Value.plain_tensorAt _ _ _).orderly).leaves_bind (fun _ => trivial) ?_
  intro target targetAt
  refine (idle_lift (Value.plain_tensorAt _ _ _).orderly).leaves_bind (fun _ => trivial) ?_
  intro other otherAt
  have pair := Value.eq_pair size (Value.tensorAt_ok (lift_ok targetAt).1)
    (Value.tensorAt_ok (lift_ok otherAt).1)
  rw [show Base.schemas[8].arity = 2 from rfl, pair]
  refine .holding (moves_hide _ _) ?_
  intro held atHeld
  have calling := within.hideBatched kind poses.member (by decide) atHeld.ambient
  have ahead {start : Machine} (resumes : held.Resumes start) : start.ambient.ahead = below := by
    rw [Ambient.ahead_resumes resumes, atHeld.ambient]
    exact within.ahead_hide (.only .batched)
  have heap : held.heap = machine.heap := atHeld.heap
  cases targetPhysical : target.physicalAt? layer.level with
  | none =>
      cases otherPhysical : other.physicalAt? layer.level with
      | none =>
          refine (quiet_writing.pushAll _).leaves_step rfl ?_
          have called
              : ((nested budget).dispatch Base.schemas[8]).Leaves
                  { held with values := held.values ++ [.tensor target, .tensor other] }
                  (fun _ _ _ =>
                    Layer.Target held.ambient.ahead held.heap [.tensor target, .tensor other])
                  (fun _ _ => True) :=
            holds.target_pushed calling inPlace rfl
          apply called.mono ?_ fun _ _ => id
          intro _ _ _ found
          rwa [ahead (.refl held), heap] at found
      | some batch => exact leaves_fail trivial
  | some physical =>
      obtain ⟨handle, rfl⟩ := Tensor.physicalAt?_eq_some targetPhysical
      refine (quiet_read _).leaves_step rfl ?_
      have added {start : Machine} (resumes : held.Resumes start) (addend : Tensor)
          : Run.Leaves
              (do
                pushAll [.tensor physical, .tensor addend]
                (nested budget).dispatch Base.schemas[8]
                Batching.replaceLast (.tensor (.batched handle layer.level physical)))
              start
              (fun _ _ _ =>
                Layer.Target below machine.heap
                  [.tensor (.batched handle layer.level physical), .tensor other])
              (fun _ _ => True) := by
        apply (holds.target_addStanding (calling.resumes resumes)).mono ?_ fun _ _ => id
        intro _ _ _ target
        rw [ahead resumes] at target
        exact (target.congr (resumes.flags.trans (congrArg Heap.flags heap))).batched
      cases otherPhysical : other.physicalAt? layer.level with
      | none =>
          refine (quiet_pure other).leaves_step rfl ?_
          exact added (.refl held) other
      | some batch =>
          let rank := ((Tensor.batched handle layer.level physical).shape held.heap).rank
          have padding
              : (Batching.padToRank (nested budget) batch rank).Leaves held (fun _ _ _ => True)
                  (fun _ _ => True) :=
            (needs_pad (owning_dispatchWithin budget) calling.owning rank (rank + 2) batch).mono
              (fun _ _ _ _ => trivial) fun _ => id
          refine padding.bind ?_
          intro padded reached _ resumes _
          exact added resumes padded

/-- Every kernel tells of the target what the calls that it hands on tell. The base tells nothing,
since no layers are ahead there; operators that are not in place have nothing to tell.
-/
theorem Contract.captures_kept : Contract.captures.Kept where
  congr same captures inPlace := .congr same (captures inPlace)
  unhandled ended unhandled _ := leaves_ended ended unhandled.orderly trivial
  traced captures inPlace := .traced (captures inPlace)
  base {budget op machine kernel} _ atBase found _ inPlace := by
    rw [atBase.ahead]
    exact (quiet_baseKernel found (nested budget) op machine).mono
      (fun _ _ _ _ => Layer.target_nil) fun _ => id
  outside {budget op machine} _ poses atBase inPlace := by
    rw [atBase.ahead]
    have owning := owning_deadWrapperFallback poses.member (.base atBase.layers atBase.overlay)
      _ (owning_dispatchWithin budget)
    exact owning.mono (fun _ _ _ _ => Layer.target_nil) fun _ => id
  enter := captures_enter
  differentiate holds poses within kind _ _ := captures_differentiate holds poses within kind
  leaveDifferentiation holds poses within kind _ := captures_leaveDifferentiation holds poses within kind
  leaveBatching holds poses within kind _ _ := captures_leaveBatching holds poses within kind
  pointwise _ poses _ _ _ _ named inPlace := by
    rcases Schema.inPlace_cases poses.member inPlace with rfl | rfl <;> simp [Base.schemas] at named
  unsqueeze _ _ _ _ _ _ same inPlace := by
    subst same
    cases inPlace
  addInPlace holds poses within kind _ _ same := by
    subst same
    exact captures_addInPlace holds poses within kind
  missingRule _ := (still_log _).leaves_bind (fun _ => trivial) fun _ _ _ _ _ => leaves_fail trivial
  random _ _ _ _ _ _ same inPlace := by
    subst same
    cases inPlace

end

end LayeredDispatch
