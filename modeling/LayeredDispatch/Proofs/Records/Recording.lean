import LayeredDispatch.Proofs.Records.Tags

/-! The records of a call on its way through the layers. The body of a differentiation layer looks at
the gradient mode as it finds it, below the layers that switch the mode off; and a body runs on a call
only if some argument has the hook, which the entry interceptor puts on every tensor. Main statement:
the interceptors and the bodies of differentiation layers give results whose tags remember the
operator wherever a body has looked on, and nothing elsewhere.
-/

namespace LayeredDispatch

open Run Dispatcher

/-- History is recorded in the body of a layer: it is recorded now, and no layer above switches that
off for those below it.
-/
def Ambient.Records (ambient : Ambient) (layer : Layer) : Prop :=
  ambient.grad = true
  ∧ ∀ above ∈ ambient.layers,
      layer.level < above.level → above.transform.priorGrad? ≠ some false

/-- The body of a differentiation layer runs on a call: if it is ahead, on a call that is given a
tensor, and if the call is there already, where some argument still has the hook.
-/
def Machine.Reaches (machine : Machine) (arguments : List Value) (layer : Layer) : Prop :=
  if layer ∈ machine.ambient.ahead then Value.tensorsAll arguments ≠ []
  else
    (Value.carried machine.heap arguments).contains .differentiation = true
    ∧ machine.thread.overlay.excluded.contains .differentiation = false

instance (ambient : Ambient) (layer : Layer) : Decidable (ambient.Records layer) :=
  inferInstanceAs
    (Decidable (_ = true
      ∧ ∀ above ∈ ambient.layers,
          layer.level < above.level → above.transform.priorGrad? ≠ some false))

instance (machine : Machine) (arguments : List Value) (layer : Layer)
    : Decidable (machine.Reaches arguments layer) :=
  inferInstanceAs
    (Decidable (if layer ∈ machine.ambient.ahead then Value.tensorsAll arguments ≠ [] else _ ∧ _))

/-- The operator that the tag of a layer around the result of a call remembers. -/
def Machine.producer? (machine : Machine) (name : String) (arguments : List Value)
    (layer : Layer)
    : Option String :=
  if machine.ambient.Records layer ∧ machine.Reaches arguments layer then some name else none

/-- What a call gives, as far as the records of tags go: those of the differentiation layers, the
outermost one on the outside if it is the top layer.
-/
structure Machine.Remembers (machine : Machine) (op : Schema) (owners : List Layer)
    (arguments : List Value) (result : Tensor) (heap : Heap)
    : Prop where
  history
    : result.history heap
      = (owners.filter (·.kind = .differentiation)).map fun layer =>
          (layer.level, machine.producer? op.name arguments layer)
  stacked : result.Stacked heap.wrappers.size
  top
    : ∀ layer ∈ owners.head?,
        layer.kind = .differentiation → result.taggedLevel? = some layer.level

/-- Calls that write to no argument give results whose tags remember the operator where it is recorded.
-/
def Contract.records : Contract :=
  fun _ owners op machine body =>
    op.isInPlace = false
    → machine.Registered
    → body.Leaves machine
        (fun _ values memory =>
          ∃ result,
            values = machine.firstValues op.arity ++ [.tensor result]
            ∧ machine.Remembers op owners (machine.lastValues op.arity) result memory.heap)
        (fun _ _ => True)

section

variable {machine held : Machine} {op : Schema} {owners below : List Layer} {layer : Layer}
  {arguments inner outer : List Value} {tensor result : Tensor} {budget : Nat}
  {heap other : Heap} {ambient : Ambient} {memory : Memory}

-----------------------------------------------------------------------------------------
-- Where history is recorded
-----------------------------------------------------------------------------------------

/-- Whether history is recorded at a layer depends on the layers and on the gradient mode only. -/
theorem Ambient.records_congr {other : Ambient} (layers : other.layers = ambient.layers)
    (grad : other.grad = ambient.grad)
    : other.Records layer ↔ ambient.Records layer := by
  simp only [Records, layers, grad]

/-- Below a layer the gradient mode is what the layer lets through, so that history is recorded at
the layers below as it was seen from the body.
-/
theorem Ambient.records_leave {lower : Layer} (top : ambient.layers = layer :: below)
    (levelled : Layer.Levelled (layer :: below)) (member : lower ∈ below)
    : (ambient.leave layer below).Records lower ↔ ambient.Records lower := by
  have under : lower.level < layer.level := by
    rw [levelled.1]
    exact Nat.lt_succ_of_le (levelled.2.level_le member)
  simp only [Records, leave, top, List.forall_mem_cons, under, true_implies]
  by_cases off : layer.transform.priorGrad? = some false <;> simp [off]

/-- No layer is above the top layer, so that the gradient mode alone decides whether it records. -/
theorem Ambient.records_top (top : ambient.layers = layer :: below)
    (levelled : Layer.Levelled (layer :: below))
    : ambient.Records layer ↔ ambient.grad = true := by
  refine and_iff_left ?_
  rw [top]
  intro above member less
  have most : above.level ≤ layer.level := by
    rw [levelled.1]
    exact levelled.level_le member
  exact absurd less (Nat.not_lt.mpr most)

theorem Machine.reaches_ahead (ahead : layer ∈ machine.ambient.ahead)
    : machine.Reaches arguments layer ↔ Value.tensorsAll arguments ≠ [] := by
  rw [Reaches, if_pos ahead]

/-- A layer that a call is in, or has been in, is reached where some argument has the hook and it is
not hidden.
-/
theorem Machine.reaches_entered (entered : layer ∉ machine.ambient.ahead)
    : machine.Reaches arguments layer
      ↔ (Value.carried machine.heap arguments).contains .differentiation = true
        ∧ machine.thread.overlay.excluded.contains .differentiation = false := by
  rw [Reaches, if_neg entered]

/-- A layer records for the inner call what it records for the outer one, if it records and is
reached by both or by neither.
-/
theorem Machine.producer?_congr {name : String}
    (records : held.ambient.Records layer ↔ machine.ambient.Records layer)
    (reaches : held.Reaches inner layer ↔ machine.Reaches arguments layer)
    : held.producer? name inner layer = machine.producer? name arguments layer := by
  simp only [producer?, records, reaches]

/-- There are tensors among values exactly if there are among those that take their places. -/
theorem Value.RelatedAll.tensors_ne_nil {relation : Tensor → Tensor → Prop}
    (related : Value.RelatedAll relation arguments inner)
    : Value.tensorsAll inner ≠ [] ↔ Value.tensorsAll arguments ≠ [] := by
  have same := related.tensors.length_eq
  rw [← List.length_pos_iff, ← List.length_pos_iff, same]

theorem Value.tensorsAll_ne_nil_of_carried {capability : Capability} (above : capability ≠ .backend)
    (carries : (Value.carried heap arguments).contains capability = true)
    : Value.tensorsAll arguments ≠ [] := by
  rw [contains_carried above, List.any_eq_true] at carries
  rcases carries with ⟨tensor, member, -⟩
  exact List.ne_nil_of_mem member

-----------------------------------------------------------------------------------------
-- Tensors that have the hook
-----------------------------------------------------------------------------------------

theorem Tensor.capabilities_congr (flags : other.flags = heap.flags) (tensor : Tensor)
    : tensor.capabilities other = tensor.capabilities heap := by
  cases tensor with
  | tagged cell level flag value => simp only [capabilities, Heap.isAlive_congr flags]
  | dense cell | batched handle level value => rfl

/-- A tag that is left when dead tags are taken off is alive, and so has the hook of differentiation
layers.
-/
theorem Tensor.carries_of_taggedLevel? {level : Level}
    (tagged : (tensor.unwrapDead heap).taggedLevel? = some level)
    : ((tensor.unwrapDead heap).capabilities heap).contains .differentiation = true := by
  induction tensor with
  | dense cell => cases tagged
  | batched handle own value ih => cases tagged
  | tagged cell own flag value ih =>
      cases alive : heap.isAlive flag with
      | true => simp [unwrapDead, alive, capabilities, CapabilitySet.ofList]
      | false =>
          simp only [unwrapDead, alive, Bool.false_eq_true, if_false] at tagged ⊢
          exact ih tagged

/-- Every tensor has the hook when it has come into the body of a differentiation layer: it has
either kept a live tag or been given the tag of the layer, whose flag is alive.
-/
theorem Machine.Received.carries (received : machine.Received layer tensor result memory)
    (kind : layer.kind = .differentiation) (registered : machine.Registered)
    (active : layer ∈ machine.thread.layers)
    : (result.capabilities machine.heap).contains .differentiation = true := by
  cases received with
  | bare tagged => exact Tensor.carries_of_taggedLevel? (tagged kind)
  | tagged _ found =>
      obtain ⟨flag, own, alive⟩ := registered layer active
      rw [own] at found
      cases found
      simp [Heap.newTagged, Tensor.capabilities, alive, CapabilitySet.ofList]

/-- If all tensors have a hook, the values have it that hold a tensor. -/
theorem Value.carried_iff_of_all {capability : Capability} (above : capability ≠ .backend)
    (all : ∀ tensor ∈ Value.tensorsAll arguments,
      (tensor.capabilities heap).contains capability = true)
    : (Value.carried heap arguments).contains capability = true
      ↔ Value.tensorsAll arguments ≠ [] := by
  refine ⟨Value.tensorsAll_ne_nil_of_carried above, fun some => ?_⟩
  obtain ⟨tensor, member⟩ := List.exists_mem_of_ne_nil _ some
  rw [contains_carried above, List.any_eq_true]
  exact ⟨tensor, member, all tensor member⟩

-----------------------------------------------------------------------------------------
-- From an inner call to the call around it
-----------------------------------------------------------------------------------------

/-- What the result of the inner call remembers is what the result of the outer call has to, where
the differentiation layers record the same for both.
-/
theorem Machine.Remembers.of_inner (h : held.Remembers op owners inner result heap)
    (same
      : ∀ layer ∈ owners,
          layer.kind = .differentiation
          → held.producer? op.name inner layer = machine.producer? op.name arguments layer)
    : machine.Remembers op owners arguments result heap where
  history := by
    rw [h.history]
    refine List.map_congr_left fun layer member => ?_
    obtain ⟨active, kind⟩ := List.mem_filter.mp member
    rw [same layer active (by simpa using kind)]
  stacked := h.stacked
  top := h.top

/-- Batching layers have no tags, so that the result of a call below such a layer remembers enough.
-/
theorem Machine.Remembers.batching (h : machine.Remembers op below arguments result heap)
    (kind : layer.kind = .batching)
    : machine.Remembers op (layer :: below) arguments result heap where
  history := by
    rw [h.history, List.filter_cons_of_neg (by simp [kind])]
  stacked := h.stacked
  top := by
    rintro _ ⟨⟩ differentiates
    rw [kind] at differentiates
    cases differentiates

/-- What a batching layer marks as batched has the tags that it had, below the mark. -/
theorem Machine.Remembers.marked (h : machine.Remembers op (layer :: below) arguments result heap)
    (kind : layer.kind = .batching)
    : machine.Remembers op (layer :: below) arguments (heap.newBatched result layer.level).1
        (heap.newBatched result layer.level).2 where
  history := by
    rw [← h.history]
    exact h.stacked.history_congr fun _ _ => rfl
  stacked := h.stacked
  top := by
    rintro _ ⟨⟩ differentiates
    rw [kind] at differentiates
    cases differentiates

-----------------------------------------------------------------------------------------
-- What layers find on the way of a call
-----------------------------------------------------------------------------------------

/-- Layers that are ahead of a call and of the call that it leads to find the same: both are given
tensors or neither is.
-/
theorem Machine.producer?_ahead {name : String}
    (before : layer ∈ machine.ambient.ahead) (after : layer ∈ held.ambient.ahead)
    (records : held.ambient.Records layer ↔ machine.ambient.Records layer)
    (tensors : Value.tensorsAll inner ≠ [] ↔ Value.tensorsAll arguments ≠ [])
    : held.producer? name inner layer = machine.producer? name arguments layer := by
  refine producer?_congr records ?_
  rw [reaches_ahead before, reaches_ahead after, tensors]

/-- In the body of a layer all layers find what they found in front of it, if every tensor has been
given the hook of the layer.
-/
theorem Machine.producer?_enter {name : String} {received : Machine} {other : Layer}
    (above : machine.Above layer below) (front : machine.thread.overlay.forces .entryInterceptor)
    (resumed : machine.Resumes received)
    (atHeld : received.Shifted (received.ambient.enter layer.kind) held)
    (tensors : Value.tensorsAll inner ≠ [] ↔ Value.tensorsAll arguments ≠ [])
    (carries
      : layer.kind = .differentiation
        → ∀ tensor ∈ Value.tensorsAll inner,
            (tensor.capabilities machine.heap).contains .differentiation = true)
    (member : other ∈ layer :: below) (kind : other.kind = .differentiation)
    : held.producer? name inner other = machine.producer? name arguments other := by
  have top : received.ambient.layers = layer :: below := resumed.layers.trans above.top
  have ahead := above.ahead_front front
  have entered : held.ambient = received.ambient.enter layer.kind := atHeld.ambient
  have aheadHeld : held.ambient.ahead = below := by
    rw [entered]
    exact Ambient.ahead_enter top
  have records : held.ambient.Records other ↔ machine.ambient.Records other := by
    rw [entered]
    exact Ambient.records_congr resumed.layers resumed.grad
  rcases List.mem_cons.mp member with rfl | member
  · refine Machine.producer?_congr records ?_
    have passed : other ∉ held.ambient.ahead := by
      rw [aheadHeld]
      exact fun member => above.grounded.levelled.below_ne member rfl
    have shown : held.thread.overlay.excluded.contains .differentiation = false := by
      have overlay := congrArg Ambient.overlay entered
      rw [kind] at overlay
      have overlay : held.thread.overlay = _ := overlay
      rw [overlay]
      exact TransformKind.entryOverlay_differentiation _
    rw [Machine.reaches_entered passed, Machine.reaches_ahead (ahead ▸ List.mem_cons_self),
      ← tensors, and_iff_left shown]
    refine Value.carried_iff_of_all (by decide) fun tensor present => ?_
    rw [Tensor.capabilities_congr ((congrArg Heap.flags atHeld.heap).trans resumed.flags)]
    exact carries kind tensor present
  · exact Machine.producer?_ahead (ahead ▸ List.mem_cons_of_mem _ member) (aheadHeld ▸ member)
      records tensors

/-- Where a body has hidden some hooks, the layers below find what they found, since they are ahead
before and after.
-/
theorem Machine.producer?_hide {name : String} {reached : Machine} {set : CapabilitySet}
    {lower : Layer} (within : machine.InBody layer below)
    (hidden : held.ambient = machine.ambient.hide set) (start : held.Resumes reached)
    (tensors : Value.tensorsAll inner ≠ [] ↔ Value.tensorsAll arguments ≠ [])
    (active : lower ∈ below)
    : reached.producer? name inner lower = machine.producer? name arguments lower := by
  have ahead : reached.ambient.ahead = below := by
    rw [Ambient.ahead_resumes start, hidden]
    exact within.ahead_hide set
  refine Machine.producer?_ahead (within.ahead ▸ active) (ahead ▸ active) ?_ tensors
  have layers : reached.ambient.layers = machine.ambient.layers :=
    start.layers.trans (congrArg Ambient.layers hidden)
  exact Ambient.records_congr layers (start.grad.trans (congrArg Ambient.grad hidden))

/-- The call that a body issues does not reach the body again, because the hook is hidden. So the
tag of the layer is still empty when that call comes back.
-/
theorem Machine.producer?_hidden {name : String} (within : machine.InBody layer below)
    (hidden : held.ambient = machine.ambient.hide TransformKind.differentiation.owned)
    : held.producer? name arguments layer = none := by
  refine if_neg fun looked => ?_
  have passed : layer ∉ held.ambient.ahead := by
    rw [hidden, within.ahead_hide]
    exact fun member => within.grounded.levelled.below_ne member rfl
  have overlay : held.thread.overlay = (machine.ambient.hide _).overlay :=
    congrArg Ambient.overlay hidden
  have shown := ((Machine.reaches_entered passed).mp looked.2).2
  rw [overlay] at shown
  simp [Ambient.hide, TransformKind.owned, CapabilitySet.ofList] at shown

/-- A body records the operator if history is recorded where it runs. The layer is the top layer
there, and is reached by the call because its kernel has been selected.
-/
theorem Machine.producer?_body {name : String} (within : machine.InBody layer below)
    (carries : (Value.carried machine.heap arguments).contains .differentiation = true)
    (shown : machine.thread.overlay.excluded.contains .differentiation = false)
    : machine.producer? name arguments layer = if machine.thread.grad then some name else none := by
  have looks : machine.Reaches arguments layer :=
    (Machine.reaches_entered within.not_ahead).mpr ⟨carries, shown⟩
  have top : machine.ambient.layers = layer :: below := within.top
  simp only [Machine.producer?, looks, and_true, Ambient.records_top top within.grounded.levelled]
  rfl

/-- A layer whose body has been passed records nothing any more. -/
theorem Machine.producer?_past {name : String} (within : machine.InBody layer below)
    (past
      : (Value.carried machine.heap arguments).contains .differentiation = true
        → machine.thread.overlay.excluded.contains .differentiation = true)
    : machine.producer? name arguments layer = none := by
  refine if_neg fun looked => ?_
  obtain ⟨carries, shown⟩ := (Machine.reaches_entered within.not_ahead).mp looked.2
  rw [past carries] at shown
  cases shown

/-- Below a layer all layers find what they found in its body, as they are ahead before and after.
-/
theorem Machine.producer?_leave {name : String} {copied : Machine} {lower : Layer}
    (within : machine.InBody layer below) (start : machine.Resumes copied)
    (left : held.ambient = copied.ambient.leave layer below)
    (tensors : Value.tensorsAll inner ≠ [] ↔ Value.tensorsAll arguments ≠ [])
    (active : lower ∈ below)
    : held.producer? name inner lower = machine.producer? name arguments lower := by
  have top : copied.ambient.layers = layer :: below := start.layers.trans within.top
  refine Machine.producer?_ahead (within.ahead ▸ active) ?_ ?_ tensors
  · rw [left, Ambient.ahead_leave]
    exact active
  · rw [left, Ambient.records_leave top within.grounded.levelled active]
    exact Ambient.records_congr start.layers start.grad

-----------------------------------------------------------------------------------------
-- Calls that kernels issue
-----------------------------------------------------------------------------------------

/-- The result of an issued call remembers what that of the call which issues it has to, if the
differentiation layers record the same for both.
-/
theorem Contract.Holds.records (holds : Contract.records.Holds budget)
    (calling : held.Calling op owners) (pure : op.isInPlace = false)
    (registered : held.Registered) (values : held.values = outer ++ inner)
    (size : inner.length = op.arity)
    (same
      : ∀ layer ∈ owners,
          layer.kind = .differentiation
          → held.producer? op.name inner layer = machine.producer? op.name arguments layer)
    : ((nested budget).dispatch op).Leaves held
        (fun _ values memory =>
          ∃ result,
            values = outer ++ [.tensor result]
            ∧ machine.Remembers op owners arguments result memory.heap)
        (fun _ _ => True) := by
  have called := holds calling pure registered
  rw [Machine.lastValues_append values size, Machine.firstValues_append values size] at called
  apply called.mono ?_ fun _ _ => id
  intro _ _ memory given
  rcases given with ⟨result, left, remembers⟩
  exact ⟨result, left, remembers.of_inner same⟩

/-- A call below a layer gives a result that remembers what the layers below record. All of them are
ahead, as they were before.
-/
theorem Contract.Holds.records_below (holds : Contract.records.Holds budget)
    (member : op ∈ Base.schemas) (pure : op.isInPlace = false) (within : machine.InBody layer below)
    (start : machine.Resumes held) (registered : held.Registered)
    (values : held.values = outer ++ inner) (size : inner.length = op.arity)
    (tensors : Value.tensorsAll inner ≠ [] ↔ Value.tensorsAll arguments ≠ [])
    : (dispatchBelow (nested budget) op layer).Leaves held
        (fun _ values memory =>
          ∃ result,
            values = outer ++ [.tensor result]
            ∧ machine.Remembers op below arguments result memory.heap)
        (fun _ _ => True) := by
  have above : held.Above layer below := ⟨start.layers.trans within.top, within.grounded⟩
  refine .dispatchBelow above.top above.grounded.levelled.1 (fun _ => trivial) ?_
  intro reached atReached
  have left : reached.ambient = held.ambient.leave layer below := atReached.ambient
  have registered' : reached.Registered := by
    refine registered.shifted atReached fun lower active => ?_
    rw [above.top]
    exact List.mem_cons_of_mem _ active
  exact holds.records (above.leave member left) pure registered' (atReached.values.trans values)
    size fun _ active _ => Machine.producer?_leave within start left tensors active

-----------------------------------------------------------------------------------------
-- The kernels around layers
-----------------------------------------------------------------------------------------

/-- Below all layers a base kernel gives a dense tensor, around which there is no tag. -/
theorem records_base {kernel : Kernel} (poses : machine.Poses op)
    (found : baseKernel? op.name = some kernel)
    : Contract.records (budget + 1) [] op machine (kernel.run (nested budget) op) := by
  intro pure _
  apply (Base.makes_baseKernel (nested budget) poses found pure).mono ?_ fun _ _ _ => trivial
  intro _ values _ left
  rcases left with ⟨storage, -, left, -, -⟩
  exact ⟨_, left, rfl, trivial, nofun⟩

/-- Outside all layers the call goes on without dead wrappers. There are no layers to put tags on.
-/
theorem records_outside (holds : Contract.records.Holds budget) (poses : machine.Poses op)
    (atBase : machine.AtBase)
    : Contract.records (budget + 1) [] op machine
        (deadWrapperFallback.run (nested budget) op) := by
  intro pure registered
  have size := Machine.lastValues_length poses.enough
  have present := machine.values_eq op.arity
  generalize machine.firstValues op.arity = outer at present ⊢
  generalize machine.lastValues op.arity = arguments at present size ⊢
  unfold deadWrapperFallback
  simp only
  have persists : Memory.Persists (fun _ _ => True) fun _ (_ _ : Tensor) => True :=
    ⟨fun _ => trivial, fun _ _ => trivial, fun _ _ => trivial⟩
  rw [← size]
  refine (Leaves.mapLast persists present ?_).bind ?_
  · intro tensor _ start resumes _ _
    refine (quiet_read _).leaves_step rfl ?_
    split
    · exact leaves_fault trivial trivial
    · exact leaves_pure ⟨rfl, trivial, trivial⟩
  intro _ bared _ resumes left
  rcases left with ⟨inner, values, -, related⟩
  have calling : machine.Calling op [] :=
    .of_layers poses.member (.base atBase.layers atBase.overlay) atBase.layers
  exact holds.records (calling.resumes resumes) pure (registered.resumes resumes) values
    (related.length_eq.trans size) fun _ => nofun

/-- In front of a layer the call is handed to its body. A layer that was ahead is now entered, where
it is reached through the hook; and each tensor has been given the hook, if the layer is a
differentiation layer.
-/
theorem records_enter (holds : Contract.records.Holds budget) (poses : machine.Poses op)
    (above : machine.Above layer below)
    (front : machine.thread.overlay.forces .entryInterceptor)
    : Contract.records (budget + 1) (layer :: below) op machine
        (entryInterceptor.run (nested budget) op) := by
  intro pure registered
  have size := Machine.lastValues_length poses.enough
  have present := machine.values_eq op.arity
  generalize machine.firstValues op.arity = outer at present ⊢
  generalize machine.lastValues op.arity = arguments at present size ⊢
  refine .enter above.top ?_
  intro logged resumes atLogged
  refine (still_noting.refuseCapturedMutation op layer).leaves_bind (fun _ => trivial) ?_
  intro _ checked passed _ _
  obtain rfl := refuseCapturedMutation_ok passed
  have persists
      : Memory.Persists (fun _ _ => True) fun _ (_ result : Tensor) =>
          layer.kind = .differentiation
          → (result.capabilities machine.heap).contains .differentiation = true :=
    ⟨fun _ => trivial, fun _ _ => trivial, fun carries _ => carries⟩
  rw [← size]
  refine (Leaves.mapLast persists (atLogged.values.trans present) ?_).bind ?_
  · intro tensor _ start later _ _
    have resumed := resumes.trans later
    have active : layer ∈ start.thread.layers := by
      rw [resumed.layers, above.top]
      exact List.mem_cons_self
    apply (leaves_receive layer tensor fun _ => trivial).mono ?_ fun _ _ => id
    intro result _ _ received
    refine ⟨received.1, trivial, fun kind => ?_⟩
    rw [← Tensor.capabilities_congr resumed.flags]
    exact received.2.carries kind (registered.resumes resumed) active
  intro _ received _ later left
  rcases left with ⟨inner, values, -, related⟩
  have resumed := resumes.trans later
  refine (quiet_read _).leaves_step rfl ?_
  refine .holding (moves_replaceOverlay _ received) ?_
  intro held atHeld
  have above' : received.Above layer below := ⟨resumed.layers.trans above.top, above.grounded⟩
  have registered' : held.Registered :=
    (registered.resumes resumed).shifted atHeld fun _ active => active
  have carries (kind : layer.kind = .differentiation)
      : ∀ tensor ∈ Value.tensorsAll inner,
          (tensor.capabilities machine.heap).contains .differentiation = true :=
    related.forall_right (fun _ _ => trivial) fun _ _ carries (_ : True) => carries kind
  refine holds.records (above'.enter poses.member atHeld.ambient) pure registered'
    (atHeld.values.trans values) (related.length_eq.trans size) ?_
  intro other member kind
  exact Machine.producer?_enter above front resumed atHeld related.tensors_ne_nil carries member kind

/-- The body records the operator on the tag that the layer has put on, or leaves everything as it
is if nothing is to be recorded.
-/
theorem leaves_recorded {level : Level} {failed : Exit → Memory → Prop} {recording : Bool}
    (single : op.resultCount = 1) (values : machine.values = outer ++ [.tensor result])
    (tagged : result.taggedLevel? = some level)
    : Leaves
        (do
          if recording then
            forTensors (← peek op.resultCount) fun tensor => do
              if tensor.taggedLevel? = some level then
                onHeap fun heap => heap.recordGradFn op.name tensor)
        machine
        (fun _ values memory =>
          values = machine.values
          ∧ memory.heap
            = if recording then machine.heap.recordGradFn op.name result else machine.heap)
        failed := by
  cases recording with
  | false => exact leaves_pure ⟨rfl, rfl⟩
  | true =>
      have results : peek op.resultCount machine = .ok [.tensor result] machine := by
        rw [single]
        exact peek_append values
      refine (quiet_writing.peek _).leaves_step results ?_
      rw [forTensors_tensor, if_pos tagged]
      refine Quiet.leaves (quiet_onHeap fun heap => ?_) rfl ⟨rfl, rfl⟩
      cases result <;> rfl

/-- What the tags around a result remember when the body has been left. Only the record of the
outermost one has changed.
-/
theorem Tensor.Stacked.recorded {level : Level} {record : Option String} {name : String}
    {records : List (Level × Option String)} {recording : Bool}
    (h : result.Stacked heap.wrappers.size) (tagged : result.taggedLevel? = some level)
    (before : result.history heap = (level, record) :: records)
    (after : other = if recording then heap.recordGradFn name result else heap)
    : other.wrappers.size = heap.wrappers.size
      ∧ result.history other = (level, if recording then some name else record) :: records := by
  subst after
  cases recording with
  | false => exact ⟨rfl, before⟩
  | true =>
      cases result with
      | dense cell => cases tagged
      | batched handle own value => cases tagged
      | tagged cell own flag value =>
          cases before
          obtain ⟨recorded, size⟩ := @recordGradFn _ _ _ _ _ name h
          exact ⟨size, recorded⟩

/-- The body of a differentiation layer keeps the contract. The call that it issues passes the layer
and comes back with an empty tag, on which the operator is recorded if the gradient mode says so.
-/
theorem records_differentiate (holds : Contract.records.Holds budget) (poses : machine.Poses op)
    (within : machine.InBody layer below) (kind : layer.kind = .differentiation)
    (shown : machine.thread.overlay.excluded.contains .differentiation = false)
    (carries : machine.Carries op .differentiation)
    : Contract.records (budget + 1) (layer :: below) op machine
        (differentiationBody.run (nested budget) op) := by
  intro pure registered
  have size := Machine.lastValues_length poses.enough
  have present := machine.values_eq op.arity
  unfold Machine.Carries at carries
  generalize machine.firstValues op.arity = outer at present ⊢
  generalize machine.lastValues op.arity = arguments at present size carries ⊢
  refine quiet_writing.currentLayer.leaves_step (currentLayer_apply within.top) ?_
  refine (quiet_read _).leaves_step rfl ?_
  have called
      : (Run.holding (Guard.hide TransformKind.differentiation.owned)
          ((nested budget).dispatch op)).Leaves machine
          (fun _ values memory =>
            ∃ result,
              values = outer ++ [.tensor result]
              ∧ result.Stacked memory.heap.wrappers.size
              ∧ result.taggedLevel? = some layer.level
              ∧ result.history memory.heap
                = (layer.level, none)
                  :: (below.filter (·.kind = .differentiation)).map fun lower =>
                      (lower.level, machine.producer? op.name arguments lower))
          (fun _ _ => True) := by
    refine .holding (moves_hide _ machine) ?_
    intro held atHeld
    have hidden : held.ambient = machine.ambient.hide TransformKind.differentiation.owned :=
      atHeld.ambient
    have calling := within.hideDifferentiation kind poses.member hidden
    have registered' : held.Registered := registered.shifted atHeld fun _ active => active
    apply (holds.records calling pure registered' (atHeld.values.trans present) size
      fun _ _ _ => rfl).mono ?_ fun _ _ => id
    intro _ _ memory given
    rcases given with ⟨result, left, remembers⟩
    refine ⟨result, left, remembers.stacked, remembers.top layer rfl kind, ?_⟩
    rw [remembers.history, List.filter_cons_of_pos (by simp [kind]), List.map_cons,
      Machine.producer?_hidden within hidden]
    refine congrArg _ (List.map_congr_left fun lower member => congrArg _ ?_)
    exact Machine.producer?_hide within hidden (.refl held) Iff.rfl (List.mem_of_mem_filter member)
  refine called.bind ?_
  intro _ reached _ _ given
  rcases given with ⟨result, values, stacked, tagged, history⟩
  have single := Schema.resultCount_eq_one poses.member
  refine (leaves_recorded single values tagged).mono ?_ fun _ _ => id
  intro _ _ memory left
  rcases left with ⟨same, after⟩
  obtain ⟨counted, recorded⟩ := stacked.recorded tagged history after
  refine ⟨result, same.trans values, ?_, ?_, ?_⟩
  · rw [recorded, List.filter_cons_of_pos (by simp [kind]), List.map_cons,
      Machine.producer?_body within carries shown]
  · rw [counted]
    exact stacked
  · rintro _ ⟨⟩ _
    exact tagged

/-- On the way out of a differentiation layer the result from below gets a new tag, which remembers
nothing yet. The layer has been passed, or no argument has its hook, so that it has nothing to
record here.
-/
theorem records_leaveDifferentiation (holds : Contract.records.Holds budget)
    (poses : machine.Poses op) (within : machine.InBody layer below)
    (kind : layer.kind = .differentiation)
    (past
      : machine.Carries op .differentiation
        → machine.thread.overlay.excluded.contains .differentiation = true)
    : Contract.records (budget + 1) (layer :: below) op machine
        (exitInterceptor.run (nested budget) op) := by
  intro pure registered
  have size := Machine.lastValues_length poses.enough
  have present := machine.values_eq op.arity
  unfold Machine.Carries at past
  generalize machine.firstValues op.arity = outer at present ⊢
  generalize machine.lastValues op.arity = arguments at present size past ⊢
  have own := @Machine.producer?_past machine below layer arguments op.name within past
  refine quiet_writing.currentLayer.leaves_step (currentLayer_apply within.top) ?_
  simp only [kind]
  refine (leaves_copyUntagged present size fun _ => trivial).bind ?_
  intro _ copied _ resumes left
  rcases left with ⟨inner, values, -, related⟩
  refine (holds.records_below poses.member pure within resumes (registered.resumes resumes) values
    (related.length_eq.trans size) related.tensors_ne_nil).bind ?_
  intro _ reached _ _ given
  rcases given with ⟨result, values, remembers⟩
  have single := Schema.resultCount_eq_one poses.member
  refine (leaves_tagResults values size single fun _ _ => trivial).mono ?_ fun _ _ => id
  intro _ _ memory tagged
  rcases tagged with ⟨flag, -, values, rfl⟩
  obtain ⟨stacked, history⟩ :=
    @Tensor.Stacked.newTagged reached.heap result flag layer.level remembers.stacked
  refine ⟨_, values, ?_, ?_, ?_⟩
  · refine (stacked.history_congr fun cell _ => Heap.gradFn_refreshAll _ _ cell).trans ?_
    rw [history, List.filter_cons_of_pos (by simp [kind]), List.map_cons, own]
    exact congrArg _ remembers.history
  · dsimp only
    rw [Heap.size_refreshAll]
    exact stacked
  · rintro _ ⟨⟩ _
    rfl

/-- On the way out of a batching layer the result is given as it comes from below. -/
theorem records_leaveBatching (holds : Contract.records.Holds budget) (poses : machine.Poses op)
    (within : machine.InBody layer below) (kind : layer.kind = .batching)
    (owned : owners = below ∨ owners = layer :: below)
    : Contract.records (budget + 1) owners op machine
        (exitInterceptor.run (nested budget) op) := by
  intro pure registered
  have size := Machine.lastValues_length poses.enough
  have present := machine.values_eq op.arity
  generalize machine.firstValues op.arity = outer at present ⊢
  generalize machine.lastValues op.arity = arguments at present size ⊢
  refine quiet_writing.currentLayer.leaves_step (currentLayer_apply within.top) ?_
  simp only [kind]
  apply (holds.records_below poses.member pure within (.refl machine) registered present size
    Iff.rfl).mono ?_ fun _ _ => id
  intro _ _ memory given
  rcases given with ⟨result, left, remembers⟩
  rcases owned with rfl | rfl
  · exact ⟨result, left, remembers⟩
  · exact ⟨result, left, remembers.batching kind⟩

end

end LayeredDispatch
