import LayeredDispatch.Proofs.Effects.BaseKernels
import LayeredDispatch.Proofs.Wrappers.Escape

/-! What the kernels around layers do to the memory that calls find. On the way down values are tagged
and tags are taken off, which changes nothing that was there; on the way up the tags around the
arguments are brought up to date, from the innermost layer outwards. Main statements: the kernels
around layers change what the call that they hand on may change.
-/

namespace LayeredDispatch

open Run Dispatcher

/-- Nothing is written that was there, as far as what is known of tags holds. -/
def Census.Leading (census : Census) (before after : Memory) : Prop :=
  census.Sound before.heap → census.Keeps before after

section

variable {census : Census} {op : Schema} {machine start : Machine} {tensor result : Tensor}
  {layer : Layer} {below owners : List Layer} {budget : Nat} {memory before after : Memory}
  {arguments outer : List Value} {failed : Exit → Memory → Prop}

/-- Steps that write nothing make a sequence that writes nothing. -/
theorem Census.Leading.trans {middle : Memory} (first : census.Leading before middle)
    (second : census.Leading middle after)
    : census.Leading before after := by
  intro sound
  have keeps := first sound
  exact keeps.trans (second (sound.spares keeps.toSpares)) sound

/-- Tensors that are passed on stay known while nothing is written. -/
theorem Census.persists_passedOn (census : Census) (flags : Array Bool)
    : Memory.Persists census.Leading fun _ => census.PassedOn flags where
  refl memory _ := .refl census memory
  trans := .trans
  stable passed _ := passed

-----------------------------------------------------------------------------------------
-- Values on their way down
-----------------------------------------------------------------------------------------

/-- A tensor without dead tags takes the place of the one with them. -/
theorem Census.PassedOn.unwrapDead {heap : Heap} (known : tensor.Known census)
    : census.PassedOn heap.flags tensor (tensor.unwrapDead heap) where
  known := known.unwrapDead
  base := tensor.baseCell_unwrapDead heap
  settled _ flags settled := settled.of_unwrapDead flags

/-- What takes the place of something that has taken the place of a tensor takes its place. -/
theorem Census.PassedOn.trans {flags : Array Bool} {between : Tensor}
    (first : census.PassedOn flags tensor between) (second : census.PassedOn flags between result)
    : census.PassedOn flags tensor result where
  known := second.known
  base := second.base.trans first.base
  settled heap same settled := first.settled heap same (second.settled heap same settled)

/-- A new tag is none of those that were there, so nothing needs to be known of it. -/
theorem Census.PassedOn.newTagged {flags : Array Bool} {heap : Heap} {level : Level} {flag : Nat}
    (known : tensor.Known census) (counted : census.count ≤ heap.wrappers.size)
    : census.PassedOn flags tensor (heap.newTagged tensor level flag).1 where
  known := ⟨fun there => absurd there (Nat.not_lt.mpr counted), known⟩
  base := rfl
  settled _ _ settled := settled.2

/-- A new tag is put behind those that were there. -/
theorem Census.keeps_newTagged (memory : Memory) (value : Tensor) (level : Level) (flag : Nat)
    (counted : census.count ≤ memory.heap.wrappers.size)
    : census.Keeps memory { memory with heap := (memory.heap.newTagged value level flag).2 } := by
  refine ⟨memory.spares_newTagged value level flag, .of_eq fun cell there => ?_⟩
  have present := Nat.lt_of_lt_of_le there counted
  have same := ((Heap.grows_newTagged memory.heap value level flag).wrappers cell present).2
  exact same

/-- A value is tagged with a new wrapper, unless the level is not registered. -/
theorem Run.leaves_tagAt (value : Tensor) (level : Level)
    (refused
      : machine.registry.find? level = none → ∀ fault, failed (.fault fault) machine.memory)
    : (tagAt value level).Leaves machine
        (fun result values memory =>
          values = machine.values
          ∧ ∃ flag,
              machine.registry.find? level = some flag
              ∧ result = (machine.heap.newTagged value level flag).1
              ∧ memory
                = { machine.memory with heap := (machine.heap.newTagged value level flag).2 })
        failed := by
  cases found : machine.registry.find? level with
  | none =>
      have ended : tagAt value level machine = .error (.fault (.levelMissing level)) machine := by
        simp [tagAt, levelFlag, bind_apply, read_apply, found, fault_apply]
      unfold Leaves Ends
      rw [ended]
      exact ⟨trivial, .refl machine, refused found _⟩
  | some flag =>
      have ended
          : tagAt value level machine
            = .ok (machine.heap.newTagged value level flag).1
                { machine with heap := (machine.heap.newTagged value level flag).2 } := by
        simp [tagAt, levelFlag, bind_apply, read_apply, found, pure_apply, allocate_apply]
      exact (quiet_writing.tagAt value level).leaves ended ⟨rfl, flag, rfl, rfl, rfl⟩

/-- What the entry interceptor makes of a tensor: dead tags are taken off, and under differentiation
one of the layer is put on, unless it is there.
-/
inductive Machine.Received (start : Machine) (layer : Layer) (tensor : Tensor)
    : Tensor → Memory → Prop where
  | bare
    (tagged
      : layer.kind = .differentiation
        → (tensor.unwrapDead start.heap).taggedLevel? = some layer.level)
    : Received start layer tensor (tensor.unwrapDead start.heap) start.memory
  | tagged {flag : Nat} (kind : layer.kind = .differentiation)
    (found : start.registry.find? layer.level = some flag)
    : Received start layer tensor
        (start.heap.newTagged (tensor.unwrapDead start.heap) layer.level flag).1
        { start.memory with
          heap := (start.heap.newTagged (tensor.unwrapDead start.heap) layer.level flag).2 }

/-- What the entry interceptor makes of a tensor is bare or newly tagged, and it fails only where
the level of the layer is not registered.
-/
theorem Run.leaves_receive (layer : Layer) (tensor : Tensor)
    (refused : ∀ exit, failed exit start.memory)
    : (receive layer tensor).Leaves start
        (fun result values memory =>
          values = start.values ∧ start.Received layer tensor result memory)
        failed := by
  refine (quiet_read _).leaves_step rfl ?_
  cases kind : layer.kind with
  | batching =>
      refine leaves_pure ⟨rfl, .bare ?_⟩
      intro differentiates
      rw [kind] at differentiates
      cases differentiates
  | differentiation =>
      have tagging
          : (tagAt (tensor.unwrapDead start.heap) layer.level).Leaves start
              (fun result values memory =>
                values = start.values ∧ start.Received layer tensor result memory)
              failed := by
        apply (leaves_tagAt _ _ fun _ fault => refused _).mono ?_ fun _ _ => id
        intro result values memory left
        rcases left with ⟨same, flag, found, rfl, rfl⟩
        exact ⟨same, .tagged kind found⟩
      dsimp only
      unfold materializeAt
      split
      · exact tagging
      rename_i level tagged
      split
      · rename_i same
        exact leaves_pure ⟨rfl, .bare fun _ => same ▸ tagged⟩
      split
      · exact tagging
      · exact leaves_fault trivial (refused _)

/-- What the entry interceptor makes of a tensor takes its place, and nothing was written for it.
-/
theorem Machine.Received.passedOn (received : start.Received layer tensor result memory)
    (known : tensor.Known census) (sound : census.Sound start.heap)
    : census.Leading start.memory memory ∧ census.PassedOn start.heap.flags tensor result := by
  have bare : census.PassedOn start.heap.flags tensor (tensor.unwrapDead start.heap) := .unwrapDead known
  cases received with
  | bare tagged => exact ⟨fun _ => .refl census _, bare⟩
  | tagged kind found =>
      refine ⟨fun sound => ?_, bare.trans (.newTagged bare.known sound.counted)⟩
      exact census.keeps_newTagged _ _ _ _ sound.counted

-----------------------------------------------------------------------------------------
-- In front of a layer and outside
-----------------------------------------------------------------------------------------

/-- Values that each take the place of an argument take the places of all, if none of the
replacements writes anything.
-/
theorem Run.leaves_mapLast_passedOn {replace : Tensor → Run Tensor}
    (sound : census.Sound start.heap) (values : start.values = outer ++ arguments)
    (known : ∀ tensor ∈ Value.tensorsAll arguments, tensor.Known census)
    (refused : ∀ exit memory, census.Keeps start.memory memory → failed exit memory)
    (each
      : ∀ tensor middle,
          tensor.Known census
          → census.Sound (Machine.heap middle)
          → (∀ exit, failed exit middle.memory)
          → (replace tensor).Leaves middle
              (fun result values memory =>
                values = middle.values
                ∧ census.Leading middle.memory memory
                ∧ census.PassedOn middle.heap.flags tensor result)
              failed)
    : (mapLast arguments.length replace).Leaves start
        (fun _ values memory =>
          ∃ inner,
            values = outer ++ inner
            ∧ census.Keeps start.memory memory
            ∧ Value.RelatedAll (census.PassedOn start.heap.flags) arguments inner)
        failed := by
  have persists := census.persists_passedOn start.heap.flags
  refine (Leaves.mapLast persists values ?_).mono ?_ fun _ _ => id
  · intro tensor member middle resumes _ leading
    have keeps := leading sound
    have replaced := each tensor middle (known tensor member) (sound.spares keeps.toSpares)
      fun exit => refused exit _ keeps
    rwa [resumes.flags] at replaced
  · rintro _ _ memory ⟨inner, values, leading, related⟩
    exact ⟨inner, values, leading sound, related⟩

/-- In front of a layer the arguments are received and the call goes on into the body, on what has
taken their places. The check of captured values refuses the call before anything has changed.
-/
theorem effects_enter (holds : (Contract.effects census).Holds budget) (poses : machine.Poses op)
    (above : machine.Above layer below)
    : Contract.effects census (budget + 1) (layer :: below) op machine
        (entryInterceptor.run (nested budget) op) := by
  intro sound known
  have unwritten : census.Keeps machine.memory machine.memory := .refl census _
  have size := Machine.lastValues_length poses.enough
  have present := machine.values_eq op.arity
  generalize machine.firstValues op.arity = outer at present ⊢
  generalize machine.lastValues op.arity = arguments at present known size ⊢
  refine .enter above.top ?_
  intro logged resumes atLogged
  have same : logged.memory = machine.memory := atLogged.memory
  have undone : ∀ exit, census.Undone op arguments machine.memory exit logged.memory := by
    rw [same]
    exact fun _ => unwritten.undone
  refine (still_noting.refuseCapturedMutation op layer).leaves_bind undone ?_
  intro _ checked passed _ _
  obtain rfl := refuseCapturedMutation_ok passed
  have heap : checked.heap = machine.heap := congrArg Memory.heap same
  rw [← size]
  refine Leaves.bind
    (leaves_mapLast_passedOn (heap ▸ sound) (atLogged.values.trans present) known ?_ ?_) ?_
  · intro exit memory keeps
    rw [same] at keeps
    exact keeps.undone
  · intro tensor middle known sound refused
    apply (leaves_receive layer tensor refused).mono ?_ fun _ _ => id
    exact fun _ _ _ left => ⟨left.1, left.2.passedOn known sound⟩
  rintro _ received _ later ⟨inner, values, keeps, related⟩
  refine (quiet_read _).leaves_step rfl ?_
  refine .holding (moves_replaceOverlay _ received) ?_
  intro held atHeld
  have above : received.Above layer below :=
    ⟨later.layers.trans (resumes.layers.trans above.top), above.grounded⟩
  refine holds.affects_passedOn (above.enter poses.member atHeld.ambient) ?_ sound
    (atHeld.values.trans values) size ?_
  · rw [atHeld.memory, ← same]
    exact keeps
  · rwa [heap] at related

/-- Outside all layers dead tags are taken off, which writes nothing, and the call goes on. -/
theorem effects_outside (holds : (Contract.effects census).Holds budget)
    (poses : machine.Poses op) (atBase : machine.AtBase)
    : Contract.effects census (budget + 1) [] op machine
        (deadWrapperFallback.run (nested budget) op) := by
  intro sound known
  have size := Machine.lastValues_length poses.enough
  have present := machine.values_eq op.arity
  generalize machine.firstValues op.arity = outer at present ⊢
  generalize machine.lastValues op.arity = arguments at present known size ⊢
  unfold deadWrapperFallback
  simp only
  rw [← size]
  refine Leaves.bind (leaves_mapLast_passedOn sound present known ?_ ?_) ?_
  · exact fun _ _ keeps => keeps.undone
  · intro tensor middle known _ refused
    refine (quiet_read _).leaves_step rfl ?_
    split
    · exact leaves_fault trivial (refused _)
    · exact leaves_pure ⟨rfl, fun _ => .refl census _, .unwrapDead known⟩
  rintro _ bared _ resumes ⟨inner, values, keeps, related⟩
  have calling : machine.Calling op [] :=
    .of_layers poses.member (.base atBase.layers atBase.overlay) atBase.layers
  exact holds.affects_passedOn (calling.resumes resumes) keeps sound values size related

-----------------------------------------------------------------------------------------
-- The body of a differentiation layer
-----------------------------------------------------------------------------------------

/-- All operators give one result. -/
theorem Schema.resultCount_eq_one (member : op ∈ Base.schemas) : op.resultCount = 1 := by
  simp only [Base.schemas, List.mem_cons, List.not_mem_nil, or_false] at member
  rcases member with rfl | rfl | rfl | rfl | rfl | rfl | rfl | rfl | rfl | rfl <;> rfl

/-- Writing to a wrapper that was not there is of no account to what was. -/
theorem Census.Done.setWrapper {cell : Nat} {wrapper : Wrapper}
    (h : census.Done op owners arguments before memory result)
    (fresh : before.heap.wrappers.size ≤ cell) (sound : census.Sound before.heap)
    (known : ∀ tensor ∈ Value.tensorsAll arguments, tensor.Known census)
    : census.Done op owners arguments before
        { memory with heap := memory.heap.setWrapper cell wrapper } result := by
  have apart {other : Nat} (present : other < before.heap.wrappers.size)
      : (memory.heap.setWrapper cell wrapper).wrapper other = memory.heap.wrapper other :=
    Heap.wrapper_setWrapper_other _ _ (by omega)
  have refreshed : census.Refreshed memory.heap (memory.heap.setWrapper cell wrapper) :=
    .of_eq fun other there => congrArg Wrapper.shape (apart (Nat.lt_of_lt_of_le there sound.counted))
  have holds : memory.heap.Holds (memory.heap.setWrapper cell wrapper) :=
    fun _ present => ⟨present, rfl, id⟩
  refine ⟨⟨h.allows.flags, h.allows.storages, fun other present => ?_, h.allows.generator,
    fun named => ?_⟩, h.known, h.fresh, fun named tensor member => ?_⟩
  · obtain ⟨inside, same⟩ := h.allows.wrappers other present
    refine ⟨by simpa [Heap.setWrapper] using inside, ?_⟩
    exact (congrArg Wrapper.gradFn (apart present)).trans same
  · obtain ⟨first, earlier⟩ := h.allows.steady named
    exact ⟨first, earlier.trans refreshed (h.allows.sound sound named) holds rfl⟩
  · exact (h.settled named tensor member).later (known tensor member)
      (h.allows.sound sound named) holds rfl refreshed

theorem Run.forTensors_tensor (tensor : Tensor) (visit : Tensor → Run Unit)
    : forTensors [.tensor tensor] visit = visit tensor := by
  change (visit tensor >>= fun _ => pure PUnit.unit) = visit tensor
  exact bind_pure_unit

/-- The body of a differentiation layer records the operator on the new tag of the result, which was
not there before the call.
-/
theorem effects_differentiate (holds : (Contract.effects census).Holds budget)
    (poses : machine.Poses op) (within : machine.InBody layer below)
    (kind : layer.kind = .differentiation)
    : Contract.effects census (budget + 1) (layer :: below) op machine
        (differentiationBody.run (nested budget) op) := by
  intro sound known
  have unwritten : census.Keeps machine.memory machine.memory := .refl census _
  have size := Machine.lastValues_length poses.enough
  have present := machine.values_eq op.arity
  generalize machine.firstValues op.arity = outer at present ⊢
  generalize machine.lastValues op.arity = arguments at present known size ⊢
  refine quiet_writing.currentLayer.leaves_step (currentLayer_apply within.top) ?_
  refine (quiet_read _).leaves_step rfl ?_
  have called
      : (Run.holding (Guard.hide TransformKind.differentiation.owned)
          ((nested budget).dispatch op)).Affects census op (layer :: below) arguments outer
          machine.memory machine := by
    refine .holding (moves_hide _ machine) fun held atHeld => ?_
    refine holds.affects (within.hideDifferentiation kind poses.member atHeld.ambient) ?_ sound
      (atHeld.values.trans present) size known rfl fun _ _ _ settled => settled
    rw [atHeld.memory]
    exact unwritten
  refine Leaves.bind called ?_
  rintro _ reached _ _ ⟨result, values, done⟩
  split
  · have results : peek op.resultCount reached = .ok [.tensor result] reached := by
      rw [Schema.resultCount_eq_one poses.member]
      exact peek_append values
    refine (quiet_writing.peek _).leaves_step results ?_
    obtain ⟨cell, flag, inner, rfl, fresh⟩ := done.fresh layer rfl kind
    rw [forTensors_tensor, Tensor.taggedLevel?, if_pos rfl]
    refine Quiet.leaves ?_ rfl ⟨_, values, done.setWrapper fresh sound known⟩
    exact quiet_onHeap fun heap => rfl
  · exact leaves_pure ⟨result, values, done⟩

-----------------------------------------------------------------------------------------
-- On the way out of the body of a layer
-----------------------------------------------------------------------------------------

/-- Layers without differentiation on top promise no new tag. -/
theorem Run.Affects.owned {body : Run Unit} {owners' : List Layer}
    (h : body.Affects census op owners arguments outer before machine)
    (tops
      : ∀ layer ∈ owners'.head?, layer.kind = .differentiation → layer ∈ owners.head?)
    : body.Affects census op owners' arguments outer before machine := by
  refine h.mono ?_ fun _ _ => id
  rintro _ _ memory ⟨result, values, done⟩
  refine ⟨result, values, done.allows, done.known, fun layer top kind => ?_, done.settled⟩
  exact done.fresh layer (tops layer top kind) kind

/-- Below a layer a call does what it may. The guards on the way down leave the memory alone. -/
theorem Contract.Holds.affects_below {inner : List Value}
    (holds : (Contract.effects census).Holds budget) (member : op ∈ Base.schemas)
    (above : machine.Above layer below) (keeps : census.Keeps before machine.memory)
    (sound : census.Sound before.heap) (values : machine.values = outer ++ inner)
    (size : inner.length = op.arity)
    (known : ∀ tensor ∈ Value.tensorsAll inner, tensor.Known census)
    : (dispatchBelow (nested budget) op layer).Affects census op below inner outer before
        machine := by
  refine .dispatchBelow above.top above.grounded.levelled.1 (fun _ => keeps.undone) ?_
  intro held atHeld
  refine holds.affects (above.leave member atHeld.ambient) ?_ sound (atHeld.values.trans values)
    size known rfl fun _ _ _ settled => settled
  rw [atHeld.memory]
  exact keeps

/-- On the way out of a batching layer calls are handed on as they are. -/
theorem effects_leaveBatching (holds : (Contract.effects census).Holds budget)
    (poses : machine.Poses op) (above : machine.Above layer below)
    (kind : layer.kind = .batching) (owned : owners = below ∨ owners = layer :: below)
    : Contract.effects census (budget + 1) owners op machine
        (exitInterceptor.run (nested budget) op) := by
  intro sound known
  refine quiet_writing.currentLayer.leaves_step (currentLayer_apply above.top) ?_
  simp only [kind]
  refine (holds.affects_below poses.member above (.refl census _) sound (machine.values_eq _)
    (Machine.lastValues_length poses.enough) known).owned ?_
  intro head top differentiates
  rcases owned with rfl | rfl
  · exact top
  · cases top
    rw [kind] at differentiates
    cases differentiates

/-- A tensor and what is left of it without a tag of a level. -/
def Tensor.Untagged (level : Level) (tensor result : Tensor) : Prop :=
  result = tensor ∨ ∃ cell flag, tensor = .tagged cell level flag result

/-- A tag does not change which storage is at the bottom. -/
theorem Tensor.Untagged.base {level : Level} (h : tensor.Untagged level result)
    : result.baseCell = tensor.baseCell := by
  rcases h with rfl | ⟨cell, flag, rfl⟩
  · rfl
  · rfl

/-- Copies of the arguments without the tags of the layer are put on top of them. No memory is
touched for this.
-/
theorem leaves_copyUntagged {level : Level} (values : machine.values = outer ++ arguments)
    (size : arguments.length = op.arity) (refused : ∀ exit, failed exit machine.memory)
    : (copyUntagged op level).Leaves machine
        (fun _ values memory =>
          ∃ inner,
            values = outer ++ arguments ++ inner
            ∧ memory = machine.memory
            ∧ Value.RelatedAll (Tensor.Untagged level) arguments inner)
        failed := by
  have persists
      : Memory.Persists (fun before after : Memory => after = before)
          (fun _ => Tensor.Untagged level) :=
    ⟨fun _ => rfl, fun first second => second.trans first, fun related _ => related⟩
  apply Leaves.copyUntagged persists values size
  intro tensor _ start _ same
  refine (idle_reading.unwrapAt tensor level).leaves (fun exit => ?_) fun result ended => ?_
  · rw [same]
    exact refused exit
  · exact ⟨rfl, rfl, unwrapAt_ok ended⟩

/-- A tensor whose own tag may be brought up to date: those within it are. -/
def Tensor.Ready (census : Census) (heap : Heap) : Tensor → Prop
  | .tagged _ _ _ value => value.Settled census heap
  | tensor => tensor.Settled census heap

theorem Tensor.Settled.ready {heap : Heap} (h : tensor.Settled census heap)
    : tensor.Ready census heap := by
  cases tensor with
  | dense cell => exact h
  | tagged cell level flag value => exact h.2
  | batched handle level value => exact h

/-- Once a copy without the tag is settled, the tag itself may be brought up to date. -/
theorem Tensor.Untagged.ready {heap : Heap} {level : Level} (h : tensor.Untagged level result)
    (settled : result.Settled census heap)
    : tensor.Ready census heap := by
  rcases h with rfl | ⟨cell, flag, rfl⟩
  · exact settled.ready
  · exact settled

/-- A tag that may be brought up to date stays so while others are. -/
theorem Tensor.Ready.later {heap later : Heap} (h : tensor.Ready census heap)
    (known : tensor.Known census) (sound : census.Sound heap) (holds : heap.Holds later)
    (flags : later.flags = heap.flags) (refreshed : census.Refreshed heap later)
    : tensor.Ready census later := by
  cases tensor with
  | dense cell => trivial
  | tagged cell level flag value => exact Tensor.Settled.later h known.2 sound holds flags refreshed
  | batched handle level value => exact Tensor.Settled.later h known sound holds flags refreshed

/-- Looking again at a tag that is ready brings it up to date. -/
theorem Census.Sound.refresh_ready {heap : Heap} (sound : census.Sound heap)
    (known : tensor.Known census) (ready : tensor.Ready census heap)
    : census.Refreshed heap (heap.refresh tensor) ∧ tensor.Settled census (heap.refresh tensor) := by
  cases tensor with
  | dense cell => exact ⟨.refl census heap, trivial⟩
  | tagged cell level flag value => exact sound.refresh known ready
  | batched handle level value => exact ⟨.refl census heap, ready⟩

/-- Nothing is written that was there but shapes that tags remember. These are only brought up to
date, unless the call gives a storage another shape.
-/
structure Census.Renews (census : Census) (op : Schema) (before after : Memory) : Prop
    extends before.Spares after where
  refreshed
    : op.name ≠ "resize_" → census.Sound before.heap → census.Refreshed before.heap after.heap

/-- What is renewed twice is renewed. -/
theorem Census.Renews.trans {middle : Memory} (first : census.Renews op before middle)
    (second : census.Renews op middle after)
    : census.Renews op before after := by
  refine ⟨first.toSpares.trans second.toSpares, fun named sound => ?_⟩
  have sound' := sound.spares first.toSpares
  exact (first.refreshed named sound).trans (second.refreshed named sound') sound' second.holds
    second.flags

/-- The tags around tensors are brought up to date one after another. Those that are done stay done
while the others are, which the induction on the tensors carries along.
-/
theorem Census.refreshAll {tensors : List Tensor} (known : ∀ tensor ∈ tensors, tensor.Known census)
    (ready
      : op.name ≠ "resize_"
        → census.Sound memory.heap ∧ ∀ tensor ∈ tensors, tensor.Ready census memory.heap)
    : census.Renews op memory { memory with heap := tensors.foldl Heap.refresh memory.heap }
      ∧ ∀ tensor ∈ tensors,
          op.name ≠ "resize_"
          → tensor.Settled census (tensors.foldl Heap.refresh memory.heap) := by
  induction tensors generalizing memory with
  | nil => exact ⟨⟨.refl memory, fun _ _ => .refl census _⟩, List.forall_mem_nil _⟩
  | cons tensor tensors ih =>
      obtain ⟨knownFirst, knownOthers⟩ := List.forall_mem_cons.mp known
      let next : Memory := { memory with heap := memory.heap.refresh tensor }
      have spares : memory.Spares next := memory.spares_refresh tensor
      have first (named : op.name ≠ "resize_")
          : census.Refreshed memory.heap next.heap ∧ tensor.Settled census next.heap := by
        obtain ⟨sound, ready⟩ := ready named
        exact sound.refresh_ready knownFirst (ready tensor List.mem_cons_self)
      have renews : census.Renews op memory next := ⟨spares, fun named _ => (first named).1⟩
      have later (named : op.name ≠ "resize_")
          : census.Sound next.heap ∧ ∀ other ∈ tensors, other.Ready census next.heap := by
        obtain ⟨sound, ready⟩ := ready named
        refine ⟨sound.spares spares, fun other member => ?_⟩
        exact (ready other (List.mem_cons_of_mem _ member)).later (knownOthers other member) sound
          spares.holds spares.flags (first named).1
      obtain ⟨rest, settled⟩ := @ih next knownOthers later
      refine ⟨renews.trans rest, List.forall_mem_cons.mpr ⟨fun named => ?_, settled⟩⟩
      exact (first named).2.later knownFirst (later named).1 rest.holds rest.flags
        (rest.refreshed named (later named).1)

/-- The heap is changed for one tensor after another. -/
theorem Run.forTensors_onHeap (change : Heap → Tensor → Heap) (items : List Value)
    (machine : Machine)
    : forTensors items (fun tensor => onHeap fun heap => change heap tensor) machine
      = .ok () { machine with heap := (Value.tensorsAll items).foldl change machine.heap } := by
  unfold forTensors
  generalize Value.tensorsAll items = tensors
  induction tensors generalizing machine with
  | nil => rfl
  | cons tensor tensors ih => exact ih { machine with heap := change machine.heap tensor }

/-- The result gets a new tag, and all tags around the arguments are looked at again, unless the
level is not registered. The copies of the arguments are gone by then.
-/
theorem Run.leaves_tagResults {level : Level}
    (values : machine.values = outer ++ arguments ++ [.tensor result])
    (size : arguments.length = op.arity) (single : op.resultCount = 1)
    (refused
      : machine.registry.find? level = none → ∀ fault, failed (.fault fault) machine.memory)
    : (tagResults op level).Leaves machine
        (fun _ values memory =>
          ∃ flag,
            machine.registry.find? level = some flag
            ∧ values = outer ++ [.tensor (machine.heap.newTagged result level flag).1]
            ∧ memory
              = { machine.memory with
                  heap :=
                    (Value.tensorsAll arguments).foldl Heap.refresh
                      (machine.heap.newTagged result level flag).2 })
        failed := by
  have stop : lastStart op.resultCount machine = .ok (outer ++ arguments).length machine := by
    rw [single]
    exact lastStart_append values
  refine (quiet_writing.lastStart _).leaves_step stop ?_
  have tagging
      : (mapRange (outer ++ arguments).length ((outer ++ arguments).length + op.resultCount)
          fun tensor => tagAt tensor level).Leaves machine
          (fun _ values memory =>
            ∃ flag,
              machine.registry.find? level = some flag
              ∧ values
                = outer ++ arguments
                  ++ [.tensor (machine.heap.newTagged result level flag).1]
              ∧ memory
                = { machine.memory with
                    heap := (machine.heap.newTagged result level flag).2 })
          failed := by
    rw [single]
    refine leaves_mapRange values ?_
    simp only [Value.mapTensorsAllM, Value.mapTensorsM, bind_assoc, pure_bind]
    refine (leaves_tagAt result level refused).bind ?_
    intro tagged _ _ _ left
    rcases left with ⟨-, flag, found, rfl, same⟩
    exact leaves_pure ⟨flag, found, rfl, same⟩
  refine tagging.bind ?_
  intro _ reached _ _ left
  rcases left with ⟨flag, found, values, same⟩
  have start : Size.sub? (outer ++ arguments).length op.arity = some outer.length := by
    rw [Size.sub?, List.length_append, size, if_pos (Nat.le_add_left _ _), Nat.add_sub_cancel]
  rw [start]
  refine (quiet_lift (Outcome.plain_orOverflow _).orderly).leaves_step
    (lift_ok_apply outer.length reached) ?_
  refine (quiet_read _).leaves_step rfl ?_
  have chosen
      : (reached.values.take (outer ++ arguments).length).drop outer.length = arguments := by
    rw [values, List.take_left, List.drop_left]
  rw [chosen]
  have quiet : Quiet (forTensors arguments fun tensor => onHeap fun heap => heap.refresh tensor) :=
    quiet_writing.forTensors (fun tensor => quiet_onHeap fun heap => by cases tensor <;> rfl)
      arguments
  refine quiet.leaves_step (forTensors_onHeap Heap.refresh arguments reached) ?_
  refine Quiet.leaves (quiet_modify (fun _ => rfl) (fun _ => rfl) (fun _ => rfl)) rfl ?_
  refine ⟨flag, found, ?_, ?_⟩
  · change reached.values.take outer.length ++ reached.values.drop (outer ++ arguments).length = _
    rw [values, List.drop_left, List.append_assoc, List.take_left]
  · have heap : reached.heap = (machine.heap.newTagged result level flag).2 :=
      congrArg Memory.heap same
    have generator : reached.thread.generator = machine.thread.generator :=
      congrArg Memory.generator same
    simp only [Machine.memory, heap, generator]

/-- Tagging the result and bringing tags up to date only adds to what the call has done. The copies
are settled after the inner call, so the arguments are ready.
-/
theorem affects_tagResults {inner : List Value} (member : op ∈ Base.schemas)
    (sound : census.Sound before.heap) (values : machine.values = outer ++ arguments ++ [.tensor result])
    (size : arguments.length = op.arity)
    (related : Value.RelatedAll (Tensor.Untagged layer.level) arguments inner)
    (known : ∀ tensor ∈ Value.tensorsAll arguments, tensor.Known census)
    (done : census.Done op below inner before machine.memory result)
    : (tagResults op layer.level).Affects census op (layer :: below) arguments outer before
        machine := by
  have written := op.written?_related related fun _ _ untagged => untagged.base
  have allows : census.Allows op arguments before machine.memory :=
    done.allows.of_keeps (.refl census before) sound written
  have counted : before.heap.wrappers.size ≤ machine.heap.wrappers.size := allows.counted
  have inside : census.count ≤ machine.heap.wrappers.size := Nat.le_trans sound.counted counted
  refine Leaves.mono (leaves_tagResults values size (Schema.resultCount_eq_one member) ?_) ?_
    fun _ _ => id
  · exact fun _ fault => ⟨allows, nofun⟩
  intro _ _ _ left
  rcases left with ⟨flag, -, values, rfl⟩
  let added : Memory :=
    { machine.memory with heap := (machine.heap.newTagged result layer.level flag).2 }
  have tagged : census.Keeps machine.memory added :=
    census.keeps_newTagged machine.memory result layer.level flag inside
  have ready (named : op.name ≠ "resize_")
      : census.Sound added.heap
        ∧ ∀ tensor ∈ Value.tensorsAll arguments, tensor.Ready census added.heap := by
    have sound' := done.allows.sound sound named
    refine ⟨sound'.spares tagged.toSpares, fun tensor member => ?_⟩
    have ready := related.forall_left (done.settled named)
      (fun _ _ untagged settled => untagged.ready settled) tensor member
    exact ready.later (known tensor member) sound' tagged.holds tagged.flags tagged.refreshed
  obtain ⟨renews, settled⟩ := Census.refreshAll known ready
  refine ⟨(machine.heap.newTagged result layer.level flag).1, values, ?_, ?_, ?_, ?_⟩
  · refine allows.spares (tagged.toSpares.trans renews.toSpares) sound fun named => ?_
    exact tagged.refreshed.trans (renews.refreshed named (ready named).1) (ready named).1
      renews.holds renews.flags
  · exact ⟨fun there => absurd there (Nat.not_lt.mpr inside), done.known⟩
  · intro head top _
    cases top
    exact ⟨_, flag, result, rfl, counted⟩
  · exact fun named tensor member => settled tensor member named

/-- On the way out of a differentiation layer the call gets copies of the arguments without the tags
of the layer, and its result a new tag. If the inner call ends with an error nothing of this comes
after it.
-/
theorem effects_leaveDifferentiation (holds : (Contract.effects census).Holds budget)
    (poses : machine.Poses op) (above : machine.Above layer below)
    (kind : layer.kind = .differentiation)
    : Contract.effects census (budget + 1) (layer :: below) op machine
        (exitInterceptor.run (nested budget) op) := by
  intro sound known
  have unwritten : census.Keeps machine.memory machine.memory := .refl census _
  have size := Machine.lastValues_length poses.enough
  have present := machine.values_eq op.arity
  generalize machine.firstValues op.arity = outer at present ⊢
  generalize machine.lastValues op.arity = arguments at present known size ⊢
  refine quiet_writing.currentLayer.leaves_step (currentLayer_apply above.top) ?_
  simp only [kind]
  refine (leaves_copyUntagged present size fun _ => unwritten.undone).bind ?_
  rintro _ copied _ resumes ⟨inner, values, same, related⟩
  have written := op.written?_related related fun _ _ untagged => untagged.base
  have known' : ∀ tensor ∈ Value.tensorsAll inner, tensor.Known census := by
    refine related.forall_right known ?_
    rintro tensor result (rfl | ⟨cell, flag, rfl⟩) known
    · exact known
    · exact known.2
  have above' : copied.Above layer below := ⟨resumes.layers.trans above.top, above.grounded⟩
  have called
      : (dispatchBelow (nested budget) op layer).Affects census op below inner
          (outer ++ arguments) machine.memory copied :=
    holds.affects_below poses.member above' (same ▸ unwritten) sound values
      (related.length_eq.trans size) known'
  refine Leaves.bind (called.mono (fun _ _ _ => id) ?_) ?_
  · intro exit memory undone
    exact ⟨undone.allows.of_keeps unwritten sound written, undone.keeps⟩
  rintro _ reached _ _ ⟨result, values, done⟩
  exact affects_tagResults poses.member sound values size related known done

end

end LayeredDispatch
