import LayeredDispatch.Proofs.Results.Batches

/-! Calls on arguments that fit the layers, as the kernels hand them on. What takes the place of an
argument fits the layers that are left, reads as the argument does, and leads to the same storage.
Main statements: what the inner calls of a kernel around layers leave, the kernel leaves.
-/

namespace LayeredDispatch

open Run Dispatcher

/-- A tensor without its tags. -/
def Tensor.bare : Tensor → Tensor
  | .dense cell => .dense cell
  | .tagged _ _ _ value => value.bare
  | .batched handle level value => .batched handle level value.bare

/-- A tensor in the place of another one that differs in its tags only. Both read the same, whatever
is written to the storage below them.
-/
structure Tensor.Replaces (layers : List Layer) (before : Heap) (tensor : Tensor) (after : Heap)
    (result : Tensor)
    : Prop
    extends Tensor.StandsFor layers before tensor after result where
  bare : result.bare = tensor.bare

/-- A state in which an operator is called on arguments that fit the layers, with few enough steps to
the base for the calls that rules may issue on the way.
-/
structure Machine.Supplied (machine : Machine) (budget : Nat) (op : Schema) (owners : List Layer)
    (outer arguments : List Value)
    : Prop
    extends machine.Calling op owners where
  registered : machine.Registered
  values : machine.values = outer ++ arguments
  size : arguments.length = op.arity
  fits : ∀ tensor ∈ Value.tensorsAll arguments, tensor.Fits machine.heap owners
  steps : op.name ≠ "rand" → owners ≠ [] → machine.ambient.steps ≤ budget

/-- A state to which a kernel hands a call on, nearer to the base. -/
structure Machine.HandsOn (machine held : Machine) (budget : Nat) (op : Schema)
    (owners : List Layer) (outer arguments inner : List Value)
    : Prop where
  supplied : held.Supplied budget op owners outer inner
  grows : machine.heap.Grows held.heap
  related
    : Value.RelatedAll
        (fun tensor result => Tensor.Replaces owners machine.heap tensor held.heap result) arguments
        inner

/-- What a layer has received in the place of a tensor that fits it. -/
inductive Layer.Receives (layer : Layer) (tensor : Tensor) : Tensor → Prop where
  | same (tagged : layer.kind = .differentiation → tensor.taggedLevel? = some layer.level)
    : Receives layer tensor tensor
  | tagged (kind : layer.kind = .differentiation) (cell flag : Nat)
    : Receives layer tensor (.tagged cell layer.level flag tensor)

section

variable {machine held copied received : Machine} {op : Schema} {owners below layers : List Layer}
  {layer : Layer} {arguments inner outer given : List Value} {tensor result : Tensor} {budget : Nat}
  {heap before after : Heap} {ok : Unit → List Value → Memory → Prop}
  {failed : Exit → Memory → Prop}

-----------------------------------------------------------------------------------------
-- Tensors in the place of others
-----------------------------------------------------------------------------------------

theorem Tensor.member_bare (heap : Heap) (index : Level → Nat) (tensor : Tensor)
    : tensor.bare.member heap index = tensor.member heap index := by
  induction tensor with
  | dense cell => rfl
  | tagged cell level flag value ih => exact ih
  | batched handle level value ih => rw [bare, member, ih, member]

theorem Tensor.baseCell_bare (tensor : Tensor) : tensor.bare.baseCell = tensor.baseCell := by
  induction tensor with
  | dense cell => rfl
  | tagged cell level flag value ih => exact ih
  | batched handle level value ih => exact ih

/-- Taking off dead tags leaves a tensor that differs in tags only. -/
theorem Tensor.bare_unwrapDead (heap : Heap) (tensor : Tensor)
    : (tensor.unwrapDead heap).bare = tensor.bare := by
  induction tensor with
  | dense cell => rfl
  | tagged cell level flag value ih =>
      rw [unwrapDead]
      split
      · rfl
      · exact ih
  | batched handle level value ih => rfl

/-- What a layer has received differs in tags only from what it was given: dead tags are gone, and
one of the level of the layer may be new.
-/
theorem Machine.Received.bare_eq {memory : Memory}
    (received : machine.Received layer tensor result memory)
    : result.bare = tensor.bare := by
  cases received with
  | bare tagged => exact tensor.bare_unwrapDead _
  | tagged kind found => exact tensor.bare_unwrapDead _

/-- What a layer has received in the place of a tensor that fits the layers. There are no dead tags
around such a tensor, so that it is received as it is, or with one tag more.
-/
theorem Machine.Received.receives {memory : Memory}
    (received : machine.Received layer tensor result memory) (fits : tensor.Fits machine.heap layers)
    : layer.Receives tensor result := by
  cases received with
  | bare tagged =>
      rw [fits.unwrapDead] at tagged ⊢
      exact .same tagged
  | tagged kind found =>
      rw [fits.unwrapDead]
      exact .tagged kind _ _

theorem Tensor.Untagged.bare_eq {level : Level} (h : tensor.Untagged level result)
    : result.bare = tensor.bare := by
  rcases h with rfl | ⟨cell, flag, rfl⟩
  · rfl
  · rfl

theorem Tensor.Fits.replaces (fits : tensor.Fits heap layers)
    : Tensor.Replaces layers heap tensor heap tensor :=
  { fits.standsFor with bare := rfl }

theorem Tensor.Replaces.grows {later : Heap} (h : Tensor.Replaces layers before tensor after result)
    (grows : after.Grows later)
    : Tensor.Replaces layers before tensor later result :=
  { h.toStandsFor.grows grows with bare := h.bare }

/-- Tensors that have taken the places of arguments keep them while storage grows, which is what
makes the treatment of one argument harmless to the others.
-/
theorem Memory.persists_replaces (layers : List Layer) (before : Heap)
    : Memory.Persists (fun earlier later : Memory => earlier.heap.Grows later.heap)
        fun memory tensor result => Tensor.Replaces layers before tensor memory.heap result where
  refl memory := .refl memory.heap
  trans := .trans
  stable replaces grows := replaces.grows grows

/-- Tensors that fit the layers take their own places in all of several values. -/
theorem Value.RelatedAll.replaces (fits : ∀ tensor ∈ tensorsAll arguments, tensor.Fits heap layers)
    : RelatedAll (fun tensor result => Tensor.Replaces layers heap tensor heap result) arguments
        arguments :=
  .refl arguments fun tensor member => (fits tensor member).replaces

/-- What takes the place of arguments that fit the layers is all that a call is about: the values
that are handed on fit the layers too, and there are as many as before.
-/
theorem Machine.HandsOn.of_related (calling : held.Calling op owners) (registered : held.Registered)
    (values : held.values = outer ++ inner) (size : arguments.length = op.arity)
    (steps : op.name ≠ "rand" → owners ≠ [] → held.ambient.steps ≤ budget)
    (grows : machine.heap.Grows held.heap)
    (related
      : Value.RelatedAll
          (fun tensor result => Tensor.Replaces owners machine.heap tensor held.heap result)
          arguments inner)
    : machine.HandsOn held budget op owners outer arguments inner where
  supplied :=
    { toCalling := calling
      registered := registered
      values := values
      size := related.length_eq.trans size
      fits := related.forall_right (fun _ _ => trivial) fun _ _ replaces _ => replaces.fits
      steps := steps }
  grows := grows
  related := related

/-- A call that is handed on as it is, in the same storage, on arguments that fit the layers to
which it goes.
-/
theorem Machine.HandsOn.of_same (calling : held.Calling op owners) (registered : held.Registered)
    (values : held.values = outer ++ arguments) (size : arguments.length = op.arity)
    (steps : op.name ≠ "rand" → owners ≠ [] → held.ambient.steps ≤ budget)
    (heap : held.heap = machine.heap)
    (fits : ∀ tensor ∈ Value.tensorsAll arguments, tensor.Fits machine.heap owners)
    : machine.HandsOn held budget op owners outer arguments arguments := by
  apply Machine.HandsOn.of_related calling registered values size steps
  · rw [heap]
    exact .refl machine.heap
  · rw [heap]
    exact .replaces fits

theorem Machine.Supplied.inSpan {name : String}
    (h : machine.Supplied budget op owners outer arguments) (capability : Capability)
    : (machine.inSpan name capability).Supplied budget op owners outer arguments :=
  { h with toCalling := ⟨h.member, h.owning, h.drawn⟩ }

/-- Under a built stack a call by name starts with enough steps, as the steps to the base are at
most those of all layers together.
-/
theorem Machine.Founded.supplied (founded : machine.Founded)
    (calling : Machine.Calling { machine with values := arguments } op machine.thread.layers)
    (count : arguments.length = op.arity)
    (fits : ∀ tensor ∈ Value.tensorsAll arguments, tensor.Fits machine.heap machine.thread.layers)
    : Machine.Supplied { machine with values := arguments }
        (standard.budget machine.thread.layers.length) op machine.thread.layers [] arguments where
  toCalling := calling
  registered := founded.registered
  values := rfl
  size := count
  fits := fits
  steps _ _ := Nat.le_trans machine.ambient.steps_le (standard.steps_le_budget _)

/-- Where requests are answered any operator that is not random may be called, if its arguments fit
the layers below.
-/
theorem Machine.Serves.supplied (serves : machine.Serves owners budget) (member : op ∈ Base.schemas)
    (drawless : op.name ≠ "rand") (values : machine.values = outer ++ arguments)
    (size : arguments.length = op.arity)
    (fits : ∀ tensor ∈ Value.tensorsAll arguments, tensor.Fits machine.heap owners)
    : machine.Supplied budget op owners outer arguments where
  toCalling := .of_name member serves.owners drawless
  registered := serves.registered
  values := values
  size := size
  fits := fits
  steps _ _ := serves.steps

/-- Where the rule of a batching layer issues its calls the layers below answer requests. Hiding the
hook of batches brings a call at least one step nearer to the base.
-/
theorem Machine.Supplied.serves
    (supplied : machine.Supplied (budget + 1) op (layer :: below) outer arguments)
    (within : machine.InBody layer below) (kind : layer.kind = .batching)
    (shown : machine.thread.overlay.excluded.contains .batched = false) (drawless : op.name ≠ "rand")
    (atHeld
      : Machine.Shifted { machine with values := outer } (machine.ambient.hide (.only .batched))
          held)
    : held.Serves below budget where
  owners := (within.hideBatched kind supplied.member drawless atHeld.ambient).owning
  registered := by
    have registered : Machine.Registered { machine with values := outer } := supplied.registered
    exact registered.shifted atHeld fun _ active => active
  steps := by
    have less := @Ambient.steps_hide machine.ambient layer below (.only .batched) within.top
      within.inBody.entry (by rwa [kind]) (by rw [kind]; rfl)
    have above := supplied.steps drawless (List.cons_ne_nil _ _)
    rw [atHeld.ambient]
    exact Nat.le_of_lt_succ (Nat.lt_of_lt_of_le less above)

/-- What a rule takes off the stack first are the arguments, as many as the operator has. -/
theorem Machine.Supplied.popping (h : machine.Supplied budget op owners outer arguments)
    : pop op.arity machine = .ok arguments { machine with values := outer } := by
  rw [← h.size]
  exact pop_append h.values

/-- Arguments that fit the layers fit them after the call that has been handed on, if that keeps all
shapes. -/
theorem Machine.HandsOn.fits_after (h : machine.HandsOn held budget op owners outer arguments inner)
    (steady : held.heap.Steady after)
    (fits : ∀ tensor ∈ Value.tensorsAll arguments, tensor.Fits machine.heap layers)
    : ∀ tensor ∈ Value.tensorsAll arguments, tensor.Fits after layers := by
  intro tensor member
  exact (((fits tensor member).grows h.grows).fits.steady steady).1

-----------------------------------------------------------------------------------------
-- In front of a layer
-----------------------------------------------------------------------------------------

/-- Only in-place operators may be refused in front of a layer. For others nothing is checked, and
for these whatever follows starts in the same state.
-/
theorem leaves_refuseCapturedMutation {next : Run Unit}
    (refused : op.isInPlace = true → ∀ exit, failed exit machine.memory)
    (tail : next.Leaves machine ok failed)
    : (do refuseCapturedMutation op layer; next).Leaves machine ok failed := by
  cases inPlace : op.isInPlace with
  | false =>
      have unchecked : refuseCapturedMutation op layer machine = .ok () machine := by
        simp [refuseCapturedMutation, inPlace, pure_apply]
      exact (quiet_writing.refuseCapturedMutation op layer).leaves_step unchecked tail
  | true =>
      refine (still_noting.refuseCapturedMutation op layer).leaves_bind (refused inPlace) ?_
      intro _ checked passed _ _
      obtain rfl := refuseCapturedMutation_ok passed
      exact tail

/-- In front of a layer arguments that fit the layers are replaced by others that do, one after
another. The storage only grows meanwhile, so that the first ones stay good.
-/
theorem leaves_received (registered : machine.Registered) (active : layer ∈ machine.thread.layers)
    (levelled : Layer.Levelled (layer :: below)) (values : machine.values = outer ++ arguments)
    (fits : ∀ tensor ∈ Value.tensorsAll arguments, tensor.Fits machine.heap (layer :: below))
    : (Run.mapLast arguments.length (receive layer)).Leaves machine
        (fun _ values memory =>
          ∃ given,
            values = outer ++ given
            ∧ machine.heap.Grows memory.heap
            ∧ Value.RelatedAll
                (fun tensor result =>
                  Tensor.Replaces (layer :: below) machine.heap tensor memory.heap result
                  ∧ layer.Receives tensor result)
                arguments given)
        failed := by
  have persists := (Memory.persists_replaces (layer :: below) machine.heap).also layer.Receives
  refine Leaves.mapLast persists values ?_
  intro tensor member start later _ grows
  have stands := (fits tensor member).grows grows
  apply (leaves_receive_fits (registered.resumes later) (later.layers ▸ active) levelled
    stands.fits).mono
  · intro result _ _ left
    rcases left with ⟨same, grown, received, receives⟩
    exact ⟨same, grown, { stands.trans received with bare := receives.bare_eq },
      receives.receives stands.fits⟩
  · exact fun _ _ => id

/-- A call is handed to the body of the layer. With the layer entered there is one step less to the
base than in front of it.
-/
theorem Machine.Supplied.entered
    (supplied : machine.Supplied (budget + 1) op (layer :: below) outer arguments)
    (above : machine.Above layer below) (front : machine.thread.overlay.forces .entryInterceptor)
    (resumes : machine.Resumes received) (values : received.values = outer ++ given)
    (grows : machine.heap.Grows received.heap)
    (related
      : Value.RelatedAll
          (fun tensor result =>
            Tensor.Replaces (layer :: below) machine.heap tensor received.heap result)
          arguments given)
    (atHeld : received.Shifted (received.ambient.enter layer.kind) held)
    : machine.HandsOn held budget op (layer :: below) outer arguments given := by
  have above' : received.Above layer below := ⟨resumes.layers.trans above.top, above.grounded⟩
  have same : held.heap = received.heap := atHeld.heap
  have top : received.ambient.layers = layer :: below := above'.top
  apply Machine.HandsOn.of_related (above'.enter supplied.member atHeld.ambient)
  · exact (supplied.registered.resumes resumes).shifted atHeld fun _ => id
  · exact atHeld.values.trans values
  · exact supplied.size
  · intro drawless active
    have less := Ambient.steps_enter top (front.resumes resumes)
    rw [Ambient.steps_resumes resumes, ← atHeld.ambient] at less
    exact Nat.le_of_lt_succ (Nat.lt_of_lt_of_le less (supplied.steps drawless active))
  · rwa [same]
  · rwa [same]

/-- The entry interceptor leaves what the body of the layer leaves on what the layer has received in the
place of the arguments.
-/
theorem leaves_entering
    (supplied : machine.Supplied (budget + 1) op (layer :: below) outer arguments)
    (above : machine.Above layer below)
    (front : machine.thread.overlay.forces .entryInterceptor)
    (refused : op.isInPlace = true → ∀ exit memory, failed exit memory)
    (inner
      : ∀ received held given,
          machine.Resumes received
          → received.Shifted (received.ambient.enter layer.kind) held
          → machine.HandsOn held budget op (layer :: below) outer arguments given
          → Value.RelatedAll layer.Receives arguments given
          → ((nested budget).dispatch op).Leaves held ok failed)
    : (entryInterceptor.run (nested budget) op).Leaves machine ok failed := by
  refine .enter above.top ?_
  intro logged resumes atLogged
  have heap : logged.heap = machine.heap := atLogged.heap
  apply leaves_refuseCapturedMutation fun inPlace exit => refused inPlace exit _
  have layers : logged.thread.layers = layer :: below := resumes.layers.trans above.top
  have active : layer ∈ logged.thread.layers := layers ▸ List.mem_cons_self
  have fits := supplied.fits
  rw [← heap] at fits
  rw [← supplied.size]
  refine (leaves_received (supplied.registered.resumes resumes) active above.grounded.levelled
    (atLogged.values.trans supplied.values) fits).bind ?_
  intro _ received _ later left
  rcases left with ⟨given, values, grows, related⟩
  rw [heap] at grows related
  refine (quiet_read _).leaves_step rfl ?_
  refine .holding (moves_replaceOverlay _ received) ?_
  intro held atHeld
  have resumed := resumes.trans later
  have handed := supplied.entered above front resumed values grows
    (related.mono fun _ _ => And.left) atHeld
  exact inner received held given resumed atHeld handed (related.mono fun _ _ => And.right)

/-- The entry interceptor leaves what the body of the layer leaves, if only the places of the
arguments count.
-/
theorem leaves_entry (supplied : machine.Supplied (budget + 1) op (layer :: below) outer arguments)
    (above : machine.Above layer below)
    (front : machine.thread.overlay.forces .entryInterceptor)
    (refused : op.isInPlace = true → ∀ exit memory, failed exit memory)
    (inner
      : ∀ held given,
          machine.HandsOn held budget op (layer :: below) outer arguments given
          → ((nested budget).dispatch op).Leaves held ok failed)
    : (entryInterceptor.run (nested budget) op).Leaves machine ok failed :=
  leaves_entering supplied above front refused fun _ held given _ _ handed _ => inner held given handed

-----------------------------------------------------------------------------------------
-- In the body of a differentiation layer
-----------------------------------------------------------------------------------------

/-- The body of a differentiation layer hands a call on as it is. The capabilities of the layer are
hidden, which is one step to the base.
-/
theorem Machine.Supplied.hidden
    (supplied : machine.Supplied (budget + 1) op (layer :: below) outer arguments)
    (within : machine.InBody layer below) (kind : layer.kind = .differentiation)
    (shown : machine.thread.overlay.excluded.contains .differentiation = false)
    (atHeld
      : machine.Shifted (machine.ambient.hide TransformKind.differentiation.owned) held)
    : machine.HandsOn held budget op (layer :: below) outer arguments arguments := by
  apply Machine.HandsOn.of_same (within.hideDifferentiation kind supplied.member atHeld.ambient)
  · exact supplied.registered.shifted atHeld fun _ => id
  · exact atHeld.values.trans supplied.values
  · exact supplied.size
  · intro drawless active
    have less := @Ambient.steps_hide machine.ambient layer below
      TransformKind.differentiation.owned within.top within.inBody.entry (by rwa [kind])
      (by rw [kind]; rfl)
    rw [← atHeld.ambient] at less
    exact Nat.le_of_lt_succ (Nat.lt_of_lt_of_le less (supplied.steps drawless active))
  · exact atHeld.heap
  · exact supplied.fits

/-- What a call leaves that is handed on as it is, the body of the differentiation layer leaves, up
to recording.
-/
theorem leaves_hidden (supplied : machine.Supplied (budget + 1) op (layer :: below) outer arguments)
    (within : machine.InBody layer below) (kind : layer.kind = .differentiation)
    (shown : machine.thread.overlay.excluded.contains .differentiation = false)
    (inner
      : ∀ held,
          machine.HandsOn held budget op (layer :: below) outer arguments arguments
          → ((nested budget).dispatch op).Leaves held ok failed)
    : (Run.holding (Guard.hide TransformKind.differentiation.owned)
        ((nested budget).dispatch op)).Leaves machine ok failed :=
  .holding (moves_hide _ machine) fun held atHeld =>
    inner held (supplied.hidden within kind shown atHeld)

-----------------------------------------------------------------------------------------
-- On the way out of a layer
-----------------------------------------------------------------------------------------

/-- A call goes on below a layer, of arguments that fit the layers there, with one step less to the
base.
-/
theorem Machine.HandsOn.left (member : op ∈ Base.schemas) (above : copied.Above layer below)
    (registered : copied.Registered) (values : copied.values = outer ++ inner)
    (size : inner.length = op.arity)
    (steps : op.name ≠ "rand" → below ≠ [] → copied.ambient.steps ≤ budget + 1)
    (fits : ∀ tensor ∈ Value.tensorsAll inner, tensor.Fits copied.heap below)
    (atHeld : copied.Shifted (copied.ambient.leave layer below) held)
    : copied.HandsOn held budget op below outer inner inner := by
  apply Machine.HandsOn.of_same (above.leave member atHeld.ambient)
  · refine registered.shifted atHeld ?_
    rw [above.top]
    exact fun _ => List.mem_cons_of_mem layer
  · exact atHeld.values.trans values
  · exact size
  · intro drawless active
    have less := @Ambient.steps_leave copied.ambient layer below above.top
    rw [← atHeld.ambient] at less
    exact Nat.le_of_lt_succ (Nat.lt_of_lt_of_le less (steps drawless active))
  · exact atHeld.heap
  · exact fits

/-- What a call leaves below a layer, the exit from the layer leaves. The overlay for the layers
below is found without failure where the arguments fit them.
-/
theorem leaves_onward (member : op ∈ Base.schemas) (above : copied.Above layer below)
    (registered : copied.Registered) (values : copied.values = outer ++ inner)
    (size : inner.length = op.arity)
    (steps : op.name ≠ "rand" → below ≠ [] → copied.ambient.steps ≤ budget + 1)
    (fits : ∀ tensor ∈ Value.tensorsAll inner, tensor.Fits copied.heap below)
    (called
      : ∀ held,
          copied.Shifted (copied.ambient.leave layer below) held
          → copied.HandsOn held budget op below outer inner inner
          → ((nested budget).dispatch op).Leaves held ok failed)
    : (dispatchBelow (nested budget) op layer).Leaves copied ok failed := by
  refine .below above.top above.grounded.levelled.1 ?_ ?_
  · intro start layers same heap
    have heap : start.heap = copied.heap := congrArg Memory.heap heap
    have passed
        : (overlayBelow op layer).Leaves start (fun _ _ _ => True) (fun _ _ => False) := by
      refine meets_overlayBelow layer layers (same.trans values) size ?_
      rwa [heap]
    exact passed.mono (fun _ _ _ => id) fun _ _ => False.elim
  intro held atHeld
  exact called held atHeld (.left member above registered values size steps fits atHeld)

/-- A call that is handed on after its arguments have been replaced: what takes the place of the
replacements takes the place of the arguments.
-/
theorem Machine.HandsOn.replaced (h : copied.HandsOn held budget op owners outer inner inner)
    (grows : machine.heap.Grows copied.heap)
    (related
      : Value.RelatedAll
          (fun tensor result => Tensor.Replaces owners machine.heap tensor copied.heap result)
          arguments inner)
    : machine.HandsOn held budget op owners outer arguments inner where
  supplied := h.supplied
  grows := grows.trans h.grows
  related := related.mono fun _ _ replaces => replaces.grows h.grows

/-- On the way out of a differentiation layer arguments that fit the layers are replaced by others that
fit the layers below.
-/
theorem leaves_untagged (kind : layer.kind = .differentiation)
    (levelled : Layer.Levelled (layer :: below)) (values : machine.values = outer ++ arguments)
    (size : arguments.length = op.arity)
    (fits : ∀ tensor ∈ Value.tensorsAll arguments, tensor.Fits machine.heap (layer :: below))
    : (copyUntagged op layer.level).Leaves machine
        (fun _ values memory =>
          ∃ given,
            values = outer ++ arguments ++ given
            ∧ machine.heap.Grows memory.heap
            ∧ Value.RelatedAll
                (fun tensor result =>
                  Tensor.Replaces below machine.heap tensor memory.heap result
                  ∧ tensor.Untagged layer.level result)
                arguments given)
        failed := by
  have persists :=
    (Memory.persists_replaces below machine.heap).also (Tensor.Untagged layer.level)
  refine Leaves.copyUntagged persists values size ?_
  intro tensor member start _ grows
  have stands := (fits tensor member).grows grows
  apply (leaves_unwrapAt_fits kind levelled stands.fits).mono
  · intro result _ _ left
    rcases left with ⟨same, grown, bared, untagged⟩
    exact ⟨same, grown, { stands.trans bared with bare := untagged.bare_eq }, untagged⟩
  · exact fun _ _ => id

/-- On the way out of a differentiation layer a call is handed on without the tags of the layer; its
result gets a new one, and those around the arguments are looked at again.
-/
theorem leaves_untagging {mid : Tensor → Memory → Prop}
    (supplied : machine.Supplied (budget + 1) op (layer :: below) outer arguments)
    (within : machine.InBody layer below) (kind : layer.kind = .differentiation)
    (inner
      : ∀ copied held given,
          machine.Resumes copied
          → copied.Shifted (copied.ambient.leave layer below) held
          → machine.HandsOn held budget op below (outer ++ arguments) arguments given
          → Value.RelatedAll (Tensor.Untagged layer.level) arguments given
          → ((nested budget).dispatch op).Leaves held
              (fun _ values memory =>
                ∃ result, values = outer ++ arguments ++ [.tensor result] ∧ mid result memory)
              failed)
    (tagged
      : ∀ result flag (memory : Memory),
          memory.heap.isAlive flag = true
          → mid result memory
          → ok () (outer ++ [.tensor (memory.heap.newTagged result layer.level flag).1])
              { memory with
                heap :=
                  (Value.tensorsAll arguments).foldl Heap.refresh
                    (memory.heap.newTagged result layer.level flag).2 })
    : (exitInterceptor.run (nested budget) op).Leaves machine ok failed := by
  have levelled := within.grounded.levelled
  refine quiet_writing.currentLayer.leaves_step (currentLayer_apply within.top) ?_
  simp only [kind]
  refine (leaves_untagged kind levelled supplied.values supplied.size supplied.fits).bind ?_
  intro _ copied _ resumes left
  rcases left with ⟨given, values, grows, related⟩
  have untagged := related.mono fun _ _ => And.right
  replace related := related.mono fun _ _ => And.left
  have above : copied.Above layer below := ⟨resumes.layers.trans within.top, within.grounded⟩
  have fits : ∀ tensor ∈ Value.tensorsAll given, tensor.Fits copied.heap below :=
    related.forall_right (fun _ _ => trivial) fun _ _ replaces (_ : True) => replaces.fits
  have steps : op.name ≠ "rand" → below ≠ [] → copied.ambient.steps ≤ budget + 1 := by
    intro drawless _
    rw [Ambient.steps_resumes resumes]
    exact supplied.steps drawless (List.cons_ne_nil _ _)
  have registered := supplied.registered.resumes resumes
  have called
      : (dispatchBelow (nested budget) op layer).Leaves copied
          (fun _ values memory =>
            ∃ result, values = outer ++ arguments ++ [.tensor result] ∧ mid result memory)
          failed := by
    apply leaves_onward supplied.member above registered values
      (related.length_eq.trans supplied.size) steps fits
    intro held atHeld handed
    exact inner copied held given resumes atHeld (handed.replaced grows related) untagged
  refine called.bind ?_
  intro _ reached _ later left
  rcases left with ⟨result, values, left⟩
  have single := Schema.resultCount_eq_one supplied.member
  obtain ⟨own, registers, alive⟩ := (registered.resumes later) layer (by
    rw [later.layers, above.top]
    exact List.mem_cons_self)
  apply Leaves.mono (leaves_tagResults values supplied.size single ?_)
  · intro _ _ _ left'
    rcases left' with ⟨flag, found, rfl, rfl⟩
    rw [registers] at found
    cases found
    exact tagged result own reached.memory alive left
  · exact fun _ _ => id
  · intro missing
    rw [registers] at missing
    cases missing

/-- The way out of a differentiation layer, if only the places of the arguments count, and not how
their tags have been taken off.
-/
theorem leaves_tagging {mid : Tensor → Memory → Prop}
    (supplied : machine.Supplied (budget + 1) op (layer :: below) outer arguments)
    (within : machine.InBody layer below) (kind : layer.kind = .differentiation)
    (inner
      : ∀ held given,
          machine.HandsOn held budget op below (outer ++ arguments) arguments given
          → ((nested budget).dispatch op).Leaves held
              (fun _ values memory =>
                ∃ result, values = outer ++ arguments ++ [.tensor result] ∧ mid result memory)
              failed)
    (tagged
      : ∀ result flag (memory : Memory),
          memory.heap.isAlive flag = true
          → mid result memory
          → ok () (outer ++ [.tensor (memory.heap.newTagged result layer.level flag).1])
              { memory with
                heap :=
                  (Value.tensorsAll arguments).foldl Heap.refresh
                    (memory.heap.newTagged result layer.level flag).2 })
    : (exitInterceptor.run (nested budget) op).Leaves machine ok failed :=
  leaves_untagging supplied within kind
    (fun _ held given _ _ handed _ => inner held given handed) tagged

/-- Where no value carries the hook of batches, no tensor among the values does. -/
theorem Value.unbatched_of_carried {values : List Value}
    (absent : (Value.carried heap values).contains .batched = false)
    : ∀ tensor ∈ Value.tensorsAll values,
        (tensor.capabilities heap).contains .batched = false := by
  rw [contains_carried (by decide), List.any_eq_false] at absent
  exact fun tensor member => Bool.eq_false_iff.mpr (absent tensor member)

/-- On the way out of a batching layer arguments fit the layers below as they are: either the layer
has already taken off its batches, or there are none.
-/
theorem Machine.Supplied.unbatched
    (supplied : machine.Supplied (budget + 1) op owners outer arguments)
    (kind : layer.kind = .batching)
    (owned
      : owners = below
        ∨ (owners = layer :: below
          ∧ (Value.carried machine.heap (machine.lastValues op.arity)).contains .batched = false))
    : (op.name ≠ "rand" → below ≠ [] → machine.ambient.steps ≤ budget + 1)
      ∧ ∀ tensor ∈ Value.tensorsAll arguments, tensor.Fits machine.heap below := by
  rcases owned with rfl | ⟨rfl, absent⟩
  · exact ⟨supplied.steps, supplied.fits⟩
  · refine ⟨fun drawless _ => supplied.steps drawless (List.cons_ne_nil _ _), ?_⟩
    rw [Machine.lastValues_append supplied.values supplied.size] at absent
    intro tensor member
    apply (supplied.fits tensor member).of_shared kind
    exact Tensor.physicalAt?_of_carried _ (Value.unbatched_of_carried absent tensor member)

/-- What a call leaves that is handed on as it is, the exit from a batching layer leaves. -/
theorem leaves_unbatched (supplied : machine.Supplied (budget + 1) op owners outer arguments)
    (within : machine.InBody layer below) (kind : layer.kind = .batching)
    (owned
      : owners = below
        ∨ (owners = layer :: below
          ∧ (Value.carried machine.heap (machine.lastValues op.arity)).contains .batched = false))
    (inner
      : ∀ held,
          machine.Shifted (machine.ambient.leave layer below) held
          → machine.HandsOn held budget op below outer arguments arguments
          → ((nested budget).dispatch op).Leaves held ok failed)
    : (exitInterceptor.run (nested budget) op).Leaves machine ok failed := by
  refine quiet_writing.currentLayer.leaves_step (currentLayer_apply within.top) ?_
  simp only [kind]
  obtain ⟨steps, fits⟩ := supplied.unbatched kind owned
  exact leaves_onward supplied.member within.toAbove supplied.registered supplied.values
    supplied.size steps fits inner

-----------------------------------------------------------------------------------------
-- Below all layers
-----------------------------------------------------------------------------------------

/-- Outside all layers arguments that fit are dense, so that there are no dead wrappers to take off,
and a call is handed on as it is.
-/
theorem leaves_outside (supplied : machine.Supplied (budget + 1) op [] outer arguments)
    (atBase : machine.AtBase)
    (inner
      : ∀ held given,
          machine.HandsOn held budget op [] outer arguments given
          → ((nested budget).dispatch op).Leaves held ok failed)
    : (deadWrapperFallback.run (nested budget) op).Leaves machine ok failed := by
  unfold deadWrapperFallback
  simp only
  rw [← supplied.size]
  have persists := Memory.persists_replaces [] machine.heap
  refine (Leaves.mapLast persists supplied.values ?_).bind ?_
  · intro tensor member start _ _ grows
    have replaces := (supplied.fits tensor member).replaces.grows grows
    have bare : tensor.unwrapDead start.heap = tensor := replaces.fits.unwrapDead
    refine (quiet_read _).leaves_step rfl ?_
    dsimp only
    rw [bare]
    cases supplied.fits tensor member with
    | dense present sized => exact leaves_pure ⟨rfl, .refl _, replaces⟩
  intro _ bared _ resumes left
  rcases left with ⟨given, values, grows, related⟩
  have calling : machine.Calling op [] :=
    .of_layers supplied.member (.base atBase.layers atBase.overlay) atBase.layers
  apply inner bared given
  apply Machine.HandsOn.of_related (calling.resumes resumes)
    (supplied.registered.resumes resumes) values supplied.size
  · exact fun _ active => absurd rfl active
  · exact grows
  · exact related

end

end LayeredDispatch
