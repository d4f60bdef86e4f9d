import LayeredDispatch.Proofs.Families.Correctness
import LayeredDispatch.Proofs.Wrappers.Captures

/-! Calls that would write a captured value, under differentiation layers alone. The layer that has
not tagged the target refuses the call when the call arrives in front of it; until then no layer above
can fail, since the arguments are well-formed. Main statement: an in-place call writes only what all
differentiation layers have tagged, and without a tag of one of them it is refused and has changed
nothing that was there.
-/

namespace LayeredDispatch

open Run Dispatcher

/-- A computation that refuses to write a captured value. -/
def Run.Refuses (body : Run Unit) (op : Schema) (machine : Machine) : Prop :=
  body.Leaves machine (fun _ _ _ => False) fun exit _ => exit = .error (.capturedMutation op.name)

/-- A state under differentiation layers in which an in-place operator is called on a target that
some layer ahead has not tagged.
-/
structure Machine.Captures (machine : Machine) (op : Schema) (owners : List Layer)
    (outer arguments : List Value)
    : Prop where
  member : op ∈ Base.schemas
  inPlace : op.isInPlace = true
  owning : machine.ambient.Owners owners
  registered : machine.Registered
  differentiating : ∀ layer ∈ machine.thread.layers, layer.kind = .differentiation
  values : machine.values = outer ++ arguments
  size : arguments.length = op.arity
  fits : ∀ tensor ∈ Value.tensorsAll arguments, tensor.Fits machine.heap owners
  missing : ¬Layer.Target machine.ambient.ahead machine.heap arguments

/-- Calls that refuse to write captured values, if there are few enough steps to the base. -/
def Calls.Refusing (calls : Calls) (budget : Nat) : Prop :=
  ∀ {op machine owners outer arguments},
    Machine.Captures machine op owners outer arguments
    → machine.ambient.steps ≤ budget
    → (calls.dispatch op).Refuses op machine

section

variable {layers below owners : List Layer} {layer : Layer} {heap other : Heap}
  {arguments inner outer : List Value} {machine held : Machine} {op : Schema} {budget : Nat}
  {tensor result : Tensor} {calls : Calls}

theorem Machine.Captures.enough (h : machine.Captures op owners outer arguments)
    : op.arity ≤ machine.values.length := by
  rw [h.values, List.length_append, h.size]
  exact Nat.le_add_left _ _

/-- A call that is handed on, nearer to the base, on arguments that take the place of the others.
What has to be seen anew is that they fit and that a tag is still missing.
-/
theorem Machine.Captures.onward {owners' : List Layer} {outer' : List Value}
    (h : machine.Captures op owners outer arguments) (calling : held.Calling op owners')
    (subset : ∀ layer ∈ held.ambient.layers, layer ∈ machine.ambient.layers)
    (registered : held.Registered) (values : held.values = outer' ++ inner)
    (size : inner.length = arguments.length)
    (fits : ∀ tensor ∈ Value.tensorsAll inner, tensor.Fits held.heap owners')
    (missing : ¬Layer.Target held.ambient.ahead held.heap inner)
    : held.Captures op owners' outer' inner where
  member := h.member
  inPlace := h.inPlace
  owning := calling.owning
  registered := registered
  differentiating layer member := h.differentiating layer (subset layer member)
  values := values
  size := size.trans h.size
  fits := fits
  missing := missing

/-- What has been refused, the rest of a sequence does not change, as it never runs. -/
theorem Run.Leaves.refused {first : Run α} {next : α → Run β}
    {ok : β → List Value → Memory → Prop} {failed : Exit → Memory → Prop}
    (h : first.Leaves machine (fun _ _ _ => False) failed)
    : (first >>= next).Leaves machine ok failed :=
  h.bind fun _ _ _ _ absurd => absurd.elim

/-- Tensors that take the place of others fit the layers while the heap grows. -/
theorem Memory.persists_fits (layers : List Layer) (relation : Tensor → Tensor → Prop)
    : Memory.Persists (fun before after : Memory => before.heap.Grows after.heap)
        fun memory tensor result => result.Fits memory.heap layers ∧ relation tensor result where
  refl memory := .refl memory.heap
  trans := .trans
  stable related grows := ⟨(related.1.grows grows).fits, related.2⟩

/-- If every replacement fits and is related, then all of them fit, and all are related. -/
theorem Value.RelatedAll.fits {relation : Tensor → Tensor → Prop}
    (related
      : RelatedAll (fun tensor result => result.Fits heap layers ∧ relation tensor result) arguments
          inner)
    : (∀ tensor ∈ tensorsAll inner, tensor.Fits heap layers) ∧ RelatedAll relation arguments inner := by
  constructor
  · exact related.forall_right (fun _ _ => trivial) fun _ _ both _ => both.1
  · exact related.mono fun _ _ both => both.2

/-- The entry interceptor cannot fail on a tensor that fits the layers: its level is registered, and
there is no wrapper of a higher level in the way.
-/
theorem Run.leaves_receive_fits {failed : Exit → Memory → Prop} (registered : machine.Registered)
    (active : layer ∈ machine.thread.layers) (levelled : Layer.Levelled (layer :: below))
    (fits : tensor.Fits machine.heap (layer :: below))
    : (receive layer tensor).Leaves machine
        (fun result values memory =>
          values = machine.values
          ∧ machine.heap.Grows memory.heap
          ∧ Tensor.StandsFor (layer :: below) machine.heap tensor memory.heap result
          ∧ machine.Received layer tensor result memory)
        failed := by
  have total
      : (receive layer tensor).Leaves machine
          (fun result values memory =>
            values = machine.values
            ∧ machine.heap.Grows memory.heap
            ∧ Tensor.StandsFor (layer :: below) machine.heap tensor memory.heap result)
          (fun _ _ => False) :=
    Meets.receive registered active levelled fits
  have made
      : (receive layer tensor).Leaves machine
          (fun result values memory =>
            values = machine.values ∧ machine.Received layer tensor result memory)
          (fun _ _ => True) :=
    leaves_receive layer tensor fun _ => trivial
  apply (total.and made).mono
  · intro result values memory both
    rcases both with ⟨⟨same, grows, stands⟩, -, received⟩
    exact ⟨same, grows, stands, received⟩
  · exact fun _ _ both => both.1.elim

/-- The exit interceptor cannot fail to take a tag off a tensor that fits the layers. -/
theorem Run.leaves_unwrapAt_fits {failed : Exit → Memory → Prop}
    (kind : layer.kind = .differentiation) (levelled : Layer.Levelled (layer :: below))
    (fits : tensor.Fits machine.heap (layer :: below))
    : (unwrapAt tensor layer.level).Leaves machine
        (fun result values memory =>
          values = machine.values
          ∧ machine.heap.Grows memory.heap
          ∧ Tensor.StandsFor below machine.heap tensor memory.heap result
          ∧ tensor.Untagged layer.level result)
        failed := by
  have total
      : (unwrapAt tensor layer.level).Leaves machine
          (fun result values memory =>
            values = machine.values
            ∧ machine.heap.Grows memory.heap
            ∧ Tensor.StandsFor below machine.heap tensor memory.heap result)
          (fun _ _ => False) :=
    Meets.unwrapAt kind levelled fits
  apply (total.mono (fun _ _ _ => id) fun _ _ => False.elim).strengthen
  intro result reached ended left
  rcases left with ⟨same, grown, stands⟩
  exact ⟨same, grown, stands, unwrapAt_ok ended⟩

/-- In front of a layer the call is refused if the layer has not tagged the target. If it has, the
missing tag is one of a layer below, and the call goes on into the body, where it is missing still.
-/
theorem refuses_enter (h : calls.Refusing budget)
    (captures : machine.Captures op (layer :: below) outer arguments)
    (above : machine.Above layer below)
    (front : machine.thread.overlay.forces .entryInterceptor)
    (steps : machine.ambient.steps ≤ budget + 1)
    : (entryInterceptor.run calls op).Refuses op machine := by
  have kind : layer.kind = .differentiation :=
    captures.differentiating layer (above.top ▸ List.mem_cons_self)
  have missing := captures.missing
  rw [above.ahead_front front] at missing
  refine .enter above.top ?_
  intro logged resumes atLogged
  have values : logged.values = outer ++ arguments := atLogged.values.trans captures.values
  have enough : op.arity ≤ logged.values.length := by
    rw [atLogged.values]
    exact captures.enough
  have heap : logged.heap = machine.heap := atLogged.heap
  have checks := @refuseCapturedMutation_apply layer logged op kind captures.inPlace enough
  rw [heap, Machine.lastValues_append values captures.size] at checks
  by_cases tagged : Value.targetLevel? machine.heap arguments = some layer.level
  · rw [if_neg (not_not.mpr tagged)] at checks
    refine (still_noting.refuseCapturedMutation op layer).quiet.leaves_step checks ?_
    rw [← captures.size]
    have persists :=
      Memory.persists_fits (layer :: below) (Tensor.TaggedAt machine.heap layer.level)
    refine (Leaves.mapLast persists values ?_).bind ?_
    · intro tensor member start later _ grows
      rw [show logged.memory.heap = machine.heap from heap] at grows
      have registered := captures.registered.resumes (resumes.trans later)
      have active : layer ∈ start.thread.layers := by
        rw [later.layers, resumes.layers, above.top]
        exact List.mem_cons_self
      have fits := ((captures.fits tensor member).grows grows).fits
      apply (leaves_receive_fits registered active above.grounded.levelled fits).mono
      · intro result _ _ left
        rcases left with ⟨same, grown, stands, received⟩
        exact ⟨same, grown, stands.fits, received.taggedAt.congr grows.flags⟩
      · exact fun _ _ => id
    · intro _ received _ later left
      rcases left with ⟨inner, values, grows, related⟩
      rcases related.fits with ⟨fits, related⟩
      refine (quiet_read _).leaves_step rfl ?_
      refine .holding (moves_replaceOverlay _ received) ?_
      intro held atHeld
      have returned : machine.Resumes received := resumes.trans later
      have above' : received.Above layer below := ⟨returned.layers.trans above.top, above.grounded⟩
      have same : held.heap = received.heap := atHeld.heap
      have entered : held.ambient = received.ambient.enter layer.kind := atHeld.ambient
      have top : received.ambient.layers = layer :: below := above'.top
      have ahead : held.ambient.ahead = below := by rw [entered, Ambient.ahead_enter top]
      have nearer : held.ambient.steps ≤ budget := by
        have less := Ambient.steps_enter top (front.resumes returned)
        rw [Ambient.steps_resumes returned, ← entered] at less
        exact Nat.le_of_lt_succ (Nat.lt_of_lt_of_le less steps)
      refine h (captures.onward (above'.enter captures.member entered) ?_ ?_
        (atHeld.values.trans values) related.length_eq ?_ ?_) nearer
      · have layers : held.ambient.layers = machine.ambient.layers := by
          rw [entered]
          exact returned.layers
        rw [layers]
        exact fun _ => id
      · exact (captures.registered.resumes returned).shifted atHeld fun _ => id
      · rwa [same]
      · rw [ahead]
        intro target
        have own := Layer.target_of_targetLevel? tagged
        refine missing (own.received above.grounded.levelled target ?_ related)
        rw [same, returned.flags]
  · rw [if_pos tagged] at checks
    refine Leaves.refused (Leaves.congr checks ?_)
    exact (quiet_log _).leaves_step rfl (leaves_fail rfl)

/-- In the body of a layer the call is handed on with the same arguments, so the tag stays missing.
-/
theorem refuses_differentiate (h : calls.Refusing budget)
    (captures : machine.Captures op (layer :: below) outer arguments)
    (within : machine.InBody layer below)
    (shown : machine.thread.overlay.excluded.contains .differentiation = false)
    (steps : machine.ambient.steps ≤ budget + 1)
    : (differentiationBody.run calls op).Refuses op machine := by
  have kind : layer.kind = .differentiation :=
    captures.differentiating layer (within.top ▸ List.mem_cons_self)
  refine quiet_writing.currentLayer.leaves_step (currentLayer_apply within.top) ?_
  refine (quiet_read _).leaves_step rfl (Leaves.refused ?_)
  refine .holding (moves_hide _ machine) ?_
  intro held atHeld
  have nearer : held.ambient.steps ≤ budget := by
    have less := @Ambient.steps_hide machine.ambient layer below
      TransformKind.differentiation.owned within.top within.inBody.entry (by rwa [kind])
      (by rw [kind]; rfl)
    rw [← atHeld.ambient] at less
    exact Nat.le_of_lt_succ (Nat.lt_of_lt_of_le less steps)
  refine h (captures.onward (within.hideDifferentiation kind captures.member atHeld.ambient) ?_
    (captures.registered.shifted atHeld fun _ => id) (atHeld.values.trans captures.values) rfl ?_
    ?_) nearer
  · rw [atHeld.ambient]
    exact fun _ => id
  · rw [show held.heap = machine.heap from atHeld.heap]
    exact captures.fits
  · have missing := captures.missing
    rw [within.ahead] at missing
    rwa [atHeld.ambient, within.ahead_hide, show held.heap = machine.heap from atHeld.heap]

/-- On the way out of a layer the copy of the target has lost the tag of the layer only, so the tag
of a layer below that was missing is missing on the copy.
-/
theorem refuses_leave (h : calls.Refusing budget)
    (captures : machine.Captures op (layer :: below) outer arguments)
    (within : machine.InBody layer below) (steps : machine.ambient.steps ≤ budget + 1)
    : (exitInterceptor.run calls op).Refuses op machine := by
  have kind : layer.kind = .differentiation :=
    captures.differentiating layer (within.top ▸ List.mem_cons_self)
  have missing := captures.missing
  rw [within.ahead] at missing
  refine quiet_writing.currentLayer.leaves_step (currentLayer_apply within.top) ?_
  simp only [kind]
  refine (Leaves.copyUntagged (Memory.persists_fits below (Tensor.Untagged layer.level))
    captures.values captures.size ?_).bind ?_
  · intro tensor member start _ grows
    have fits := ((captures.fits tensor member).grows grows).fits
    apply (Run.leaves_unwrapAt_fits kind within.grounded.levelled fits).mono
    · intro result _ _ left
      rcases left with ⟨same, grown, stands, untagged⟩
      exact ⟨same, grown, stands.fits, untagged⟩
    · exact fun _ _ => id
  intro _ copied _ resumes left
  rcases left with ⟨inner, values, grows, related⟩
  rcases related.fits with ⟨fits, related⟩
  have above : copied.Above layer below := ⟨resumes.layers.trans within.top, within.grounded⟩
  have captured : ¬Layer.Target below copied.heap inner :=
    fun target => missing (target.untagged related resumes.flags)
  refine Leaves.refused (.below above.top within.grounded.levelled.1 ?_ ?_)
  · -- A target can lack a tag only if there are layers below.
    intro start layers _ _
    refine (quiet_read _).leaves_step rfl ?_
    cases below with
    | nil => exact absurd Layer.target_nil captured
    | cons next rest =>
        rw [if_neg (by simp [layers])]
        exact (quiet_read _).leaves_step rfl (leaves_pure trivial)
  · intro held atHeld
    have same : held.heap = copied.heap := atHeld.heap
    have nearer : held.ambient.steps ≤ budget := by
      have less := @Ambient.steps_leave copied.ambient layer below above.top
      rw [Ambient.steps_resumes resumes, ← atHeld.ambient] at less
      exact Nat.le_of_lt_succ (Nat.lt_of_lt_of_le less steps)
    have subset : ∀ lower ∈ held.ambient.layers, lower ∈ machine.ambient.layers := by
      rw [atHeld.ambient, show machine.ambient.layers = layer :: below from within.top]
      exact fun _ => List.mem_cons_of_mem layer
    refine h (captures.onward (above.leave captures.member atHeld.ambient) subset ?_
      (atHeld.values.trans values) related.length_eq ?_ ?_) nearer
    · refine (captures.registered.resumes resumes).shifted atHeld ?_
      rw [above.top]
      exact fun _ => List.mem_cons_of_mem layer
    · rwa [same]
    · rwa [atHeld.ambient, Ambient.ahead_leave, same]

/-- A trace node changes nothing of that. -/
theorem Machine.Captures.inSpan (h : machine.Captures op owners outer arguments)
    (capability : Capability)
    : (machine.inSpan op.name capability).Captures op owners outer arguments :=
  ⟨h.member, h.inPlace, h.owning, h.registered, h.differentiating, h.values, h.size, h.fits,
    h.missing⟩

/-- Wherever a call on a target without a tag is, a kernel is selected that goes on to refuse it. It
cannot be below all layers, since no layer is ahead there that could miss its tag.
-/
theorem refuses_selected (h : (nested budget).Refusing budget)
    (captures : machine.Captures op owners outer arguments)
    (steps : machine.ambient.steps ≤ budget + 1)
    : ∃ capability kernel,
        standard.select op
            (machine.thread.overlay.apply
              (Value.carried machine.heap (machine.lastValues op.arity)))
          = some (capability, kernel)
        ∧ (Run.traced op.name capability (kernel.run (nested budget) op)).Refuses op machine := by
  have owning := captures.owning
  generalize ambient : machine.ambient = present at owning
  cases owning with
  | base layers overlay =>
      subst ambient
      have missing := captures.missing
      rw [Ambient.ahead_base layers] at missing
      exact absurd Layer.target_nil missing
  | front active grounded front =>
      subst ambient
      have front : machine.thread.overlay.forces .entryInterceptor := front
      refine ⟨_, _, select_front _ front, .traced ?_⟩
      cases top : machine.ambient.layers with
      | nil => exact absurd top active
      | cons layer below =>
          rw [top] at grounded captures
          exact refuses_enter h (captures.inSpan _) ⟨top, grounded⟩ front steps
  | body top grounded inBody shown =>
      rename_i layer below
      subst ambient
      have within : machine.InBody layer below := ⟨⟨top, grounded⟩, inBody⟩
      have inBody : machine.thread.overlay.InBody layer.kind := inBody
      have kind : layer.kind = .differentiation :=
        captures.differentiating layer (within.top ▸ List.mem_cons_self)
      rw [kind] at inBody
      rw [select_differentiation _ inBody]
      split
      · rename_i reachable
        have shown := (Bool.and_eq_true_iff.mp reachable).2
        rw [Bool.not_eq_true'] at shown
        refine ⟨_, _, rfl, .traced ?_⟩
        exact refuses_differentiate h (captures.inSpan _) ⟨⟨top, grounded⟩, within.inBody⟩ shown
          steps
      · refine ⟨_, _, rfl, .traced ?_⟩
        exact refuses_leave h (captures.inSpan _) ⟨⟨top, grounded⟩, within.inBody⟩ steps
  | leaving top grounded kind inBody hidden =>
      rename_i layer
      subst ambient
      have top : machine.thread.layers = layer :: owners := top
      have differentiates := captures.differentiating layer (top ▸ List.mem_cons_self)
      rw [kind] at differentiates
      cases differentiates

/-- Calls on a target without a tag are refused, however deep they nest. Each step to the base takes
from the room to nest and from the number of steps that are left.
-/
theorem refusing_nested (budget : Nat) : (nested budget).Refusing budget := by
  induction budget with
  | zero =>
      intro op machine owners outer arguments _ steps
      exact absurd machine.ambient.steps_pos (Nat.not_lt_of_le steps)
  | succ budget ih =>
      intro op machine owners outer arguments captures steps
      refine Leaves.congr (Contract.dispatchWithin_apply captures.enough budget) ?_
      rcases refuses_selected ih captures steps with ⟨capability, kernel, selected, refuses⟩
      rw [selected]
      exact refuses

-----------------------------------------------------------------------------------------
-- Captured values
-----------------------------------------------------------------------------------------

/-- A call starts in front of all active layers. -/
theorem Machine.Founded.ahead (founded : machine.Founded)
    : machine.ambient.ahead = machine.thread.layers := by
  have overlay := founded.overlay
  cases layers : machine.thread.layers with
  | nil => exact Ambient.ahead_base layers
  | cons layer below =>
      rw [layers, List.isEmpty_cons, Bool.not_false] at overlay
      have front : machine.ambient.overlay.forces .entryInterceptor := by
        simp only [Machine.ambient, overlay]
        exact ⟨rfl, rfl⟩
      exact (Ambient.ahead_front front).trans layers

/-- The operators of these two names are in place and have two arguments. -/
theorem Schema.isInPlace_of_named (member : op ∈ Base.schemas)
    (named : op.name = "add_" ∨ op.name = "resize_")
    : op.isInPlace = true ∧ op.arity = 2 := by
  simp only [Base.schemas, List.mem_cons, List.not_mem_nil, or_false] at member
  rcases member with rfl | rfl | rfl | rfl | rfl | rfl | rfl | rfl | rfl | rfl
  all_goals first | exact ⟨rfl, rfl⟩ | simp [Base.binarySchema, Base.unarySchema,
    Base.factorySchema] at named

/-- An in-place call that gives a value has found a target with the tags of all layers. -/
theorem Dispatcher.call_targeted {name : String} (built : machine.Built)
    (inPlace : name = "add_" ∨ name = "resize_") (arguments : List Value)
    : (standard.call name arguments).Leaves machine
        (fun _ _ _ => Layer.Target machine.thread.layers machine.heap arguments)
        (fun _ _ => True) := by
  refine leaves_standard built (fun _ _ => trivial) ?_
  intro op named count calling
  rw [← named] at inPlace
  have called := Contract.captures_kept.holds (standard.budget machine.thread.layers.length)
    calling (Schema.isInPlace_of_named calling.member inPlace).1
  rwa [Machine.lastValues_append (List.nil_append _).symm count,
    show Machine.ambient { machine with values := arguments } = machine.ambient from rfl,
    built.founded.ahead] at called

/-- Under differentiation layers alone an in-place call on a target without a tag is refused. The
room to nest that calls by name have is enough for all the steps to the base.
-/
theorem Dispatcher.call_refused {name : String} (built : machine.Built)
    (inPlace : name = "add_" ∨ name = "resize_")
    (differentiating : ∀ layer ∈ machine.thread.layers, layer.kind = .differentiation)
    (pair : arguments.length = 2)
    (fits : ∀ tensor ∈ Value.tensorsAll arguments, tensor.Fits machine.heap machine.thread.layers)
    (missing : ¬Layer.Target machine.thread.layers machine.heap arguments)
    : (standard.call name arguments).Leaves machine (fun _ _ _ => False)
        (fun exit _ => exit = .error (.capturedMutation name)) := by
  have founded := built.founded
  refine leaves_standard built (fun error wrong => ?_) ?_
  · rcases inPlace with rfl | rfl
    · exact absurd pair (wrong Base.schemas[8] rfl)
    · exact absurd pair (wrong Base.schemas[9] rfl)
  · intro op named count calling
    subst named
    have steps := Nat.le_trans machine.ambient.steps_le (standard.steps_le_budget _)
    refine refusing_nested _ ⟨calling.member, ?_, calling.owning, founded.registered,
      differentiating, (List.nil_append _).symm, count, fits, ?_⟩ steps
    · exact (Schema.isInPlace_of_named calling.member inPlace).1
    · rwa [← founded.ahead] at missing

/-- In-place calls write no captured value. One that gives a value was given a target with a live tag
of every differentiation layer. Under differentiation layers alone, one whose target lacks the tag of
some layer is refused as such, and nothing that was there has changed: no storage, no shape that a
tag remembers, no record of which operator produced a value, and no registered level.
-/
theorem Dispatcher.call_captured {name : String} (built : machine.Built)
    (inPlace : name = "add_" ∨ name = "resize_") (arguments : List Value)
    : (∀ results reached,
        standard.call name arguments machine = .ok results reached
        → ∀ layer ∈ machine.thread.layers,
            layer.kind = .differentiation
            → ∃ target,
                arguments.head? = some (.tensor target)
                ∧ (.differentiation, layer.level) ∈ target.liveWrappers machine.heap)
      ∧ ((∀ layer ∈ machine.thread.layers, layer.kind = .differentiation)
        → arguments.length = 2
        → (∀ tensor ∈ Value.tensorsAll arguments,
            tensor.WellFormed machine.heap machine.thread.layers)
        → (∃ layer ∈ machine.thread.layers,
            ∀ target,
              arguments.head? = some (.tensor target)
              → (.differentiation, layer.level) ∉ target.liveWrappers machine.heap)
        → ∃ reached,
            standard.call name arguments machine
            = .error (.error (.capturedMutation name)) reached
            ∧ machine.memory.Spares reached.memory
            ∧ machine.heap.Steady reached.heap
            ∧ reached.registry = machine.registry) := by
  have founded := built.founded
  constructor
  · intro results reached ended
    exact (Ends.of_ok (call_targeted built inPlace arguments) ended).2
  · intro differentiating pair wellFormed lacking
    have fits : ∀ tensor ∈ Value.tensorsAll arguments,
        tensor.Fits machine.heap machine.thread.layers :=
      fun tensor member =>
        (Tensor.wellFormed_iff_fits founded.levelled).mp (wellFormed tensor member)
    have suits := fun tensor member => (wellFormed tensor member).suits
    have missing : ¬Layer.Target machine.thread.layers machine.heap arguments := by
      intro target
      rcases lacking with ⟨layer, member, lacks⟩
      rcases target layer member (differentiating layer member) with ⟨tensor, first, tagged⟩
      exact lacks tensor first tagged
    have refused := call_refused built inPlace differentiating pair fits missing
    have leaves := @leaves_call arguments machine (Census.among machine.heap arguments) name built
      (Census.sound_of_suits suits) (Census.known_among machine.heap arguments)
    cases ended : standard.call name arguments machine with
    | ok results reached => exact (Ends.of_ok refused ended).2.elim
    | error exit reached =>
        obtain ⟨-, resumes, rfl⟩ := Ends.of_error refused ended
        obtain ⟨-, -, op, -, undone⟩ := Ends.of_error leaves ended
        have keeps := undone.keeps _ rfl
        have steady : machine.memory.heap.Steady reached.memory.heap := keeps.steady suits
        exact ⟨reached, rfl, keeps.toSpares, steady, resumes.registry⟩

/-- Witness: under two differentiation layers a value that both have tagged is written; one that only
the lower layer has tagged is not.
-/
theorem Dispatcher.call_captured_two_layers
    : ∃ (machine written refused : Machine) (results : List Value),
        machine.Built
        ∧ standard.call "add_"
            [.tensor (.tagged 1 2 1 (.tagged 0 1 0 (.dense 0))), .tensor (.dense 1)] machine
          = .ok results written
        ∧ (.differentiation, 1)
          ∈ Tensor.liveWrappers machine.heap (.tagged 1 2 1 (.tagged 0 1 0 (.dense 0)))
        ∧ standard.call "add_" [.tensor (.tagged 0 1 0 (.dense 0)), .tensor (.dense 1)] machine
          = .error (.error (.capturedMutation "add_")) refused
        ∧ refused.heap.storage 0 = machine.heap.storage 0 := by
  let fresh : Machine :=
    { heap :=
        { storages := #[⟨⟨[2]⟩, #[1, 2]⟩, ⟨⟨[2]⟩, #[10, 20]⟩]
          wrappers := #[{ shape := ⟨[2]⟩ }, { shape := ⟨[2]⟩ }] } }
  have opened := Machine.Built.opened
    (.opened (@Machine.Built.fresh fresh rfl rfl)
      (rfl : openLayer (.differentiation (some false) none) fresh = .ok 1 _))
    (rfl : openLayer (.differentiation (some true) none) _ = .ok 2 _)
  obtain ⟨machine, built, succeeds, lower, differentiating, wellFormed, lacking, stored⟩
      : ∃ machine : Machine,
          machine.Built
          ∧ (standard.call "add_"
              [.tensor (.tagged 1 2 1 (.tagged 0 1 0 (.dense 0))), .tensor (.dense 1)]).succeeds
              machine = true
          ∧ (∃ layer ∈ machine.thread.layers, layer.kind = .differentiation ∧ layer.level = 1)
          ∧ (∀ layer ∈ machine.thread.layers, layer.kind = .differentiation)
          ∧ (∀ tensor ∈ Value.tensorsAll [.tensor (.tagged 0 1 0 (.dense 0)), .tensor (.dense 1)],
              tensor.WellFormed machine.heap machine.thread.layers)
          ∧ (∃ layer ∈ machine.thread.layers,
              ∀ target,
                List.head? [.tensor (.tagged 0 1 0 (.dense 0)), .tensor (.dense 1)]
                  = some (Value.tensor target)
                → (.differentiation, layer.level) ∉ target.liveWrappers machine.heap)
          ∧ 0 < machine.heap.storages.size := by
    refine ⟨_, opened, by decide +kernel, ?_, ?_, ?_, ?_, by decide⟩
    · exact ⟨_, List.mem_cons_of_mem _ List.mem_cons_self, rfl, rfl⟩
    · exact List.forall_mem_cons.mpr ⟨rfl, List.forall_mem_singleton.mpr rfl⟩
    · refine List.forall_mem_cons.mpr ⟨⟨by decide, ?_⟩, List.forall_mem_singleton.mpr ⟨by decide, ?_⟩⟩
      · exact ⟨⟨_, List.mem_cons_of_mem _ List.mem_cons_self, rfl, rfl⟩, rfl, by decide, rfl,
          by decide, rfl⟩
      · exact ⟨by decide, rfl⟩
    · refine ⟨_, List.mem_cons_self, fun target first => ?_⟩
      cases first
      decide
  obtain ⟨results, written, ended⟩ := succeeds_iff.mp succeeds
  obtain ⟨layer, member, kind, level⟩ := lower
  obtain ⟨target, first, tagged⟩ :=
    (call_captured built (Or.inl rfl) _).1 results written ended layer member kind
  cases first
  rw [level] at tagged
  obtain ⟨refused, error, spares, -, -⟩ :=
    (call_captured built (Or.inl rfl) _).2 differentiating rfl wellFormed lacking
  exact ⟨machine, written, refused, results, built, ended, tagged, error,
    (spares.storages 0 stored).2⟩

end

end LayeredDispatch
