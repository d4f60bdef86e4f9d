import LayeredDispatch.Proofs.Twins.Replacing
import LayeredDispatch.Proofs.Wrappers.Captures

/-! Two runs on their way through the layers. The interceptors hand related arguments on in both runs,
and in the body of a layer the arguments of both have the same outermost wrappers. Main statements:
what holds of the inner calls side by side, holds of the kernels around layers.
-/

namespace LayeredDispatch

open Run Dispatcher

/-- How many calls nest at most until a call reaches the base and has dead tags taken off there: four
a layer, counting the hooks in its body that a call can still come to.
-/
def Ambient.reach (ambient : Ambient) : Nat :=
  match ambient.layers with
  | [] => 2
  | layer :: below =>
      4 * below.length
        + if ambient.overlay.excluded.contains .entryInterceptor = false then 6
          else
            3 + (if ambient.overlay.excluded.contains layer.kind.hook = false then 1 else 0)
              + if ambient.overlay.excluded.contains .batchMode = false then 1 else 0

/-- States of two runs in which operators are called on related arguments, with few enough calls to
the base. In the body of a layer the outermost wrappers are the same. Below all layers the arguments
are dense but for dead tags, unless the calls are exempt from this.
-/
structure Pairing.Posed (pairing : Pairing) (exempt : Prop) (budget : Nat) (op op' : Schema)
    (owners : List Layer) (machine twin : Machine) (outer outer' arguments arguments' : List Value)
    : Prop where
  calling : machine.Calling op owners
  calling' : twin.Calling op' owners
  twins : pairing.Twins machine twin
  values : machine.values = outer ++ arguments
  values' : twin.values = outer' ++ arguments'
  size : arguments.length = op.arity
  size' : arguments'.length = op'.arity
  matched : Value.RelatedAll pairing.Matched arguments arguments'
  faced
    : machine.thread.overlay.excluded.contains .entryInterceptor = true
      → owners = machine.thread.layers
      → Value.RelatedAll pairing.Faces arguments arguments'
  steps : machine.ambient.reach ≤ budget
  unchecked : machine.settings.checkUnwrapped = false → exempt
  based
    : machine.thread.layers = []
      → exempt
        ∨ ∀ tensor ∈ Value.tensorsAll arguments,
            (tensor.unwrapDead machine.heap).isDense = true

section

variable {pairing : Pairing} {strict exempt : Prop} {machine twin held held' : Machine}
  {failed : Exit → Exit → Prop} {op op' : Schema} {layer : Layer} {below owners : List Layer}
  {outer outer' items items' arguments arguments' : List Value} {budget : Nat}
  {ok : Unit → List Value → Memory → Unit → List Value → Memory → Prop}

-----------------------------------------------------------------------------------------
-- Steps to the base
-----------------------------------------------------------------------------------------

namespace Ambient

variable {ambient : Ambient}

/-- Four calls a layer are enough, and two more at the base. -/
theorem reach_le (ambient : Ambient) : ambient.reach ≤ 4 * ambient.layers.length + 2 := by
  unfold reach
  split
  · omega
  · rename_i layers
    rw [layers, List.length_cons]
    split
    · omega
    · split <;> split <;> omega

/-- The allowance of any dispatcher is enough. -/
theorem reach_le_budget (ambient : Ambient) (dispatcher : Dispatcher)
    : ambient.reach ≤ dispatcher.budget ambient.layers.length := by
  have each : 40 ≤ 40 * (dispatcher.operators.length + 1) :=
    Nat.le_mul_of_pos_right 40 (Nat.succ_pos _)
  calc ambient.reach ≤ 4 * ambient.layers.length + 2 := ambient.reach_le
    _ ≤ (ambient.layers.length + 2) * 40 := by omega
    _ ≤ dispatcher.budget ambient.layers.length := Nat.mul_le_mul_left _ each

theorem two_le_reach (ambient : Ambient) : 2 ≤ ambient.reach := by
  unfold reach
  split
  · exact Nat.le_refl 2
  · split <;> omega

/-- Leaving a layer brings a call nearer to the base. -/
theorem reach_leave (top : ambient.layers = layer :: below)
    : (ambient.leave layer below).reach < ambient.reach := by
  have above : 4 * below.length + 3 ≤ ambient.reach := by
    simp only [reach, top]
    split <;> omega
  refine Nat.lt_of_lt_of_le ?_ above
  cases below with
  | nil => simp [reach, leave]
  | cons next rest =>
      have shown
          : (ambient.leave layer (next :: rest)).overlay.excluded.contains .entryInterceptor
            = false := by
        simp [leave, Overlay.front, Overlay.enable]
      have layers : (ambient.leave layer (next :: rest)).layers = next :: rest := rfl
      simp only [reach, layers, shown, if_true, List.length_cons]
      omega

/-- So does entering one. -/
theorem reach_enter (top : ambient.layers = layer :: below)
    (front : ambient.overlay.forces .entryInterceptor)
    : (ambient.enter layer.kind).reach < ambient.reach := by
  have entered := (layer.kind.entryOverlay_inBody ambient.overlay).entry
  have layers : (ambient.enter layer.kind).layers = layer :: below := top
  have hidden
      : (ambient.enter layer.kind).overlay.excluded.contains .entryInterceptor = true :=
    entered
  simp only [reach, layers, top, hidden, front.2, if_true, Bool.true_eq_false, if_false]
  split <;> split <;> omega

/-- Hiding a hook that a call could come to takes it nearer to the base. The other hooks of the body
stay as they are.
-/
theorem reach_hide {set : CapabilitySet} {hook : Capability} (top : ambient.layers = layer :: below)
    (entry : ambient.overlay.excluded.contains .entryInterceptor = true)
    (among : hook = layer.kind.hook ∨ hook = .batchMode)
    (shown : ambient.overlay.excluded.contains hook = false) (hides : set.contains hook = true)
    : (ambient.hide set).reach < ambient.reach := by
  have excluded (capability : Capability)
      : (ambient.hide set).overlay.excluded.contains capability
        = (ambient.overlay.excluded.contains capability || set.contains capability) :=
    CapabilitySet.contains_union _ _ _
  have layers : (ambient.hide set).layers = layer :: below := top
  have fewer (capability : Capability)
      : (if ambient.overlay.excluded.contains capability = false
            ∧ set.contains capability = false then 1 else 0)
        ≤ if ambient.overlay.excluded.contains capability = false then 1 else 0 := by
    split
    · rename_i both
      exact Nat.le_of_eq (if_pos both.1).symm
    · exact Nat.zero_le _
  have hook := fewer layer.kind.hook
  have batchMode := fewer .batchMode
  simp only [reach, layers, top, excluded, entry, Bool.true_or, Bool.true_eq_false, if_false,
    Bool.or_eq_false_iff]
  rcases among with rfl | rfl
  · simp only [shown, hides, Bool.true_eq_false, and_false, if_true, if_false]
    omega
  · simp only [shown, hides, Bool.true_eq_false, and_false, if_true, if_false]
    omega

theorem reach_intercepting (ambient : Ambient) : ambient.intercepting.reach = ambient.reach := rfl

theorem reach_resumes {machine reached : Machine} (resumes : machine.Resumes reached)
    : reached.ambient.reach = machine.ambient.reach := by
  rcases resumes.ambient with same | ⟨_, included⟩
  · rw [same]
  · rw [included, reach_intercepting]

end Ambient

-----------------------------------------------------------------------------------------
-- States of the two runs
-----------------------------------------------------------------------------------------

theorem Machine.Above.other (above : machine.Above layer below) (twins : pairing.Twins machine twin)
    : twin.Above layer below :=
  ⟨twins.layers.trans above.top, above.grounded⟩

/-- A call behind the entry interceptor of a layer is in the body of the layer. -/
theorem Ambient.Owners.inBody {ambient : Ambient} (h : ambient.Owners owners)
    (top : ambient.layers = layer :: below)
    (entry : ambient.overlay.excluded.contains .entryInterceptor = true)
    : ambient.overlay.InBody layer.kind := by
  cases h with
  | base layers overlay =>
      rw [layers] at top
      cases top
  | front active grounded front =>
      rw [front.2] at entry
      cases entry
  | body own grounded inBody shown =>
      rw [own] at top
      cases top
      exact inBody
  | leaving own grounded kind inBody hidden =>
      rw [own] at top
      cases top
      rwa [kind]

/-- The second run is in the body of the same layer. -/
theorem Machine.InBody.other (within : machine.InBody layer below)
    (calling' : twin.Calling op' owners) (twins : pairing.Twins machine twin)
    : twin.InBody layer below := by
  have above := within.toAbove.other twins
  refine { above with inBody := calling'.owning.inBody above.top ?_ }
  change twin.thread.overlay.excluded.contains .entryInterceptor = true
  rw [twins.excluded]
  exact within.inBody.entry

/-- Trace nodes are of no account. -/
theorem Pairing.Posed.inSpan {name name' : String} {capability capability' : Capability}
    (h
      : pairing.Posed exempt budget op op' owners machine twin outer outer' arguments arguments')
    : pairing.Posed exempt budget op op' owners (machine.inSpan name capability)
        (twin.inSpan name' capability') outer outer' arguments arguments' where
  calling := ⟨h.calling.member, h.calling.owning, h.calling.drawn⟩
  calling' := ⟨h.calling'.member, h.calling'.owning, h.calling'.drawn⟩
  twins := ⟨h.twins.ambient, h.twins.registry, h.twins.settings, h.twins.memory⟩
  values := h.values
  values' := h.values'
  size := h.size
  size' := h.size'
  matched := h.matched
  faced := h.faced
  steps := h.steps
  unchecked := h.unchecked
  based := h.based

/-- Arguments that are dense but for dead tags are so in both runs, since only dead tags make a
difference.
-/
theorem Pairing.dense_iff (matched : Value.RelatedAll pairing.Matched arguments arguments')
    {heap other : Heap} (alike : pairing.Alike heap other)
    : (∀ tensor ∈ Value.tensorsAll arguments', (tensor.unwrapDead other).isDense = true)
      ↔ ∀ tensor ∈ Value.tensorsAll arguments, (tensor.unwrapDead heap).isDense = true := by
  constructor
  · intro dense
    refine matched.forall_left dense fun tensor bare matched dense => ?_
    rwa [(matched.unwrapDead alike).isDense_eq] at dense
  · intro dense
    refine matched.forall_right dense fun tensor bare matched dense => ?_
    rwa [(matched.unwrapDead alike).isDense_eq]

-----------------------------------------------------------------------------------------
-- In front of a layer
-----------------------------------------------------------------------------------------

theorem Value.tensor?_plain {value : Value} (plain : value.tensors = []) : value.tensor? = none := by
  cases value with
  | tensor handle => cases plain
  | list items => rfl
  | absent | bool _ | int _ | float _ | ints _ => rfl

/-- The targets of in-place calls are tagged alike, once dead tags are taken off. -/
theorem Pairing.targetLevel?_eq (matched : Value.RelatedAll pairing.Matched arguments arguments')
    {heap other : Heap} (alike : pairing.Alike heap other)
    : Value.targetLevel? other arguments' = Value.targetLevel? heap arguments := by
  cases matched with
  | nil => rfl
  | cons head tail =>
      cases head with
      | tensor matched => exact (matched.unwrapDead alike).taggedLevel?_eq
      | list related => rfl
      | plain plain =>
          simp only [Value.targetLevel?, List.head?_cons, Option.bind_some, Value.tensor?_plain plain,
            Option.map_none, Option.bind_none]

/-- Both runs may write a target, or neither. Another operator, which is asked for only where the first
one gives a value, may do so if it is not in place.
-/
theorem beside_refuseCapturedMutation
    (same : op' = op ∨ ¬strict ∧ op'.isInPlace = false)
    (values : machine.values = outer ++ arguments) (values' : twin.values = outer' ++ arguments')
    (size : arguments.length = op.arity) (size' : arguments'.length = op'.arity)
    (matched : Value.RelatedAll pairing.Matched arguments arguments')
    (twins : pairing.Twins machine twin)
    (alike : ∀ exit exit', exit.Alike exit' → failed exit exit')
    : Beside strict (refuseCapturedMutation op layer) (refuseCapturedMutation op' layer) machine twin
        (fun _ values memory _ values' memory' =>
          values = machine.values ∧ values' = twin.values ∧ pairing.Agrees memory memory')
        failed := by
  have unchecked {start : Machine} {called : Schema}
      (free : ¬(layer.kind = .differentiation ∧ called.isInPlace = true))
      : refuseCapturedMutation called layer start = .ok () start := by
    rw [refuseCapturedMutation, if_neg free]
    rfl
  rcases same with rfl | ⟨lenient, free⟩
  · by_cases checked : layer.kind = .differentiation ∧ op'.isInPlace = true
    · have decided {start : Machine} {before given : List Value}
          (values : start.values = before ++ given) (size : given.length = op'.arity)
          : refuseCapturedMutation op' layer start
            = (if Value.targetLevel? start.heap given ≠ some layer.level then
                do
                  log (.rejectedMutation op'.name layer.level)
                  fail (.capturedMutation op'.name)
              else pure ()) start := by
        rw [refuseCapturedMutation_apply checked.1 checked.2 (size ▸ length_le_append values),
          Machine.lastValues_append values size]
      refine .congr (decided values size) (decided values' size') ?_
      rw [pairing.targetLevel?_eq matched twins.alike]
      split
      · have noted {start : Machine} (event : Event)
            : start.Returns
                { start with thread := { start.thread with log := start.thread.log ++ [event] } } :=
          .of_eq rfl rfl rfl rfl rfl
        refine .step_left (noted _) rfl (.step_right (noted _) rfl ?_)
        exact beside_fail (alike _ _ (.same _))
      · exact beside_pure ⟨rfl, rfl, twins.memory⟩
    · exact .of_values (unchecked checked) (unchecked checked) (.refl machine) (.refl twin)
        ⟨rfl, rfl, twins.memory⟩
  · refine .of_lenient lenient fun _ reached passed => ?_
    obtain rfl := refuseCapturedMutation_ok passed
    have unchecked' := @unchecked twin op' fun checked => by
      rw [checked.2] at free
      cases free
    exact ⟨(), twin, unchecked', .refl _, .refl _, rfl, rfl, twins.memory⟩

/-- In the bodies of the top layer the calls are nearer to the base, and the outermost wrappers of
their arguments are the same.
-/
theorem Pairing.Posed.entered {received received' : Machine}
    (posed
      : pairing.Posed exempt (budget + 1) op op' (layer :: below) machine twin outer outer' arguments
          arguments')
    (above : machine.Above layer below) (front : machine.thread.overlay.forces .entryInterceptor)
    (arrives : machine.Returns received) (twins : pairing.Twins received received')
    (values : received.values = outer ++ given) (values' : received'.values = outer' ++ given')
    (count : given.length = arguments.length) (count' : given'.length = arguments'.length)
    (faces : Value.RelatedAll pairing.Faces given given')
    (atHeld : received.Shifted (received.ambient.enter layer.kind) held)
    (atHeld' : received'.Shifted (received'.ambient.enter layer.kind) held')
    : pairing.Posed exempt budget op op' (layer :: below) held held' outer outer' given given' := by
  have above : received.Above layer below := ⟨arrives.layers.trans above.top, above.grounded⟩
  have top : received.ambient.layers = layer :: below := above.top
  have entered : held.ambient = received.ambient.enter layer.kind := atHeld.ambient
  exact {
    calling := above.enter posed.calling.member entered
    calling' := (above.other twins).enter posed.calling'.member atHeld'.ambient
    twins := twins.enter atHeld atHeld'
    values := atHeld.values.trans values
    values' := atHeld'.values.trans values'
    size := count.trans posed.size
    size' := count'.trans posed.size'
    matched := faces.mono fun _ _ => Pairing.Faces.toMatched
    faced := fun _ _ => faces
    steps := by
      have less := Ambient.reach_enter top (front.resumes arrives.toResumes)
      rw [← entered, Ambient.reach_resumes arrives.toResumes] at less
      exact Nat.le_of_lt_succ (Nat.lt_of_lt_of_le less posed.steps)
    unchecked := fun off => posed.unchecked (by rw [← off, atHeld.settings, arrives.settings])
    based := fun inactive => by
      have active : held.ambient.layers = layer :: below := entered ▸ top
      rw [show held.ambient.layers = [] from inactive] at active
      cases active }

/-- The entry interceptors hand the arguments on with the same outermost wrappers. What is known of
those of the first run may be added.
-/
theorem beside_entry {known : List Value → Memory → Prop}
    (posed
      : pairing.Posed exempt (budget + 1) op op' (layer :: below) machine twin outer outer' arguments
          arguments')
    (above : machine.Above layer below) (front : machine.thread.overlay.forces .entryInterceptor)
    (same : op' = op ∨ ¬strict ∧ op'.isInPlace = false)
    (alike : ∀ exit exit', exit.Alike exit' → failed exit exit')
    (receives
      : ∀ start,
          machine.Resumes start
          → start.values = machine.values
          → start.heap = machine.heap
          → (Run.mapLast op.arity (receive layer)).Leaves start
              (fun _ values memory => known values memory) (fun _ _ => True))
    (inner
      : ∀ held held' given given' received,
          machine.Resumes received
          → received.Shifted (received.ambient.enter layer.kind) held
          → pairing.Posed exempt budget op op' (layer :: below) held held' outer outer' given given'
          → known held.values held.memory
          → Beside strict ((nested budget).dispatch op) ((nested budget).dispatch op') held held' ok
              failed)
    : Beside strict (entryInterceptor.run (nested budget) op)
        (entryInterceptor.run (nested budget) op') machine twin ok failed := by
  have above' := above.other posed.twins
  refine .step rfl rfl ?_
  simp only [above.top, above'.top, List.head?_cons]
  refine .step rfl rfl ?_
  rcases logDispatch_noted (.entering op.name (Layer.renderStack machine.thread.layers.reverse))
    machine with ⟨logged, noted, returns, kept, memory⟩
  rcases logDispatch_noted (.entering op'.name (Layer.renderStack twin.thread.layers.reverse))
    twin with ⟨logged', noted', returns', kept', memory'⟩
  refine .step_left returns noted (.step_right returns' noted' ?_)
  have agrees : pairing.Agrees logged.memory logged'.memory := by
    rw [memory, memory']
    exact posed.twins.memory
  have values := kept.trans posed.values
  have values' := kept'.trans posed.values'
  have checks
      : Beside strict (refuseCapturedMutation op layer) (refuseCapturedMutation op' layer) logged
          logged'
          (fun _ values memory _ values' memory' =>
            values = logged.values ∧ values' = logged'.values ∧ pairing.Agrees memory memory')
          failed :=
    beside_refuseCapturedMutation same values values' posed.size posed.size' posed.matched
      (posed.twins.returns returns returns' agrees) alike
  refine checks.bind ?_
  intro _ checked _ checked' passed passed' later later' left
  obtain rfl := refuseCapturedMutation_ok passed
  obtain rfl := refuseCapturedMutation_ok passed'
  have twins := posed.twins.returns returns returns' agrees
  have received
      : Beside strict (Run.mapLast op.arity (receive layer)) (Run.mapLast op'.arity (receive layer))
          checked checked'
          (fun _ values memory _ values' memory' =>
            ∃ given given',
              values = outer ++ given
              ∧ values' = outer' ++ given'
              ∧ (given.length = arguments.length ∧ given'.length = arguments'.length)
              ∧ pairing.Agrees memory memory'
              ∧ Value.RelatedAll pairing.Faces given given')
          failed := by
    rw [← posed.size, ← posed.size']
    refine .mapLast values values' posed.matched twins ?_
    intro tensor bare matched start start' _ _ twins
    exact beside_receive matched twins alike layer
  have heap : checked.heap = machine.heap := congrArg Memory.heap memory
  refine (received.and_left (receives checked returns.toResumes kept heap)).bind ?_
  intro _ received _ received' ran ran' later later' left
  rcases left with ⟨⟨given, given', values, values', ⟨count, count'⟩, agrees, faces⟩, knows⟩
  refine .step rfl rfl ?_
  refine .holding_left (moves_replaceOverlay _ received) fun held atHeld => ?_
  refine .holding_right (moves_replaceOverlay _ received') fun held' atHeld' => ?_
  have arrives := returns.trans later
  have posed :=
    posed.entered above front arrives (twins.returns later later' agrees) values values' count
      count' faces atHeld atHeld'
  apply inner held held' given given' received arrives.toResumes atHeld posed
  rw [atHeld.values, atHeld.memory]
  exact knows

-----------------------------------------------------------------------------------------
-- In the body of a differentiation layer
-----------------------------------------------------------------------------------------

/-- The bodies of a differentiation layer hand calls on as they are, one step nearer to the base.
-/
theorem beside_hidden
    (posed
      : pairing.Posed exempt (budget + 1) op op' (layer :: below) machine twin outer outer' arguments
          arguments')
    (within : machine.InBody layer below) (kind : layer.kind = .differentiation)
    (shown : machine.thread.overlay.excluded.contains .differentiation = false)
    (inner
      : ∀ held held',
          pairing.Posed exempt budget op op' (layer :: below) held held' outer outer' arguments
            arguments'
          → machine.Shifted (machine.ambient.hide TransformKind.differentiation.owned) held
          → Beside strict ((nested budget).dispatch op) ((nested budget).dispatch op') held held' ok
              failed)
    : Beside strict
        (Run.holding (Guard.hide TransformKind.differentiation.owned) ((nested budget).dispatch op))
        (Run.holding (Guard.hide TransformKind.differentiation.owned) ((nested budget).dispatch op'))
        machine twin ok failed := by
  refine .holding_left (moves_hide _ machine) fun held atHeld => ?_
  refine .holding_right (moves_hide _ twin) fun held' atHeld' => ?_
  have within' := within.other posed.calling' posed.twins
  have faces := posed.faced within.inBody.entry within.top.symm
  refine inner held held' ?_ atHeld
  exact {
    calling := within.hideDifferentiation kind posed.calling.member atHeld.ambient
    calling' := within'.hideDifferentiation kind posed.calling'.member atHeld'.ambient
    twins := posed.twins.hide atHeld atHeld'
    values := atHeld.values.trans posed.values
    values' := atHeld'.values.trans posed.values'
    size := posed.size
    size' := posed.size'
    matched := posed.matched
    faced := fun _ _ => faces
    steps := by
      have less := @Ambient.reach_hide layer below machine.ambient
        TransformKind.differentiation.owned .differentiation within.top within.inBody.entry
        (Or.inl (by rw [kind]; rfl)) shown rfl
      rw [← atHeld.ambient] at less
      exact Nat.le_of_lt_succ (Nat.lt_of_lt_of_le less posed.steps)
    unchecked := by
      rw [atHeld.settings]
      exact posed.unchecked
    based := fun inactive => by
      have active : held.ambient.layers = layer :: below := by
        rw [atHeld.ambient]
        exact within.top
      rw [show held.ambient.layers = [] from inactive] at active
      cases active }

-----------------------------------------------------------------------------------------
-- On the way out of a layer
-----------------------------------------------------------------------------------------

/-- Items that are checked one after another all pass, or the first one that does not ends the check.
-/
theorem forM_checks {visit : α → Run PUnit} {passes : α → Bool} {refusal : α → Fault}
    (each
      : ∀ item,
          visit item machine
            = if passes item then .ok ⟨⟩ machine else .error (.fault (refusal item)) machine)
    (list : List α)
    : (list.forM visit machine = .ok ⟨⟩ machine ∧ ∀ item ∈ list, passes item = true)
      ∨ ((¬∀ item ∈ list, passes item = true)
        ∧ ∃ item, list.forM visit machine = .error (.fault (refusal item)) machine) := by
  induction list with
  | nil => exact Or.inl ⟨rfl, List.forall_mem_nil _⟩
  | cons item list ih =>
      have visited := each item
      have unfolded
          : (item :: list).forM visit machine
            = (visit item >>= fun _ => list.forM visit) machine :=
        rfl
      cases passed : passes item with
      | false =>
          rw [passed, if_neg Bool.false_ne_true] at visited
          refine Or.inr ⟨fun all => ?_, item, by rw [unfolded, bind_apply, visited]⟩
          rw [all item List.mem_cons_self] at passed
          cases passed
      | true =>
          rw [passed, if_pos rfl] at visited
          rw [unfolded, bind_apply, visited]
          rcases ih with ⟨ended, others⟩ | ⟨failing, ended⟩
          · exact Or.inl ⟨ended, List.forall_mem_cons.mpr ⟨passed, others⟩⟩
          · exact Or.inr ⟨fun all => failing (List.forall_mem_cons.mp all).2, ended⟩

/-- In front of the base a call is stopped unless its arguments are dense but for dead tags. The
first one that is not is named in the fault.
-/
theorem requireUnwrapped_cases (name : String) (values : machine.values = outer ++ items)
    : (requireUnwrapped name outer.length (outer.length + items.length) machine = .ok () machine
        ∧ ∀ tensor ∈ Value.tensorsAll items, (tensor.unwrapDead machine.heap).isDense = true)
      ∨ ((¬∀ tensor ∈ Value.tensorsAll items, (tensor.unwrapDead machine.heap).isDense = true)
        ∧ ∃ shown,
            requireUnwrapped name outer.length (outer.length + items.length) machine
              = .error (.fault (.wrappedAtBase name shown)) machine) := by
  unfold requireUnwrapped
  rw [bind_apply, read_apply]
  dsimp only
  rw [if_pos (by simp [values]), values, ← List.length_append, List.take_length, List.drop_left]
  have checks :=
    @forM_checks machine Tensor
      (fun tensor => do
        let bare ← unwrapDead tensor
        if !bare.isDense then
          fault (.wrappedAtBase name (← Run.read fun machine => bare.render machine.heap)))
      (fun tensor => (tensor.unwrapDead machine.heap).isDense)
      (fun tensor =>
        .wrappedAtBase name ((tensor.unwrapDead machine.heap).render machine.heap))
      (fun tensor => by
        rw [unwrapDead, bind_apply, read_apply]
        dsimp only
        cases (tensor.unwrapDead machine.heap).isDense <;> rfl)
      (Value.tensorsAll items)
  rcases checks with passed | ⟨failing, tensor, ended⟩
  · exact Or.inl passed
  · exact Or.inr ⟨failing, _, ended⟩

/-- Both runs are let through to what is below a layer, or neither is. If there is no layer below,
both have their arguments checked, in which related ones come off alike.
-/
theorem beside_overlayBelow (layers : machine.thread.layers = below)
    (layers' : twin.thread.layers = below) (settings : twin.settings = machine.settings)
    (heaps : pairing.Alike machine.heap twin.heap) (values : machine.values = outer ++ items)
    (values' : twin.values = outer' ++ items') (size : items.length = op.arity)
    (size' : items'.length = op'.arity)
    (matched : Value.RelatedAll pairing.Matched items items')
    (alike : ∀ exit exit', exit.Alike exit' → failed exit exit')
    : Beside strict (overlayBelow op layer) (overlayBelow op' layer) machine twin
        (fun _ _ _ _ _ _ =>
          below = []
          → machine.settings.checkUnwrapped = false
            ∨ ∀ tensor ∈ Value.tensorsAll items, (tensor.unwrapDead machine.heap).isDense = true)
        failed := by
  have leaving {condition : Prop} (holds : condition)
      : Beside strict
          (do
            logDispatch (.leaving op.name)
            return layer.saved)
          (do
            logDispatch (.leaving op'.name)
            return layer.saved)
          machine twin (fun _ _ _ _ _ _ => condition) failed := by
    obtain ⟨logged, noted, returns, -⟩ := logDispatch_noted (.leaving op.name) machine
    obtain ⟨logged', noted', returns', -⟩ := logDispatch_noted (.leaving op'.name) twin
    exact .step_left returns noted (.step_right returns' noted' (beside_pure holds))
  refine .step rfl rfl ?_
  cases below with
  | cons next rest =>
      simp only [layers, layers', List.length_cons, Nat.succ_ne_zero, if_false]
      exact .step rfl rfl (beside_pure nofun)
  | nil =>
      simp only [layers, layers', List.length_nil, if_true]
      refine .step rfl rfl ?_
      simp only [settings]
      by_cases checked : machine.settings.checkUnwrapped = true
      · simp only [checked, if_true, ← size, ← size']
        refine .step (lastStart_append values) (lastStart_append values') ?_
        rcases requireUnwrapped_cases op.name values with ⟨ended, dense⟩ | ⟨failing, shown, ended⟩
        · rcases requireUnwrapped_cases op'.name values' with ⟨ended', -⟩ | ⟨failing', -⟩
          · exact .step ended ended' (leaving fun _ => Or.inr dense)
          · exact absurd ((pairing.dense_iff matched heaps).mpr dense) failing'
        · rcases requireUnwrapped_cases op'.name values' with ⟨-, dense'⟩ | ⟨-, shown', ended'⟩
          · exact absurd ((pairing.dense_iff matched heaps).mp dense') failing
          · have orderly (name shown : String) : Exit.Orderly (.fault (.wrappedAtBase name shown)) :=
              trivial
            refine .ended ?_ ?_ (orderly op.name shown) (orderly op'.name shown')
              (alike _ _ (.faults _ _))
            · rw [bind_apply, ended]
            · rw [bind_apply, ended']
      · simp only [checked, Bool.false_eq_true, if_false]
        exact leaving fun _ => Or.inl trivial

/-- Below a layer both runs go on in front of the next one, or at the base. -/
theorem Layer.Grounded.leave_shown (grounded : Layer.Grounded (layer :: below)) (ambient : Ambient)
    : (ambient.leave layer below).overlay.excluded.contains .entryInterceptor = false := by
  cases below with
  | nil =>
      have saved := grounded.saved layer (by simp)
      simp [Ambient.leave, saved]
  | cons next rest => simp [Ambient.leave, Overlay.front, Overlay.enable]

/-- Calls that go on below a layer, on related arguments. Each run leaves the layer, and both are
called from states that correspond.
-/
theorem beside_onward (member : op ∈ Base.schemas) (member' : op' ∈ Base.schemas)
    (above : machine.Above layer below) (twins : pairing.Twins machine twin)
    (values : machine.values = outer ++ items) (values' : twin.values = outer' ++ items')
    (size : items.length = op.arity) (size' : items'.length = op'.arity)
    (matched : Value.RelatedAll pairing.Matched items items')
    (steps : machine.ambient.reach ≤ budget + 1)
    (unchecked : machine.settings.checkUnwrapped = false → exempt)
    (alike : ∀ exit exit', exit.Alike exit' → failed exit exit')
    (inner
      : ∀ held held',
          pairing.Posed exempt budget op op' below held held' outer outer' items items'
          → machine.Shifted (machine.ambient.leave layer below) held
          → Beside strict ((nested budget).dispatch op) ((nested budget).dispatch op') held held' ok
              failed)
    : Beside strict (dispatchBelow (nested budget) op layer) (dispatchBelow (nested budget) op' layer)
        machine twin ok failed := by
  have above' := above.other twins
  have leaves (start start' : Machine) (layers : start.thread.layers = below)
      (layers' : start'.thread.layers = below) (same : start.values = machine.values)
      (same' : start'.values = twin.values) (memory : start.memory = machine.memory)
      (memory' : start'.memory = twin.memory) (settings : start.settings = machine.settings)
      (settings' : start'.settings = twin.settings)
      : Beside strict (overlayBelow op layer) (overlayBelow op' layer) start start'
          (fun _ _ _ _ _ _ =>
            below = []
            → machine.settings.checkUnwrapped = false
              ∨ ∀ tensor ∈ Value.tensorsAll items, (tensor.unwrapDead machine.heap).isDense = true)
          failed := by
    have heap : start.heap = machine.heap := congrArg Memory.heap memory
    have heap' : start'.heap = twin.heap := congrArg Memory.heap memory'
    have heaps : pairing.Alike start.heap start'.heap := by
      rw [heap, heap']
      exact twins.alike
    have switches : start'.settings = start.settings := by
      rw [settings', settings, twins.settings]
    rw [← heap, ← settings]
    exact beside_overlayBelow layers layers' switches heaps (same.trans values)
      (same'.trans values') size size' matched alike
  refine .below above.top above'.top above.grounded.levelled.1 leaves ?_
  intro held held' atHeld atHeld' passed
  refine inner held held' ?_ atHeld
  exact {
    calling := above.leave member atHeld.ambient
    calling' := above'.leave member' atHeld'.ambient
    twins := twins.leave atHeld atHeld'
    values := atHeld.values.trans values
    values' := atHeld'.values.trans values'
    size := size
    size' := size'
    matched := matched
    faced := fun entry => by
      have shown := above.grounded.leave_shown machine.ambient
      rw [← atHeld.ambient] at shown
      exact absurd (entry.symm.trans shown) Bool.noConfusion
    steps := by
      have less := @Ambient.reach_leave layer below machine.ambient above.top
      rw [← atHeld.ambient] at less
      exact Nat.le_of_lt_succ (Nat.lt_of_lt_of_le less steps)
    unchecked := by
      rw [atHeld.settings]
      exact unchecked
    based := fun inactive => by
      have layers : held.thread.layers = below := congrArg Ambient.layers atHeld.ambient
      rw [atHeld.heap]
      exact (passed (layers.symm.trans inactive)).imp unchecked id }

end

end LayeredDispatch
