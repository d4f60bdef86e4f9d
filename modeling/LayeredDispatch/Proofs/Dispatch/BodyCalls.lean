import LayeredDispatch.Proofs.Dispatch.Restoration
import LayeredDispatch.Proofs.Dispatch.Stacks
import LayeredDispatch.Proofs.Wrappers.Contracts
import Mathlib.Logic.Relation

/-! Any number of calls from the body of a layer. A call that leaves the bottom layer does not leave the
overlay of the body as it was: when the layer is pushed back both interceptors are included, of which
the body had hidden one. Main statement: whatever the body has called, and however the calls ended, the
layers are what they were and every call is routed as the first one.
-/

namespace LayeredDispatch

open Run Dispatcher

/-- The computation ends in a state, with a value or without one. -/
def Run.EndsAt (body : Run α) (machine reached : Machine) : Prop :=
  body.Ends machine (fun _ final => final = reached) fun _ final => final = reached

/-- What the body of a layer does next: it calls an operator by name or dispatches one on the last boxed
values, however this ends and however deep calls may nest, or works on its own, which leaves the layers
and the overlay alone.
-/
inductive Machine.BodyStep : Machine → Machine → Prop where
  | call {machine reached : Machine} (budget : Nat) (name : String) (arguments : List Value)
    (ended : ((nested budget).call name arguments).EndsAt machine reached)
    : BodyStep machine reached
  | dispatch {machine reached : Machine} (budget : Nat) (op : Schema)
    (ended : ((nested budget).dispatch op).EndsAt machine reached)
    : BodyStep machine reached
  | work {machine reached : Machine}
    (layers : reached.thread.layers = machine.thread.layers)
    (overlay : reached.thread.overlay = machine.thread.overlay)
    : BodyStep machine reached

/-- What the body of a layer does in any number of steps. -/
abbrev Machine.BodyRun : Machine → Machine → Prop :=
  Relation.ReflTransGen Machine.BodyStep

/-- Layers and overlay are what they were, but for the interceptors that have been included. -/
structure Machine.Retains (start reached : Machine) : Prop where
  layers : reached.thread.layers = start.thread.layers
  overlay
    : reached.thread.overlay = start.thread.overlay
      ∨ reached.thread.overlay = start.thread.overlay.setInterception true

/-- The entry interceptor is included. -/
def Machine.Intercepting (machine : Machine) : Prop :=
  machine.thread.overlay.included.contains .entryInterceptor = true

/-- If the computation gives a value the entry interceptor is included. -/
def Run.Includes (body : Run α) (machine : Machine) : Prop :=
  ∀ value reached, body machine = .ok value reached → reached.Intercepting

/-- A state in the body of the bottom layer, the hooks of which are hidden. -/
structure Machine.Leaving (machine : Machine) (layer : Layer) : Prop where
  top : machine.thread.layers = [layer]
  bottom : layer.level = 1
  inBody : machine.thread.overlay.InBody layer.kind
  hidden : ∀ capability ∈ layer.kind.owned, capability ∈ machine.thread.overlay.excluded

section

variable {machine start middle reached : Machine} {layer : Layer} {below : List Layer}
  {overlay : Overlay} {budget : Nat} {op : Schema}

-----------------------------------------------------------------------------------------
-- Overlays that route alike
-----------------------------------------------------------------------------------------

/-- While one interceptor is hidden and the other one is included, including both changes no
dispatch set: the hidden one stays hidden, and the other one was there before.
-/
theorem Overlay.apply_setInterception (entry : overlay.excluded.contains .entryInterceptor = true)
    (exit : overlay.included.contains .exitInterceptor = true) (carried : CapabilitySet)
    : (overlay.setInterception true).apply carried = overlay.apply carried := by
  have included
      : (overlay.setInterception true).included = overlay.included.insert .entryInterceptor := by
    simp only [setInterception, setIncluded, CapabilitySet.set, if_true]
    exact CapabilitySet.insert_eq_self (by simp [exit])
  have excluded : (overlay.setInterception true).excluded = overlay.excluded := rfl
  have hidden : overlay.excluded.bits.getLsbD Capability.entryInterceptor.priority = true := entry
  rw [apply, apply, included, excluded]
  refine congrArg (CapabilitySet.insert · .backend) (congrArg CapabilitySet.mk ?_)
  refine BitVec.eq_of_getLsbD_eq fun i inRange => ?_
  by_cases same : Capability.entryInterceptor.priority = i
  · subst same
    simp [hidden]
  · simp [Union.union, CapabilitySet.insert, CapabilitySet.bit, BitVec.getLsbD_twoPow, same]

namespace Machine.Retains

theorem refl (machine : Machine) : machine.Retains machine :=
  ⟨rfl, .inl rfl⟩

/-- Two computations after each other retain what each of them retains. Interceptors that are
included twice are included once.
-/
theorem trans (first : start.Retains middle) (second : middle.Retains reached)
    : start.Retains reached where
  layers := second.layers.trans first.layers
  overlay := by
    rcases second.overlay with same | included
    · rw [same]
      exact first.overlay
    · rcases first.overlay with same | already
      · exact .inr (by rw [included, same])
      · exact .inr (by rw [included, already, Overlay.setInterception_idem])

/-- A computation that hands the state back retains layers and overlay. -/
theorem of_resumes (resumes : start.Resumes reached) : start.Retains reached where
  layers := resumes.layers
  overlay := resumes.overlay.imp_right And.right

/-- What is retained of the overlay in the body of a layer is enough to be in the body still. -/
theorem inBody {kind : TransformKind} (retains : start.Retains reached)
    (inBody : start.thread.overlay.InBody kind)
    : reached.thread.overlay.InBody kind := by
  rcases retains.overlay with same | included
  · rwa [same]
  · rw [included]
    exact inBody.intercepting

/-- No step hides a hook for good or shows a hidden one. -/
theorem excluded (retains : start.Retains reached)
    : reached.thread.overlay.excluded = start.thread.overlay.excluded := by
  rcases retains.overlay with same | included
  · rw [same]
  · rw [included]
    rfl

end Machine.Retains

-----------------------------------------------------------------------------------------
-- Steps of a body
-----------------------------------------------------------------------------------------

/-- Where a computation that hands the state back ends, with a value or without one, the state
resumes.
-/
theorem Run.EndsAt.resumes {body : Run α} (ended : body.EndsAt machine reached)
    (meets : body.Meets machine (fun _ _ _ => True) (fun _ => True))
    : machine.Resumes reached := by
  unfold EndsAt Ends at ended
  unfold Meets Ends at meets
  cases went : body machine with
  | ok value final =>
      rw [went] at ended meets
      exact ended ▸ meets.1
  | error exit final =>
      rw [went] at ended meets
      exact ended ▸ meets.2.1

/-- Calls agree with themselves, whatever room they have to nest. This is the exchange of base
kernels for themselves, and all that is needed of it is that calls hand the state back.
-/
theorem Dispatcher.callsAgree_nested (budget : Nat)
    : Regime.levels.CallsAgree (nested budget)
        ⟨(standard.overBase id).dispatchWithin budget, (standard.overBase id).schema?⟩ :=
  ⟨Regime.agree_dispatchWithin Regime.levels.baseAgrees_id budget, schema?_overBase id standard⟩

/-- One step of a body retains layers and overlay. A call hands the state back however it ends, and
what the body does on its own leaves both alone.
-/
theorem Machine.BodyStep.retains (step : machine.BodyStep reached)
    (levelled : Layer.Levelled machine.thread.layers)
    : machine.Retains reached := by
  cases step with
  | call budget name arguments ended =>
      have agree := (callsAgree_nested budget).call name arguments machine levelled
      exact .of_resumes (ended.resumes agree.meets)
  | dispatch budget op ended =>
      have agree := (callsAgree_nested budget).dispatch op machine levelled
      exact .of_resumes (ended.resumes agree.meets)
  | work layers overlay => exact ⟨layers, .inl overlay⟩

/-- Any number of steps of a body retains layers and overlay. The levels of the layers, on which
calls depend, are those of the start in every state on the way.
-/
theorem Machine.BodyRun.retains (run : machine.BodyRun reached)
    (levelled : Layer.Levelled machine.thread.layers)
    : machine.Retains reached := by
  induction run with
  | refl => exact .refl machine
  | tail _ step ih => exact ih.trans (step.retains (ih.layers ▸ levelled))

-----------------------------------------------------------------------------------------
-- Calls that leave the bottom layer
-----------------------------------------------------------------------------------------

/-- Interceptors that are included stay included in a state that resumes. -/
theorem Machine.Intercepting.resumes (included : machine.Intercepting)
    (resumes : machine.Resumes reached)
    : reached.Intercepting := by
  unfold Intercepting at included ⊢
  rcases resumes.overlay with same | ⟨-, set⟩
  · rwa [same]
  · rw [set]
    simp [Overlay.setInterception, Overlay.setIncluded, CapabilitySet.set]

/-- What a first part includes is included after a second part that hands the state back. -/
theorem Run.Includes.then_quiet {first : Run α} {next : α → Run β} (head : first.Includes machine)
    (tail : ∀ value, Quiet (next value))
    : (first >>= next).Includes machine := by
  intro value reached ended
  obtain ⟨between, middle, started, ended⟩ := bind_ok ended
  exact (head between middle started).resumes ((tail between middle).resumes ended)

/-- A second part includes what it includes from every state in which the first one resumes. -/
theorem Run.Includes.after_quiet {first : Run α} {next : α → Run β} (head : Quiet first)
    (tail : ∀ value middle, machine.Resumes middle → (next value).Includes middle)
    : (first >>= next).Includes machine := by
  intro value reached ended
  obtain ⟨between, middle, started, ended⟩ := bind_ok ended
  exact tail between middle ((head machine).resumes started) value reached ended

/-- The same after a first part the end of which is known. -/
theorem Run.Includes.step {first : Run α} {next : α → Run β} {value : α}
    (head : first machine = .ok value middle) (tail : (next value).Includes middle)
    : (first >>= next).Includes machine := by
  intro result reached ended
  rw [bind_apply, head] at ended
  exact tail result reached ended

/-- Hidden hooks are of no account to what is included: the guard changes the exclusions only, and
so does its release.
-/
theorem Run.Includes.hide {body : Run α} {set : CapabilitySet}
    (inner : ∀ held, machine.Shifted (machine.ambient.hide set) held → body.Includes held)
    : (holding (Guard.hide set) body).Includes machine := by
  intro value reached ended
  obtain ⟨guard, held, acquired, ended⟩ := bind_ok ended
  obtain ⟨final, went, released⟩ := ended_of_ensuring ended
  cases acquired
  cases released
  have included : final.Intercepting := by
    refine inner _ ?_ value final went
    exact ⟨rfl, rfl, rfl, rfl, rfl, rfl⟩
  exact included

/-- Pushing the bottom layer back includes the interceptors. If the layer cannot be pushed back,
there is no state after the release to speak of.
-/
theorem intercepting_of_release (bottom : layer.level = 1)
    (released : (Guard.withoutTop layer).release machine = .ok () reached)
    : reached.Intercepting := by
  by_cases next : layer.level = machine.thread.layers.length + 1
  · obtain ⟨log, pushed⟩ := pushLayer_apply next
    have none : machine.thread.layers = [] :=
      List.length_eq_zero_iff.mp (Nat.succ.inj (next.symm.trans bottom))
    simp only [Guard.release, discard_apply, pushed, none, List.isEmpty_nil, if_true] at released
    cases released
    simp [Machine.Intercepting, Overlay.setInterception, Overlay.setIncluded, CapabilitySet.set]
  · simp [Guard.release, discard_apply, pushLayer, bind_apply, read_apply, next, fault_apply]
      at released

/-- A call that leaves the bottom layer includes the interceptors when it comes back with values.
The guard of the layer is the outermost one, so its release is the last thing that is done.
-/
theorem includes_dispatchBelow (top : machine.thread.layers = [layer]) (bottom : layer.level = 1)
    (calls : Calls) (op : Schema)
    : (dispatchBelow calls op layer).Includes machine := by
  intro value reached ended
  obtain ⟨guard, popped, acquired, ended⟩ := bind_ok ended
  obtain ⟨log, hidden⟩ := hideTop_apply top
  rw [hidden] at acquired
  cases acquired
  obtain ⟨final, -, released⟩ := ended_of_ensuring ended
  exact intercepting_of_release bottom released

/-- The same for the exit interceptor. A differentiation layer still tags the results after the
layer is back, which is quiet.
-/
theorem includes_exitInterceptor (top : machine.thread.layers = [layer]) (bottom : layer.level = 1)
    (calls : Calls) (op : Schema)
    : (exitInterceptor.run calls op).Includes machine := by
  refine Includes.step (currentLayer_apply top) ?_
  cases layer.kind with
  | batching => exact includes_dispatchBelow top bottom calls op
  | differentiation =>
      refine .after_quiet (quiet_writing.copyUntagged op _) fun _ copied resumes => ?_
      exact (includes_dispatchBelow (resumes.layers.trans top) bottom calls op).then_quiet fun _ =>
        quiet_writing.tagResults op _

/-- A state of the body of the bottom layer with its hooks hidden is followed by such states only.
-/
theorem Machine.Leaving.retains (leaving : machine.Leaving layer) (retains : machine.Retains reached)
    : reached.Leaving layer where
  top := retains.layers.trans leaving.top
  bottom := leaving.bottom
  inBody := retains.inBody leaving.inBody
  hidden := retains.excluded ▸ leaving.hidden

/-- More hooks may be hidden in such a state, but for the exit interceptor. -/
theorem Machine.Leaving.hide {set : CapabilitySet} {held : Machine} (leaving : machine.Leaving layer)
    (apart : set.contains .exitInterceptor = false)
    (shifted : machine.Shifted (machine.ambient.hide set) held)
    : held.Leaving layer := by
  have overlay : held.thread.overlay = (machine.ambient.hide set).overlay :=
    congrArg Ambient.overlay shifted.ambient
  refine ⟨(congrArg Ambient.layers shifted.ambient).trans leaving.top, leaving.bottom, ?_, ?_⟩
  · rw [overlay]
    exact leaving.inBody.hide apart
  · intro capability member
    have excluded : machine.thread.overlay.excluded.contains capability = true :=
      leaving.hidden capability member
    rw [overlay, CapabilitySet.mem_iff]
    simp [Ambient.hide, Machine.ambient, excluded]

/-- A random operator in the body of a batching layer is dispatched once more, under a guard that
hides the mode of batching. The state under the guard is one of the body again, so what is known of
smaller room to nest applies.
-/
theorem includes_random (leaving : machine.Leaving layer)
    (holds : ∀ {op held}, held.Leaving layer → ((nested budget).dispatch op).Includes held)
    : (Batching.random.run (nested budget) op).Includes machine := by
  refine Includes.step (currentLayer_apply leaving.top) ?_
  refine .hide fun held shifted => ?_
  have inside := leaving.hide (by decide) shifted
  split
  · intro _ _ faulted
    cases faulted
  · intro _ _ refused
    cases refused
  · exact holds inside
  · refine .after_quiet (quiet_writing.pop _) fun arguments popped resumes => ?_
    have inside := inside.retains (.of_resumes resumes)
    refine .after_quiet (quiet_lift (Value.plain_sizesAt _ _ _).orderly) fun sizes read resumes => ?_
    have inside := inside.retains (.of_resumes resumes)
    refine .after_quiet (quiet_writing.push _) fun _ pushed resumes => ?_
    exact (holds (inside.retains (.of_resumes resumes))).then_quiet fun _ =>
      quiet_writing.wrapResults _ _

/-- A span is of no account to what is included, since it changes the trace only. -/
theorem Run.Includes.traced {name : String} {capability : Capability} {body : Run α}
    (inner : body.Includes (machine.inSpan name capability))
    : (Run.traced name capability body).Includes machine := by
  intro value reached ended
  rw [traced_apply] at ended
  split at ended
  · obtain ⟨final, went, closed⟩ := ended_of_ensuring ended
    cases closed
    have included : final.Intercepting := inner value final went
    exact included
  · exact inner value reached ended

/-- In the body of the bottom layer, with the hooks of the layer hidden, every call that gives
values leaves the layer and comes back. The kernel can only be the exit interceptor or the rule for
random operators, and the induction on the room to nest is for the sake of the second one.
-/
theorem includes_dispatch (leaving : machine.Leaving layer)
    : ((nested budget).dispatch op).Includes machine := by
  -- A random operator is dispatched once more before it leaves a batching layer.
  induction budget generalizing op machine with
  | zero =>
      intro _ _ faulted
      cases faulted
  | succ budget ih =>
      intro value reached ended
      obtain ⟨set, same, found, ended⟩ := bind_ok ended
      obtain ⟨rfl, -, rfl⟩ := dispatchSet_ok found
      have inside (capability : Capability) : (same.inSpan op.name capability).Leaving layer :=
        ⟨leaving.top, leaving.bottom, leaving.inBody, leaving.hidden⟩
      have away
          : (Run.traced op.name .exitInterceptor
              (exitInterceptor.run (nested budget) op)).Includes same :=
        .traced (includes_exitInterceptor (inside _).top leaving.bottom (nested budget) op)
      have inBody := leaving.inBody
      have hidden := leaving.hidden
      cases kind : layer.kind with
      | differentiation =>
          rw [kind] at inBody hidden
          have excluded
              : same.thread.overlay.excluded.contains .differentiation = true :=
            hidden .differentiation (by decide)
          rw [select_differentiation _ inBody, excluded, Bool.not_true, Bool.and_false] at ended
          exact away value reached ended
      | batching =>
          rw [kind] at inBody hidden
          have excluded : same.thread.overlay.excluded.contains .batched = true :=
            hidden .batched (by decide)
          rw [select_batching _ inBody, excluded, Bool.not_true, Bool.and_false] at ended
          by_cases drawn
              : (same.thread.overlay.apply
                    (Value.carried same.heap (same.lastValues op.arity))).contains .batchMode
                ∧ op.name = "rand"
          · rw [if_pos drawn] at ended
            exact Includes.traced (includes_random (inside _) ih) value reached ended
          · rw [if_neg drawn, if_neg Bool.false_ne_true] at ended
            exact away value reached ended

/-- The same for calls by name. Taking the results off leaves the overlay alone. -/
theorem includes_call (leaving : machine.Leaving layer) (name : String) (arguments : List Value)
    : ((nested budget).call name arguments).Includes machine := by
  intro value reached ended
  obtain ⟨found, same, required, counted⟩ := bind_ok ended
  obtain ⟨-, rfl⟩ := lift_ok required
  split at counted
  · obtain ⟨results, left, called, given⟩ := bind_ok counted
    cases given
    rw [onValues_apply] at called
    obtain ⟨final, went, restored⟩ := ended_of_ensuring called
    obtain ⟨_, dispatched, handled, rest⟩ := bind_ok went
    cases restored
    cases rest
    have posed : Machine.Leaving { same with values := arguments } layer :=
      ⟨leaving.top, leaving.bottom, leaving.inBody, leaving.hidden⟩
    have included : final.Intercepting := includes_dispatch posed _ final handled
    exact included
  · cases counted

-----------------------------------------------------------------------------------------
-- Calls from a body
-----------------------------------------------------------------------------------------

/-- When a body starts the entry interceptor is not included, since the overlay of the body has been
zeroed. This is why a later inclusion is a change.
-/
theorem TransformKind.entryOverlay_included (kind : TransformKind) (overlay : Overlay)
    : (kind.entryOverlay overlay).included.contains .entryInterceptor = false := by
  cases kind <;>
    simp [entryOverlay, Overlay.enable, Overlay.zeroed, CapabilitySet.interception,
      CapabilitySet.ofList, Capability.all]

/-- The body of a layer may call any number of times. From the body of the top layer of a built stack,
with any hooks hidden, whatever has been called and however the calls ended, the layers are what they
were when the body started, and the overlay makes the same dispatch set of whatever is carried. The
overlay itself need not be the same: if there is one layer only, the hooks of which are hidden, then each
call that gives values leaves both interceptors included, which they were not.
-/
theorem Machine.Built.body_calls {hooks : CapabilitySet} (built : machine.Built)
    (layers : machine.thread.layers = layer :: below)
    (entered : start.ambient = (machine.ambient.enter layer.kind).hide hooks)
    (run : start.BodyRun reached)
    : reached.thread.layers = layer :: below
      ∧ (∀ carried,
          reached.thread.overlay.apply carried = start.thread.overlay.apply carried)
      ∧ (below = []
        → hooks = layer.kind.owned
        → ∀ budget name arguments results next,
            (nested budget).call name arguments reached = .ok results next
            → next.thread.overlay = start.thread.overlay.setInterception true
              ∧ next.thread.overlay ≠ start.thread.overlay) := by
  have same : start.thread.layers = layer :: below :=
    (congrArg Ambient.layers entered).trans layers
  have overlay
      : start.thread.overlay
        = ((machine.ambient.enter layer.kind).hide hooks).overlay :=
    congrArg Ambient.overlay entered
  have levelled : Layer.Levelled start.thread.layers := by
    rw [same, ← layers]
    exact built.founded.levelled
  have entry := layer.kind.entryOverlay_inBody machine.thread.overlay
  have retains := run.retains levelled
  refine ⟨retains.layers.trans same, fun carried => ?_, ?_⟩
  · rcases retains.overlay with same | included
    · rw [same]
    · rw [included]
      refine Overlay.apply_setInterception ?_ ?_ carried
      · rw [overlay]
        simp [Ambient.hide, Ambient.enter, Machine.ambient, entry.entry]
      · rw [overlay]
        exact entry.exit.1
  · rintro rfl rfl budget name arguments results next ended
    have inBody : start.thread.overlay.InBody layer.kind := by
      rw [overlay]
      exact entry.hide (by cases layer.kind <;> decide)
    have leaving : start.Leaving layer := by
      refine ⟨same, (same ▸ levelled).1, inBody, fun capability member => ?_⟩
      rw [CapabilitySet.mem_iff] at member
      rw [overlay, CapabilitySet.mem_iff]
      simp [Ambient.hide, member]
    have included := includes_call (leaving.retains retains) name arguments results next ended
    have absent : start.thread.overlay.included.contains .entryInterceptor = false := by
      rw [overlay]
      exact layer.kind.entryOverlay_included machine.thread.overlay
    have apart : next.thread.overlay ≠ start.thread.overlay := by
      intro unchanged
      rw [Intercepting, unchanged, absent] at included
      cases included
    have again : Layer.Levelled reached.thread.layers := retains.layers ▸ levelled
    have agree := (callsAgree_nested budget).call name arguments reached again
    have kept := retains.trans (.of_resumes (agree.meets.resumes ended))
    exact ⟨kept.overlay.resolve_left apart, apart⟩

/-- Witness: from the body of a single batching layer a sum of shapes that do not combine is refused, and
then a negation changes the overlay.
-/
theorem Machine.Built.body_calls_one_layer
    : ∃ (machine start reached next : Machine) (layer : Layer) (error : DispatchError)
        (results : List Value),
        machine.Built
        ∧ machine.thread.layers = [layer]
        ∧ start.ambient = (machine.ambient.enter layer.kind).hide layer.kind.owned
        ∧ (nested 9).call "add" [.tensor (.dense 0), .tensor (.dense 1)] start
          = .error (.error error) reached
        ∧ start.BodyRun reached
        ∧ (nested 9).call "neg" [.tensor (.dense 0)] reached = .ok results next
        ∧ reached.thread.layers = [layer]
        ∧ (∀ carried,
          reached.thread.overlay.apply carried = start.thread.overlay.apply carried)
        ∧ next.thread.overlay = start.thread.overlay.setInterception true
        ∧ next.thread.overlay ≠ start.thread.overlay := by
  let fresh : Machine :=
    { heap := { storages := #[⟨⟨[2]⟩, #[1, 2]⟩, ⟨⟨[3]⟩, #[1, 2, 3]⟩] } }
  let sum := (nested 9).call "add" [.tensor (.dense 0), .tensor (.dense 1)]
  let negation := (nested 9).call "neg" [.tensor (.dense 0)]
  have opened := Machine.Built.opened (@Machine.Built.fresh fresh rfl rfl)
    (rfl : openLayer (.batching 2 .error) fresh = .ok 1 _)
  let inBody (machine : Machine) : Machine :=
    { machine with
      thread :=
        { machine.thread with
          overlay := ((machine.ambient.enter .batching).hide (.only .batched)).overlay } }
  obtain ⟨machine, layer, built, layers, kind, refused, goesOn⟩
      : ∃ (machine : Machine) (layer : Layer),
          machine.Built
          ∧ machine.thread.layers = [layer]
          ∧ layer.kind = .batching
          ∧ sum.exit? (inBody machine) = some (.error (.shapeMismatch "add" ⟨[2]⟩ ⟨[3]⟩))
          ∧ (attempt sum >>= fun _ => negation).succeeds (inBody machine) = true :=
    ⟨_, _, opened, rfl, rfl, by decide +kernel, by decide +kernel⟩
  have entered
      : (inBody machine).ambient = (machine.ambient.enter layer.kind).hide layer.kind.owned := by
    rw [kind]
    rfl
  obtain ⟨reached, failed⟩ := exit?_eq_some.mp refused
  obtain ⟨results, next, ended⟩ := succeeds_iff.mp goesOn
  obtain ⟨_, middle, attempted, ended⟩ := bind_ok ended
  rw [attempt, failed] at attempted
  cases attempted
  have left : sum.EndsAt (inBody machine) reached := by
    unfold EndsAt Ends
    rw [failed]
  have run : (inBody machine).BodyRun reached := .single (.call 9 "add" _ left)
  obtain ⟨kept, alike, changed⟩ := built.body_calls layers entered run
  obtain ⟨included, apart⟩ := changed rfl rfl 9 "neg" _ results next ended
  exact ⟨machine, inBody machine, reached, next, layer, _, results, built, layers, entered, failed, run,
    ended, kept, alike, included, apart⟩

end

end LayeredDispatch
