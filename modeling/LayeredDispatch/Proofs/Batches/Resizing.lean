import LayeredDispatch.Proofs.Dispatch.Scoping

/-! Batching layers over batches of another size. Main statements: what gives a value without looking at
the size of a batching layer gives the same value whatever the sizes are, and so do sequences, guards and
trace nodes made of such parts.
-/

namespace LayeredDispatch

open Run

/-- The same transform, over batches of another size. -/
def Transform.resized (size : Size) : Transform → Transform
  | .differentiation grad forwardGrad => .differentiation grad forwardGrad
  | .batching _ randomness => .batching size randomness

/-- The same layer, over batches of the size for its level. -/
def Layer.resized (sizes : Level → Size) (layer : Layer) : Layer :=
  { layer with transform := layer.transform.resized (sizes layer.level) }

/-- The same state, with batching layers over batches of other sizes. -/
def Machine.resized (sizes : Level → Size) (machine : Machine) : Machine :=
  { machine with
    thread := { machine.thread with layers := machine.thread.layers.map (Layer.resized sizes) } }

namespace Layer

variable (sizes : Level → Size) (layer : Layer)

@[simp] theorem kind_resized : (layer.resized sizes).kind = layer.kind := by
  obtain ⟨transform, level, saved⟩ := layer
  cases transform <;> rfl

@[simp] theorem priorGrad?_resized
    : (layer.resized sizes).transform.priorGrad? = layer.transform.priorGrad? := by
  obtain ⟨transform, level, saved⟩ := layer
  cases transform <;> rfl

@[simp] theorem priorForwardGrad?_resized
    : (layer.resized sizes).transform.priorForwardGrad? = layer.transform.priorForwardGrad? := by
  obtain ⟨transform, level, saved⟩ := layer
  cases transform <;> rfl

@[simp] theorem level_resized : (layer.resized sizes).level = layer.level :=
  rfl

end Layer

namespace Run

/-- Where the computation gives a value, the other one gives what `change` makes of it in the state with
other batch sizes, and leaves the state with other batch sizes.
-/
def Follows (sizes : Level → Size) (change : α → β) (body : Run α) (other : Run β) : Prop :=
  ∀ machine value reached,
    body machine = .ok value reached
    → other (machine.resized sizes) = .ok (change value) (reached.resized sizes)

/-- The computation gives the same value whatever the sizes of the batches are. -/
abbrev Blind (sizes : Level → Size) (body : Run α) : Prop :=
  Follows sizes id body body

variable {sizes : Level → Size} {change : α → β} {body : Run α} {other : Run β}

-----------------------------------------------------------------------------------------
-- Parts
-----------------------------------------------------------------------------------------

/-- A value is what the change makes of it in any state. -/
theorem follows_pure (value : α) : Follows sizes change (pure value) (pure (change value)) := by
  rintro machine _ _ ⟨⟩
  rfl

theorem blind_pure (value : α) : Blind sizes (pure value) :=
  follows_pure value

theorem follows_fault (fault : Fault) : Follows sizes change (Run.fault fault) other := by
  rintro _ _ _ ⟨⟩

/-- A part of the state is read alike if the change of the sizes is, on this part, the change of the
value.
-/
theorem follows_read {part : Machine → α} {part' : Machine → β}
    (same : ∀ machine, part' (machine.resized sizes) = change (part machine))
    : Follows sizes change (read part) (read part') := by
  rintro machine _ _ ⟨⟩
  rw [read_apply, same]

/-- A change of the state that commutes with the change of the sizes does not look at them. -/
theorem blind_modify {step : Machine → Machine}
    (same : ∀ machine, step (machine.resized sizes) = (step machine).resized sizes)
    : Blind sizes (modify step) := by
  rintro machine _ _ ⟨⟩
  exact congrArg (EStateM.Result.ok ()) (same machine)

theorem blind_allocate (make : Heap → α × Heap) : Blind sizes (allocate make) := by
  rintro machine _ _ ⟨⟩
  rfl

/-- A body with a cleanup that gave a value did so in both parts: after an error or a fault the
cleanup runs,
but the whole gives no value.
-/
theorem ensuring_eq_ok {body : Run α} {cleanup : Run Unit} {machine final : Machine} {value : α}
    (ended : Run.ensuring body cleanup machine = .ok value final)
    : ∃ middle, body machine = .ok value middle ∧ cleanup middle = .ok () final := by
  unfold Run.ensuring at ended
  cases given : body machine with
  | ok between middle =>
      cases cleaned : cleanup middle <;> simp only [given, cleaned] at ended <;> cases ended
      exact ⟨middle, rfl, cleaned⟩
  | error exit middle =>
      cases exit <;> simp only [given] at ended
      case abort => cases ended
      all_goals cases cleaned : cleanup middle <;> simp only [cleaned] at ended <;> cases ended

namespace Follows

/-- A sequence gives the value that the other one gives if its parts do, the second one for what the
change
makes of the value between them.
Where the sequence gave a value both parts did, so each may be replaced in turn.
-/
theorem bind {mid : γ → δ} {first : Run γ} {first' : Run δ} {next : γ → Run α} {next' : δ → Run β}
    (head : Follows sizes mid first first')
    (tail : ∀ value, Follows sizes change (next value) (next' (mid value)))
    : Follows sizes change (first >>= next) (first' >>= next') := by
  intro machine value reached ended
  obtain ⟨between, middle, found, ended⟩ := bind_ok ended
  rw [bind_apply, head machine between middle found]
  exact tail between middle value reached ended

/-- The first part is the same. -/
theorem after {first : Run γ} {next : γ → Run α} {next' : γ → Run β} (head : Blind sizes first)
    (tail : ∀ value, Follows sizes change (next value) (next' value))
    : Follows sizes change (first >>= next) (first >>= next') :=
  head.bind tail

theorem ite {condition : Prop} [Decidable condition] {body' : Run α} {other' : Run β}
    (yes : Follows sizes change body other) (no : Follows sizes change body' other')
    : Follows sizes change (if condition then body else body')
        (if condition then other else other') := by
  split
  · exact yes
  · exact no

/-- A body with a cleanup gives a value where both do.
So both parts can be replaced one after the other, with the state between them over other sizes.
-/
theorem ensuring {cleanup cleanup' : Run Unit} (h : Follows sizes change body other)
    (cleans : Follows sizes id cleanup cleanup')
    : Follows sizes change (Run.ensuring body cleanup) (Run.ensuring other cleanup') := by
  intro machine value final ended
  obtain ⟨middle, given, cleaned⟩ := ensuring_eq_ok ended
  rw [Run.ensuring, h machine value middle given]
  dsimp only
  rw [cleans middle () final cleaned]

/-- A body under a guard follows another one if acquiring the guard does not look at sizes, nor
releasing
any guard that may have been acquired.
-/
theorem holding {acquire : Run Guard} (acquires : Blind sizes acquire)
    (releases
      : ∀ machine guard held, acquire machine = .ok guard held → Blind sizes guard.release)
    (inner : Follows sizes change body other)
    : Follows sizes change (Run.holding acquire body) (Run.holding acquire other) := by
  intro machine value final ended
  obtain ⟨guard, held, acquired, ended⟩ := bind_ok ended
  rw [Run.holding, bind_apply, acquires machine guard held acquired]
  exact inner.ensuring (releases machine guard held acquired) held value final ended

/-- A guard that is held under a condition: with it the body is a guarded one, without it the body
itself.
-/
theorem holdingIf {acquire : Run Guard} (inner : Follows sizes change body other)
    (condition : Bool)
    (held : Follows sizes change (Run.holding acquire body) (Run.holding acquire other))
    : Follows sizes change (Run.holdingIf condition acquire body)
        (Run.holdingIf condition acquire other) :=
  .ite held inner

/-- A body inside a node of the trace. Whether a node is opened depends on the recorder, which knows
no sizes.
-/
theorem traced {op : String} {capability : Capability} (inner : Follows sizes change body other)
    : Follows sizes change (Run.traced op capability body) (Run.traced op capability other) := by
  refine .after (.after (follows_read fun _ => rfl) fun recorder? => ?_) fun opened => ?_
  · split
    · exact .after (blind_modify fun _ => rfl) fun _ => blind_pure _
    · exact blind_pure _
  · exact .ite (inner.ensuring (blind_modify fun _ => rfl)) inner

/-- A body on values of its own, which are put back by a cleanup that knows no sizes. -/
theorem onValues {values : List Value} {body other : Run α} (inner : Follows sizes id body other)
    : Follows sizes id (Run.onValues values body) (Run.onValues values other) := by
  refine .after (follows_read fun _ => rfl) fun outer => .after (blind_modify fun _ => rfl) fun _ => ?_
  refine .ensuring (inner.bind fun value => ?_) (blind_modify fun _ => rfl)
  exact .after (follows_read fun _ => rfl) fun left => blind_pure _

end Follows

/-- The layers that are read are those over other sizes. -/
theorem follows_layers
    : Follows sizes (List.map (Layer.resized sizes)) (read (·.thread.layers))
        (read (·.thread.layers)) :=
  follows_read fun _ => rfl

theorem blind_logDispatch (event : Event) : Blind sizes (logDispatch event) :=
  .after (follows_read fun _ => rfl) fun _ => .ite (blind_modify fun _ => rfl) (blind_pure _)

theorem follows_setLayers (layers : List Layer)
    : Follows sizes id (setLayers layers) (setLayers (layers.map (Layer.resized sizes))) := by
  rintro machine _ _ ⟨⟩
  rfl

theorem blind_onOverlay (step : Overlay → Overlay) : Blind sizes (onOverlay step) :=
  blind_modify fun _ => rfl

/-- The layer that is popped is the one on top over another size, and the layers below it stay.
Whether the interceptors are switched off depends on whether there are any, not on their sizes.
-/
theorem follows_popLayer : Follows sizes (Layer.resized sizes) popLayer popLayer := by
  refine .bind follows_layers fun layers => ?_
  cases layers with
  | nil => exact follows_fault _
  | cons layer below =>
      refine .bind (follows_setLayers below) fun _ => ?_
      dsimp only [List.map_cons]
      rw [List.isEmpty_map]
      refine .ite ?_ (follows_pure layer)
      exact .after (blind_logDispatch _) fun _ => .after (blind_onOverlay _) fun _ =>
        follows_pure layer

/-- A layer may be pushed over another size: its level is checked against their number, and the
interceptors
are switched on for the first one.
-/
theorem follows_pushLayer (layer : Layer)
    : Follows sizes id (pushLayer layer) (pushLayer (layer.resized sizes)) := by
  refine .bind follows_layers fun below => ?_
  dsimp only
  rw [List.length_map, List.isEmpty_map, Layer.level_resized]
  refine .ite (.bind (follows_setLayers (layer :: below)) fun _ => ?_) (follows_fault _)
  refine .ite ?_ (blind_pure _)
  exact .after (blind_logDispatch _) fun _ => .after (blind_onOverlay _) fun _ => blind_pure _

-----------------------------------------------------------------------------------------
-- Guards
-----------------------------------------------------------------------------------------

/-- Hiding the top layer remembers it over the size for its level, in the state over other sizes.
-/
theorem hideTop_resized (sizes : Level → Size) {machine held : Machine} {guard : Guard}
    (acquired : Guard.hideTop machine = .ok guard held)
    : ∃ layer,
        guard = .withoutTop layer
        ∧ Guard.hideTop (machine.resized sizes)
          = .ok (.withoutTop (layer.resized sizes)) (held.resized sizes) := by
  obtain ⟨layer, _, popped, acquired⟩ := bind_ok acquired
  cases acquired
  refine ⟨layer, rfl, ?_⟩
  rw [Guard.hideTop, bind_apply, follows_popLayer machine layer held popped]
  rfl

namespace Follows

/-- A guard that saves a part of the thread other than its layers, sets it and puts it back.
What it remembers is the same in both runs, and so is what it does when it is released.
-/
theorem saving {saved : Machine → γ} {enter : γ → Machine → Machine} {guard : γ → Guard}
    (same : ∀ machine, saved (machine.resized sizes) = saved machine)
    (enters
      : ∀ part machine, enter part (machine.resized sizes) = (enter part machine).resized sizes)
    (releases : ∀ part, Blind sizes (guard part).release) (inner : Follows sizes change body other)
    : Follows sizes change
        (Run.holding (do let part ← read saved; modify (enter part); return guard part) body)
        (Run.holding (do let part ← read saved; modify (enter part); return guard part) other) := by
  refine .holding ?_ ?_ inner
  · exact .after (follows_read same) fun part => .after (blind_modify (enters part)) fun _ =>
      blind_pure _
  · rintro _ _ _ ⟨⟩
    exact releases _

theorem hide (set : CapabilitySet) (inner : Follows sizes change body other)
    : Follows sizes change (Run.holding (Guard.hide set) body)
        (Run.holding (Guard.hide set) other) :=
  saving (fun _ => rfl) (fun _ _ => rfl) (fun _ => blind_modify fun _ => rfl) inner

theorem replaceOverlay (overlay : Overlay) (inner : Follows sizes change body other)
    : Follows sizes change (Run.holding (Guard.replaceOverlay overlay) body)
        (Run.holding (Guard.replaceOverlay overlay) other) :=
  saving (fun _ => rfl) (fun _ _ => rfl) (fun _ => blind_modify fun _ => rfl) inner

theorem gradMode (enabled : Bool) (inner : Follows sizes change body other)
    : Follows sizes change (Run.holding (Guard.gradMode enabled) body)
        (Run.holding (Guard.gradMode enabled) other) :=
  saving (fun _ => rfl) (fun _ _ => rfl) (fun _ => blind_modify fun _ => rfl) inner

theorem forwardGradMode (enabled : Bool) (inner : Follows sizes change body other)
    : Follows sizes change (Run.holding (Guard.forwardGradMode enabled) body)
        (Run.holding (Guard.forwardGradMode enabled) other) :=
  saving (fun _ => rfl) (fun _ _ => rfl) (fun _ => blind_modify fun _ => rfl) inner

/-- The layer on top is hidden and pushed back with its size.
Unlike the other guards this one remembers something that has a size, so the two runs release
different
guards; either pushes the layer that its own run has hidden.
-/
theorem hideTop (inner : Follows sizes change body other)
    : Follows sizes change (Run.holding Guard.hideTop body) (Run.holding Guard.hideTop other) := by
  intro machine value final ended
  obtain ⟨_, held, acquired, ended⟩ := bind_ok ended
  obtain ⟨layer, rfl, hides⟩ := hideTop_resized sizes acquired
  rw [Run.holding, bind_apply, hides]
  refine inner.ensuring ?_ held value final ended
  exact .bind (follows_pushLayer layer) fun _ => blind_pure _

end Follows
end Run
end LayeredDispatch
