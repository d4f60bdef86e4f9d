import LayeredDispatch.Guard
import LayeredDispatch.Machine.Recording
import LayeredDispatch.Machine.Values

/-! How computations end: one condition on values and one on the ways of ending without a value.
The conditions of a sequence, of a body with a cleanup and of a loop follow from those of their
parts; conversely a sequence that gave a value did so in all its parts.
-/

namespace LayeredDispatch
namespace Run

/-- From `machine` the computation ends with a value as `ok` says, or without one as `failed`
says.
-/
def Ends (body : Run α) (machine : Machine) (ok : α → Machine → Prop)
    (failed : Exit → Machine → Prop)
    : Prop :=
  match body machine with
  | .ok value reached => ok value reached
  | .error exit reached => failed exit reached

/-- What is said of the ways of ending may be weakened.
A computation ends in one way only, and the condition on that way is the one that is weakened.
-/
theorem Ends.mono {body : Run α} {machine : Machine} {ok ok' : α → Machine → Prop}
    {failed failed' : Exit → Machine → Prop} (h : body.Ends machine ok failed)
    (hok : ∀ value reached, ok value reached → ok' value reached)
    (hfailed : ∀ exit reached, failed exit reached → failed' exit reached)
    : body.Ends machine ok' failed' := by
  unfold Ends at h ⊢
  split
  · rename_i value reached ended
    rw [ended] at h
    exact hok value reached h
  · rename_i exit reached ended
    rw [ended] at h
    exact hfailed exit reached h

/-- Where it is known to end with a value, the condition on values holds of it. -/
theorem Ends.of_ok {body : Run α} {machine reached : Machine} {value : α}
    {ok : α → Machine → Prop} {failed : Exit → Machine → Prop}
    (h : body.Ends machine ok failed) (ended : body machine = .ok value reached)
    : ok value reached := by
  unfold Ends at h
  rwa [ended] at h

/-- Where it is known to end without one, the condition on the other ways of ending does. -/
theorem Ends.of_error {body : Run α} {machine reached : Machine} {exit : Exit}
    {ok : α → Machine → Prop} {failed : Exit → Machine → Prop}
    (h : body.Ends machine ok failed) (ended : body machine = .error exit reached)
    : failed exit reached := by
  unfold Ends at h
  rwa [ended] at h

/-- A value is given in the state that there is. -/
@[simp] theorem ends_pure (value : α) (machine : Machine) (ok : α → Machine → Prop)
    (failed : Exit → Machine → Prop)
    : (pure value : Run α).Ends machine ok failed ↔ ok value machine :=
  Iff.rfl

/-- A sequence ends where its second part does, started where the first part ends.
If the first part gives no value, the sequence ends as that part does.
-/
@[simp] theorem ends_bind (first : Run α) (next : α → Run β) (machine : Machine)
    (ok : β → Machine → Prop) (failed : Exit → Machine → Prop)
    : (first >>= next).Ends machine ok failed
      ↔ first.Ends machine (fun value reached => (next value).Ends reached ok failed)
          failed := by
  unfold Ends
  rw [bind_apply]
  cases first machine <;> rfl

/-- A mapped computation ends as the computation does, with what the value is mapped to. -/
@[simp] theorem ends_map (change : α → β) (body : Run α) (machine : Machine)
    (ok : β → Machine → Prop) (failed : Exit → Machine → Prop)
    : (change <$> body).Ends machine ok failed
      ↔ body.Ends machine (fun value reached => ok (change value) reached) failed := by
  unfold Ends
  rw [map_apply]
  cases body machine <;> rfl

/-- A computation whose value is discarded ends where the computation does. -/
theorem discard_apply (body : Run α) (machine : Machine)
    : discard body machine =
        match body machine with
        | .ok _ reached => .ok ⟨⟩ reached
        | .error exit reached => .error exit reached :=
  map_apply (Function.const α PUnit.unit) body machine

/-- Discarding the value leaves the state that is reached. -/
@[simp] theorem ends_discard (body : Run α) (machine : Machine)
    (ok : PUnit → Machine → Prop) (failed : Exit → Machine → Prop)
    : (discard body).Ends machine ok failed
      ↔ body.Ends machine (fun _ reached => ok ⟨⟩ reached) failed :=
  ends_map (Function.const α PUnit.unit) body machine ok failed

/-- A fault ends in the state that there is. -/
@[simp] theorem ends_fault (fault : Fault) (machine : Machine)
    (ok : α → Machine → Prop) (failed : Exit → Machine → Prop)
    : (Run.fault fault : Run α).Ends machine ok failed ↔ failed (.fault fault) machine :=
  Iff.rfl

@[simp] theorem ends_get (machine : Machine) (ok : Machine → Machine → Prop)
    (failed : Exit → Machine → Prop)
    : (get : Run Machine).Ends machine ok failed ↔ ok machine machine :=
  Iff.rfl

@[simp] theorem ends_set (state machine : Machine) (ok : PUnit → Machine → Prop)
    (failed : Exit → Machine → Prop)
    : (set state : Run PUnit).Ends machine ok failed ↔ ok ⟨⟩ state :=
  Iff.rfl

/-- A change of the state ends in the changed state. -/
@[simp] theorem ends_modify (change : Machine → Machine) (machine : Machine)
    (ok : PUnit → Machine → Prop) (failed : Exit → Machine → Prop)
    : (modify change : Run PUnit).Ends machine ok failed ↔ ok ⟨⟩ (change machine) :=
  Iff.rfl

/-- Reading gives a part of the state and leaves all of it. -/
@[simp] theorem ends_read (part : Machine → α) (machine : Machine)
    (ok : α → Machine → Prop) (failed : Exit → Machine → Prop)
    : (read part).Ends machine ok failed ↔ ok (part machine) machine :=
  Iff.rfl

@[simp] theorem ends_onThread (change : Thread → Thread) (machine : Machine)
    (ok : Unit → Machine → Prop) (failed : Exit → Machine → Prop)
    : (onThread change).Ends machine ok failed
      ↔ ok () { machine with thread := change machine.thread } :=
  Iff.rfl

@[simp] theorem ends_allocate (make : Heap → α × Heap) (machine : Machine)
    (ok : α → Machine → Prop) (failed : Exit → Machine → Prop)
    : (allocate make).Ends machine ok failed
      ↔ ok (make machine.heap).1 { machine with heap := (make machine.heap).2 } :=
  Iff.rfl

/-- A pure computation ends in the state that there is, with a value or without one. -/
@[simp] theorem ends_lift (outcome : Outcome α) (machine : Machine)
    (ok : α → Machine → Prop) (failed : Exit → Machine → Prop)
    : (liftM outcome : Run α).Ends machine ok failed
      ↔ match outcome with
        | .ok value => ok value machine
        | .error exit => failed exit machine := by
  cases outcome <;> rfl

/-- Whether a computation gives a value. -/
def succeeds (body : Run α) (machine : Machine) : Bool :=
  match body machine with
  | .ok .. => true
  | .error .. => false

/-- A computation succeeds exactly if it gives some value, in some state. -/
theorem succeeds_iff {body : Run α} {machine : Machine}
    : body.succeeds machine = true ↔ ∃ value reached, body machine = .ok value reached := by
  unfold succeeds
  cases body machine <;> simp

/-- How a computation ends that gives no value. -/
def exit? (body : Run α) (machine : Machine) : Option Exit :=
  match body machine with
  | .ok .. => none
  | .error exit _ => some exit

/-- It has an exit exactly if it ends without a value, in that way. -/
theorem exit?_eq_some {body : Run α} {machine : Machine} {exit : Exit}
    : body.exit? machine = some exit ↔ ∃ reached, body machine = .error exit reached := by
  unfold exit?
  cases body machine <;> simp

/-- A sequence that gave a value did so in both parts.
Had the first part given none, the sequence would have ended with it.
-/
theorem bind_ok {first : Run α} {next : α → Run β} {machine reached : Machine} {value : β}
    (ended : (first >>= next) machine = .ok value reached)
    : ∃ between middle,
        first machine = .ok between middle ∧ next between middle = .ok value reached := by
  rw [bind_apply] at ended
  cases started : first machine with
  | ok between middle => exact ⟨between, middle, rfl, by simpa [started] using ended⟩
  | error exit middle => simp [started] at ended

/-- A pure computation that gave a value gave it by itself, and left the state. -/
theorem lift_ok {outcome : Outcome α} {value : α} {machine reached : Machine}
    (ended : (liftM outcome : Run α) machine = .ok value reached)
    : outcome = .ok value ∧ reached = machine := by
  cases outcome with
  | ok given =>
      cases ended
      exact ⟨rfl, rfl⟩
  | error exit => cases ended

/-- While a layer is on top it is the current one. -/
theorem currentLayer_apply {machine : Machine} {layer : Layer} {below : List Layer}
    (top : machine.thread.layers = layer :: below)
    : currentLayer machine = .ok layer machine := by
  simp [currentLayer, topLayer?, bind_apply, read_apply, top, pure_apply]

/-- A body with a cleanup that gave a value did so, and so did the cleanup. -/
theorem ended_of_ensuring {body : Run α} {cleanup : Run Unit} {machine final : Machine} {value : α}
    (ended : Run.ensuring body cleanup machine = .ok value final)
    : ∃ reached, body machine = .ok value reached ∧ cleanup reached = .ok () final := by
  unfold Run.ensuring at ended
  split at ended
  · rename_i given reached started
    cases cleaned : cleanup reached with
    | ok done cleared =>
        rw [cleaned] at ended
        cases ended
        exact ⟨reached, started, cleaned⟩
    | error exit cleared =>
        rw [cleaned] at ended
        cases ended
  · cases ended
  · split at ended <;> cases ended
  · split at ended <;> cases ended

end Run
end LayeredDispatch
