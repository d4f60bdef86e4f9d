import LayeredDispatch.Proofs.Dispatch.Stacks
import LayeredDispatch.Proofs.Histories.Course

/-! Opening a layer pushes it before its level is registered. Main statement: opening leaves nothing
behind where it faults exactly if the next level is free or the transform is refused before; otherwise
the layer stays on the stack.
-/

namespace LayeredDispatch

open Run

/-- The layer that is opened next. -/
def Machine.nextLayer (machine : Machine) (transform : Transform) : Layer :=
  ⟨transform, machine.thread.layers.length + 1, machine.thread.overlay⟩

/-- The overlay once a layer is pushed. -/
def Machine.pushedOverlay (machine : Machine) : Overlay :=
  if machine.thread.layers.isEmpty then machine.thread.overlay.setInterception true
  else machine.thread.overlay

/-- Opening a layer puts it on the stack and registers its level, or it faults and leaves layers,
overlay and registry as they were.
-/
def Machine.OpensCleanly (machine : Machine) (transform : Transform) : Prop :=
  (openLayer transform).Ends machine
    (fun level reached =>
      level = machine.thread.layers.length + 1
      ∧ reached.thread.layers = machine.nextLayer transform :: machine.thread.layers
      ∧ reached.registry.contains level = true)
    (fun _ reached =>
      reached.thread.layers = machine.thread.layers
      ∧ reached.thread.overlay = machine.thread.overlay
      ∧ reached.registry = machine.registry)

/-- A complete transform makes a layer with the overlay of the thread, and an incomplete one is
refused where it starts.
-/
theorem Run.buildLayer_apply (transform : Transform) (machine : Machine)
    : buildLayer transform (machine.thread.layers.length + 1) machine =
        if transform.isComplete then .ok (machine.nextLayer transform) machine
        else
          .error (.fault (.missingPriorFlag (machine.thread.layers.length + 1))) machine := by
  unfold buildLayer
  split <;> rfl

/-- A free level is registered with a new flag, and a taken one is refused where it starts. -/
theorem Run.createLevel_apply (level : Level) (machine : Machine)
    : createLevel level machine =
        if machine.registry.contains level then .error (.fault (.levelTaken level)) machine
        else
          .ok machine.heap.flags.size
            { machine with
              registry := machine.registry.insert level machine.heap.flags.size
              heap := machine.heap.addFlag.2 } := by
  unfold createLevel
  rw [bind_apply, read_apply]
  dsimp only
  split <;> rfl

/-- How opening a layer ends: it refuses an incomplete transform before anything has happened; it
faults at a taken level after the layer was pushed; or it succeeds. The log is all that is left
open.
-/
theorem Run.ends_openLayer {transform : Transform} {machine : Machine}
    {ok : Level → Machine → Prop} {failed : Exit → Machine → Prop}
    (incomplete
      : transform.isComplete = false
        → failed (.fault (.missingPriorFlag (machine.thread.layers.length + 1))) machine)
    (taken
      : transform.isComplete = true
        → machine.registry.contains (machine.thread.layers.length + 1) = true
        → ∀ log,
            failed (.fault (.levelTaken (machine.thread.layers.length + 1)))
              { machine with thread := { machine.thread with
                layers := machine.nextLayer transform :: machine.thread.layers
                overlay := machine.pushedOverlay
                log } })
    (opened
      : transform.isComplete = true
        → machine.registry.contains (machine.thread.layers.length + 1) = false
        → ∀ log,
            ok (machine.thread.layers.length + 1)
              { machine with
                thread := { machine.thread with
                  layers := machine.nextLayer transform :: machine.thread.layers
                  overlay := machine.pushedOverlay
                  log }
                registry :=
                  machine.registry.insert (machine.thread.layers.length + 1)
                    machine.heap.flags.size
                heap := machine.heap.addFlag.2 })
    : (openLayer transform).Ends machine ok failed := by
  unfold openLayer Run.Ends
  rw [bind_apply]
  simp only [layerCount, read_apply]
  rw [bind_apply, buildLayer_apply]
  cases complete : transform.isComplete with
  | false => exact incomplete complete
  | true =>
      simp only [if_true]
      obtain ⟨log, pushes⟩ := @pushLayer_apply machine (machine.nextLayer transform) rfl
      rw [bind_apply, discard_apply, pushes]
      dsimp only
      rw [bind_apply, discard_apply, createLevel_apply]
      dsimp only
      cases free : machine.registry.contains (machine.thread.layers.length + 1) with
      | true => exact taken complete free log
      | false => exact opened complete free _

/-- An incomplete transform is refused before anything happens, and a free level is registered. So
in these two cases nothing is left behind by a fault.
-/
theorem Machine.opensCleanly {machine : Machine} {transform : Transform}
    (condition
      : transform.isComplete = false
        ∨ machine.registry.contains (machine.thread.layers.length + 1) = false)
    : machine.OpensCleanly transform := by
  refine ends_openLayer (fun _ => ⟨rfl, rfl, rfl⟩) ?_ ?_
  · intro complete taken
    simp [complete, taken] at condition
  · intro _ free log
    refine ⟨rfl, rfl, ?_⟩
    rw [Registry.contains, Registry.find?_insert_same _ _ free]
    rfl

/-- Where the next level is taken, the layer has been pushed when this comes to light, and it is not
popped again.
-/
theorem Run.ends_openLayer_taken {machine : Machine} {transform : Transform}
    (complete : transform.isComplete = true)
    (taken : machine.registry.contains (machine.thread.layers.length + 1) = true)
    : (openLayer transform).Ends machine (fun _ _ => False)
        (fun exit reached =>
          exit = .fault (.levelTaken (machine.thread.layers.length + 1))
          ∧ reached.thread.layers = machine.nextLayer transform :: machine.thread.layers
          ∧ reached.thread.overlay = machine.pushedOverlay
          ∧ reached.registry = machine.registry) := by
  refine ends_openLayer ?_ (fun _ _ _ => ⟨rfl, rfl, rfl, rfl⟩) ?_
  · intro incomplete
    simp [complete] at incomplete
  · intro _ free
    simp [taken] at free

/-- So the layers are not what they were, which is one layer too many to be all or nothing. -/
theorem Machine.not_opensCleanly {machine : Machine} {transform : Transform}
    (complete : transform.isComplete = true)
    (taken : machine.registry.contains (machine.thread.layers.length + 1) = true)
    : ¬ machine.OpensCleanly transform := by
  intro opens
  have stays := ends_openLayer_taken complete taken
  unfold OpensCleanly Run.Ends at opens
  unfold Run.Ends at stays
  split at stays
  · exact stays
  · rename_i exit reached ended
    rw [ended] at opens
    exact List.cons_ne_self _ _ (stays.2.1.symm.trans opens.1)

/-- Opening a layer is all or nothing exactly if the next level is free, or the transform is refused
before anything happens. Where that level is taken the layer stays on the stack, and with the first
layer the interceptors stay included.
-/
theorem Machine.opensCleanly_iff (machine : Machine) (transform : Transform)
    : (machine.OpensCleanly transform
        ↔ transform.isComplete = false
          ∨ machine.registry.contains (machine.thread.layers.length + 1) = false)
      ∧ (¬ machine.OpensCleanly transform
        → (openLayer transform).Ends machine (fun _ _ => False)
            (fun exit reached =>
              exit = .fault (.levelTaken (machine.thread.layers.length + 1))
              ∧ reached.thread.layers = machine.nextLayer transform :: machine.thread.layers
              ∧ reached.thread.overlay = machine.pushedOverlay
              ∧ reached.registry = machine.registry)) := by
  cases complete : transform.isComplete with
  | false =>
      have opens := @opensCleanly machine transform (Or.inl complete)
      exact ⟨⟨fun _ => Or.inl rfl, fun _ => opens⟩, fun unclean => absurd opens unclean⟩
  | true =>
      cases taken : machine.registry.contains (machine.thread.layers.length + 1) with
      | false =>
          have opens := @opensCleanly machine transform (Or.inr taken)
          exact ⟨⟨fun _ => Or.inr rfl, fun _ => opens⟩, fun unclean => absurd opens unclean⟩
      | true =>
          have stays := ends_openLayer_taken complete taken
          have unclean := Machine.not_opensCleanly complete taken
          simp [unclean, stays]

/-- A level is still registered while its layer is hidden. A layer that is opened then faults and
stays: the program meets one more layer than before, and the interceptors.
-/
theorem Course.not_opensCleanly_where_hidden
    : let course := Course.performAll { machine := {} } [.openLayer (.batching 2 .error), .hideTop]
      ¬ course.machine.OpensCleanly (.batching 3 .error) :=
  Machine.not_opensCleanly rfl (by decide)

end LayeredDispatch
