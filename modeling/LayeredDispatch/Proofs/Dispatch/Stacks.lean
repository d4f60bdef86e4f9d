import LayeredDispatch.Guard
import LayeredDispatch.Proofs.Dispatch.Scoping

/-! Stacks of layers that are opened one after another on a fresh thread. Main statement: their
levels, overlay and registered flags fit together.
-/

namespace LayeredDispatch

open Run

/-- What a computation on a thread does not change unless it opens, closes or hides layers: the
layers, the overlay, the registered levels and the flags of values that are alive.
-/
structure Machine.Keeps (start reached : Machine) : Prop where
  layers : reached.thread.layers = start.thread.layers
  overlay : reached.thread.overlay = start.thread.overlay
  registry : reached.registry = start.registry
  alive
    : ∀ level flag,
        start.registry.find? level = some flag
        → start.heap.isAlive flag = true
        → reached.heap.isAlive flag = true

/-- States of a thread that was fresh at first, on which layers have been opened and on top hidden
by guards. Between these steps anything may happen that keeps what is there.
-/
inductive Machine.Built : Machine → Prop where
  | fresh {machine : Machine} (layers : machine.thread.layers = [])
    (overlay : machine.thread.overlay = {})
    : Built machine
  | opened {machine reached : Machine} {transform : Transform} {level : Level}
    (built : Built machine) (ended : openLayer transform machine = .ok level reached)
    : Built reached
  | hidden {machine reached : Machine} {guard : Guard} (built : Built machine)
    (ended : Guard.hideTop machine = .ok guard reached)
    : Built reached
  | used {machine reached : Machine} (built : Built machine) (keeps : machine.Keeps reached)
    : Built reached

/-- A layer is made without a change of the state. It remembers the overlay of the thread, and it is
refused if its transform is incomplete.
-/
theorem Run.buildLayer_ok {transform : Transform} {level : Level} {machine reached : Machine}
    {layer : Layer} (ended : buildLayer transform level machine = .ok layer reached)
    : reached = machine
      ∧ layer = ⟨transform, level, machine.thread.overlay⟩
      ∧ transform.isComplete = true := by
  unfold buildLayer at ended
  split at ended
  · rename_i complete
    cases ended
    exact ⟨rfl, rfl, complete⟩
  · cases ended

/-- A new level has a flag of its own, which is alive, and it was free before. The flag is the next
one of the heap.
-/
theorem Run.createLevel_ok {level : Level} {machine reached : Machine} {flag : Nat}
    (ended : createLevel level machine = .ok flag reached)
    : machine.registry.contains level = false
      ∧ flag = machine.heap.flags.size
      ∧ reached =
          { machine with
            registry := machine.registry.insert level flag
            heap := machine.heap.addFlag.2 } := by
  obtain ⟨registry, same, found, ended⟩ := bind_ok ended
  cases found
  split at ended
  · cases ended
  · rename_i free
    cases ended
    exact ⟨by simpa using free, rfl, rfl⟩

/-- What opening a layer leads to. The level is one more than the number of layers, the layer is on
top with the overlay that was there before, and the first layer includes the interceptors. That the
level was free is known afterwards only because a taken one would have ended the computation.
-/
theorem Run.openLayer_ok {transform : Transform} {level : Level} {machine reached : Machine}
    (ended : openLayer transform machine = .ok level reached)
    : transform.isComplete = true
      ∧ machine.registry.contains (machine.thread.layers.length + 1) = false
      ∧ reached.thread.layers =
          ⟨transform, machine.thread.layers.length + 1, machine.thread.overlay⟩
            :: machine.thread.layers
      ∧ reached.thread.overlay =
          (if machine.thread.layers.isEmpty then machine.thread.overlay.setInterception true
            else machine.thread.overlay)
      ∧ reached.registry =
          machine.registry.insert (machine.thread.layers.length + 1) machine.heap.flags.size
      ∧ reached.heap = machine.heap.addFlag.2 := by
  obtain ⟨count, counted, found, ended⟩ := bind_ok ended
  cases found
  obtain ⟨layer, made, found, ended⟩ := bind_ok ended
  obtain ⟨rfl, rfl, complete⟩ := buildLayer_ok found
  obtain ⟨_, pushed, found, ended⟩ := bind_ok ended
  obtain ⟨log, pushes⟩ := @pushLayer_apply made
    ⟨transform, made.thread.layers.length + 1, made.thread.overlay⟩ rfl
  rw [discard_apply, pushes] at found
  cases found
  obtain ⟨_, created, found, ended⟩ := bind_ok ended
  rw [discard_apply] at found
  split at found
  · rename_i flag after creates
    cases found
    obtain ⟨free, rfl, rfl⟩ := createLevel_ok creates
    cases ended
    exact ⟨complete, free, rfl, rfl, rfl, rfl⟩
  · cases found

/-- How layers, overlay and registry of a built stack fit together. The bottom layer was opened when
nothing was included or excluded; the overlay has the interceptors while a layer is active.
-/
structure Machine.Founded (machine : Machine) : Prop where
  levelled : Layer.Levelled machine.thread.layers
  overlay
    : machine.thread.overlay = Overlay.setInterception {} (!machine.thread.layers.isEmpty)
  saved : ∀ layer ∈ machine.thread.layers.getLast?, layer.saved = {}
  complete : ∀ layer ∈ machine.thread.layers, layer.transform.isComplete = true
  registered
    : ∀ layer ∈ machine.thread.layers,
        ∃ flag,
          machine.registry.find? layer.level = some flag
          ∧ machine.heap.isAlive flag = true

/-- No level of a stack is larger than the number of its layers. -/
theorem Layer.Levelled.level_le {layers : List Layer} (h : Levelled layers) {layer : Layer}
    (member : layer ∈ layers)
    : layer.level ≤ layers.length := by
  induction layers with
  | nil => cases member
  | cons top below ih =>
      rcases List.mem_cons.mp member with rfl | member
      · exact Nat.le_of_eq h.1
      · exact Nat.le_succ_of_le (ih h.2 member)

theorem Overlay.setInterception_empty_false : setInterception {} false = {} := by
  rfl

/-- A new flag is alive, and no other flag is changed by it. -/
theorem Heap.isAlive_addFlag (heap : Heap) (flag : Nat)
    : heap.addFlag.2.isAlive flag = (heap.isAlive flag || decide (flag = heap.flags.size)) := by
  simp only [isAlive, addFlag, Array.getD_eq_getD_getElem?, Array.getElem?_push]
  split
  · rename_i same
    simp [same]
  · rename_i apart
    simp [apart]

/-- Opening a layer keeps layers, overlay and registry together. The new level is above all others,
so the flags of the others are found as before; the bottom layer has saved the empty overlay because
the overlay was empty when there were no layers.
-/
theorem Machine.Founded.opened {machine reached : Machine} {transform : Transform} {level : Level}
    (founded : machine.Founded) (ended : openLayer transform machine = .ok level reached)
    : reached.Founded := by
  obtain ⟨complete, free, layers, overlay, registry, heap⟩ := openLayer_ok ended
  refine ⟨?_, ?_, ?_, ?_, ?_⟩
  · rw [layers]
    exact ⟨rfl, founded.levelled⟩
  · rw [overlay, founded.overlay, layers]
    cases machine.thread.layers with
    | nil => rfl
    | cons layer below => rfl
  · intro layer last
    rw [layers] at last
    have saved := founded.saved
    have overlay := founded.overlay
    cases stack : machine.thread.layers with
    | nil =>
        rw [stack] at last overlay
        cases last
        exact overlay
    | cons top below =>
        rw [stack, List.getLast?_cons_cons] at last
        rw [stack] at saved
        exact saved layer last
  · intro layer member
    rw [layers] at member
    rcases List.mem_cons.mp member with rfl | member
    · exact complete
    · exact founded.complete layer member
  · intro layer member
    rw [layers] at member
    rw [registry, heap]
    rcases List.mem_cons.mp member with rfl | member
    · exact ⟨_, Registry.find?_insert_same _ _ free, by simp [Heap.isAlive_addFlag]⟩
    · obtain ⟨flag, found, alive⟩ := founded.registered layer member
      have below := founded.levelled.level_le member
      have apart : layer.level ≠ machine.thread.layers.length + 1 :=
        Nat.ne_of_lt (Nat.lt_succ_of_le below)
      refine ⟨flag, ?_, by simp [Heap.isAlive_addFlag, alive]⟩
      rwa [Registry.find?_insert_other _ _ apart]

/-- Hiding the top layer by a guard keeps them together. The level of the hidden layer stays
registered, which does no harm to the layers that are left.
-/
theorem Machine.Founded.hidden {machine reached : Machine} {guard : Guard}
    (founded : machine.Founded) (ended : Guard.hideTop machine = .ok guard reached)
    : reached.Founded := by
  cases layers : machine.thread.layers with
  | nil =>
      simp [Guard.hideTop, popLayer, bind_apply, read_apply, layers, fault_apply] at ended
  | cons top below =>
      obtain ⟨log, hides⟩ := hideTop_apply layers
      rw [hides] at ended
      cases ended
      obtain ⟨levelled, overlay, saved, complete, registered⟩ := founded
      rw [layers] at levelled overlay saved complete registered
      refine ⟨levelled.2, ?_, ?_, ?_, ?_⟩
      · cases below with
        | nil => simp [overlay, Overlay.setInterception_empty_false]; rfl
        | cons next rest => simpa using overlay
      · intro layer last
        cases below with
        | nil => cases last
        | cons next rest => exact saved layer (by simpa using last)
      · exact fun layer member => complete layer (List.mem_cons_of_mem _ member)
      · exact fun layer member => registered layer (List.mem_cons_of_mem _ member)

/-- Whatever keeps layers, overlay, registry and the flags that are alive keeps them together. -/
theorem Machine.Founded.used {machine reached : Machine} (founded : machine.Founded)
    (keeps : machine.Keeps reached)
    : reached.Founded := by
  obtain ⟨levelled, overlay, saved, complete, registered⟩ := founded
  rw [← keeps.layers] at levelled overlay saved complete registered
  refine ⟨levelled, keeps.overlay.trans overlay, saved, complete, fun layer member => ?_⟩
  obtain ⟨flag, found, alive⟩ := registered layer member
  exact ⟨flag, by rw [keeps.registry, found], keeps.alive _ flag found alive⟩

/-- Layers, overlay and registry fit together in all built states. The induction is on the steps by
which the state was built, with one lemma for each kind of step.
-/
theorem Machine.Built.founded {machine : Machine} (built : machine.Built) : machine.Founded := by
  induction built with
  | fresh layers overlay =>
      refine ⟨?_, ?_, ?_, ?_, ?_⟩ <;> rw [layers]
      · trivial
      · exact overlay
      · intro layer last
        cases last
      · exact List.forall_mem_nil _
      · exact List.forall_mem_nil _
  | opened _ ended ih => exact ih.opened ended
  | hidden _ ended ih => exact ih.hidden ended
  | used _ keeps ih => exact ih.used keeps

end LayeredDispatch
