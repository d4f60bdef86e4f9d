import LayeredDispatch.Proofs.Dispatch.Workings

/-! Computations that leave the storages and the boxed values alone, however they end. Only base kernels
change storages; wrapping and unwrapping a tensor, layers, levels and guards are apart from them.
-/

namespace LayeredDispatch

open Run

/-- The storages and the boxed values are the same. -/
structure Machine.Spared (machine reached : Machine) : Prop where
  storages : reached.heap.storages = machine.heap.storages
  values : reached.values = machine.values

/-- However the computation ends, it leaves the storages and the boxed values alone. -/
def Run.Apart (body : Run α) : Prop :=
  ∀ machine, body.Ends machine (fun _ reached => machine.Spared reached)
    fun _ reached => machine.Spared reached

section

variable {machine middle reached : Machine}

namespace Machine

theorem Spared.refl (machine : Machine) : machine.Spared machine :=
  ⟨rfl, rfl⟩

/-- What is left alone twice in a row is left alone. -/
theorem Spared.trans (first : machine.Spared middle) (second : middle.Spared reached)
    : machine.Spared reached :=
  ⟨second.storages.trans first.storages, second.values.trans first.values⟩

end Machine

namespace Run

theorem apart_pure (value : α) : Apart (pure value) :=
  Machine.Spared.refl

theorem apart_fault (fault : Fault) : Apart (Run.fault fault : Run α) :=
  Machine.Spared.refl

theorem apart_read (part : Machine → α) : Apart (read part) :=
  Machine.Spared.refl

theorem apart_onThread (change : Thread → Thread) : Apart (onThread change) :=
  fun _ => ⟨rfl, rfl⟩

/-- A change of the heap that leaves the storages, such as one of tags, is apart from storages and
values.
-/
theorem apart_onHeap {change : Heap → Heap}
    (same : ∀ heap, (change heap).storages = heap.storages)
    : Apart (onHeap change) :=
  fun machine => ⟨same machine.heap, rfl⟩

/-- Making something that is no storage is apart from storages and values. -/
theorem apart_allocate {make : Heap → α × Heap}
    (same : ∀ heap, (make heap).2.storages = heap.storages)
    : Apart (allocate make) :=
  fun machine => ⟨same machine.heap, rfl⟩

/-- A sequence of parts that leave storages and boxed values alone does so itself, whichever part
ends it.
-/
theorem Apart.bind {first : Run α} {next : α → Run β} (head : Apart first)
    (tail : ∀ value, Apart (next value))
    : Apart (first >>= next) := by
  intro machine
  rw [ends_bind]
  refine (head machine).mono (fun value reached spared => ?_) fun _ _ => id
  exact (tail value reached).mono (fun _ _ => spared.trans) fun _ _ => spared.trans

/-- Parts of kernels that read, refuse, fault or log leave storages and boxed values alone.
Nothing is asked of how they end. The walks over the parts are those of every such property.
-/
theorem apart_noting : Noting (fun _ => True) Apart where
  pure := apart_pure
  bind := Apart.bind
  plain _ := trivial
  throw _ := Machine.Spared.refl
  look _ := apart_read _
  read := apart_read
  log _ := apart_onThread _

/-- The same of parts that change layers, overlay and modes of a thread, and of levels that are
removed: that
kills a flag of the heap, which is no storage.
-/
theorem apart_layering : Layering (fun _ => True) Apart where
  toLogging := apart_noting.toLogging
  misplaced _ _ := trivial
  onThread _ := apart_onThread _
  removeLevel :=
    apart_noting.removeLevel (fun _ => apart_onHeap fun _ => rfl)
      (fun _ _ => ⟨rfl, rfl⟩)

/-- Tagging a tensor makes a wrapper around it. -/
theorem apart_tagAt (tensor : Tensor) (level : Level) : Apart (tagAt tensor level) :=
  (apart_noting.levelFlag level).bind fun _ => apart_allocate fun _ => rfl

/-- Recording which operator made the results writes into the tags around them. -/
theorem apart_recordGradFns (op : Schema) (level : Level) (recording : Bool)
    : Apart (do
        if recording then
          forTensors (← peek op.resultCount) fun tensor => do
            if tensor.taggedLevel? = some level then
              onHeap fun heap => heap.recordGradFn op.name tensor) := by
  refine apart_noting.ite ((apart_noting.peek _).bind fun results => ?_) (apart_pure _)
  refine apart_noting.forTensors (fun tensor => ?_) _
  refine apart_noting.ite (apart_onHeap fun heap => ?_) (apart_pure _)
  cases tensor <;> rfl

-----------------------------------------------------------------------------------------
-- Layers and guards
-----------------------------------------------------------------------------------------

/-- Creating a level makes a flag and an entry of the registry, or faults before it does. -/
theorem apart_createLevel (level : Level) : Apart (createLevel level) := by
  have registers
      : Apart (do
          let flag ← allocate Heap.addFlag
          modify fun machine =>
            { machine with registry := machine.registry.insert level flag }
          return flag) :=
    Apart.bind (apart_allocate fun _ => rfl) fun flag _ => ⟨rfl, rfl⟩
  exact (apart_read _).bind fun registry =>
    apart_noting.ite ((apart_fault _).bind fun _ => registers) registers

/-- Opening a layer changes the thread, the registry and the flags.
The parts are walked one by one, since a layer is pushed before its level is created.
-/
theorem apart_openLayer (transform : Transform) : Apart (openLayer transform) := by
  refine (apart_read _).bind fun count => Apart.bind ?_ fun layer => ?_
  · exact apart_noting.ite ((apart_read _).bind fun _ => apart_pure _) (apart_fault _)
  · refine Apart.bind (apart_noting.map (apart_layering.pushLayer layer) _) fun _ => ?_
    refine Apart.bind (apart_noting.map (apart_createLevel _) _) fun _ => ?_
    exact (apart_noting.log _).bind fun _ => apart_pure _

end Run
end
end LayeredDispatch
