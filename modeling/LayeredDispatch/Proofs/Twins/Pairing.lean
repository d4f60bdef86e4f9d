import LayeredDispatch.Proofs.Dispatch.Replacing
import LayeredDispatch.Proofs.Twins.Beside
import LayeredDispatch.Proofs.Wrappers.Ownership

/-! Two runs on tensors that differ in dead tags only. Both make new tags in step, so that their heaps
differ at most in where tags are that were made before. Main statements: tensors of the two runs have
the same shapes and carry the same hooks, and what is made of them or written through them in both
runs keeps the heaps alike.
-/

namespace LayeredDispatch

open Run

/-- How tags of one run correspond to tags of another one. Tags are told apart by their numbers; those
that are made during the runs correspond to themselves.
-/
structure Pairing where
  /-- The liveness flags, which calls leave as they are. -/
  flags : Array Bool
  /-- The number of tags that were made before the runs. -/
  count : Nat
  /-- Which tag of the other run a tag corresponds to. -/
  link : Nat → Nat → Prop
  single : ∀ {cell other other'}, link cell other → link cell other' → other = other'
  injective : ∀ {cell cell' other}, link cell other → link cell' other → cell = cell'
  fresh : ∀ {cell}, count ≤ cell → link cell cell

/-- A call hands a state back as it was but for the interceptors, which it may have included. With
these included in both there is no difference.
-/
theorem Machine.Resumes.intercepting_eq {machine reached : Machine} (h : machine.Resumes reached)
    : reached.ambient.intercepting = machine.ambient.intercepting := by
  rcases h.ambient with same | ⟨-, included⟩
  · rw [same]
  · rw [included]
    simp only [Ambient.intercepting, Overlay.setInterception_idem]

/-- What is taken away need not be added before. -/
theorem CapabilitySet.insert_sdiff {set removed : CapabilitySet} {capability : Capability}
    (member : removed.contains capability = true)
    : set.insert capability \ removed = set \ removed := by
  change CapabilitySet.mk _ = CapabilitySet.mk _
  rw [CapabilitySet.mk.injEq]
  ext i small
  simp only [CapabilitySet.contains] at member
  simp only [insert, bit, BitVec.getElem_and, BitVec.getElem_or, BitVec.getElem_not,
    BitVec.getElem_twoPow]
  grind

/-- What is reachable in the body of a layer does not depend on the interceptors in front of it,
since entering the layer takes them away first.
-/
theorem Ambient.enter_intercepting (ambient : Ambient) (kind : TransformKind)
    : ambient.intercepting.enter kind = ambient.enter kind := by
  have zeroed : (ambient.overlay.setInterception true).zeroed = ambient.overlay.zeroed := by
    simp only [Overlay.zeroed, Overlay.setInterception, Overlay.setIncluded, CapabilitySet.set,
      if_true]
    rw [CapabilitySet.insert_sdiff (by decide), CapabilitySet.insert_sdiff (by decide)]
  simp only [Ambient.enter, Ambient.intercepting, TransformKind.entryOverlay, zeroed]

/-- Nor does what is reachable below a layer, but for the interceptors themselves, which are put in
front again where a layer is left.
-/
theorem Ambient.leave_intercepting (ambient : Ambient) (layer : Layer) (below : List Layer)
    : (ambient.intercepting.leave layer below).intercepting
      = (ambient.leave layer below).intercepting := by
  have front
      : (ambient.overlay.setInterception true).front.setInterception true
        = ambient.overlay.front.setInterception true := by
    simp only [Overlay.front, Overlay.enable, Overlay.setInterception, Overlay.setIncluded,
      CapabilitySet.set, CapabilitySet.insert, if_true, Overlay.mk.injEq,
      CapabilitySet.mk.injEq, and_true]
    grind
  cases below with
  | nil => rfl
  | cons next rest =>
      simp only [Ambient.leave, Ambient.intercepting, List.isEmpty_cons, Bool.false_eq_true,
        if_false, front]

namespace Pairing

/-- A tensor and what is left of it when some dead tags around it, at any depth, are taken off. -/
inductive Matched (pairing : Pairing) : Tensor → Tensor → Prop where
  | dense (cell : Nat) : Matched pairing (.dense cell) (.dense cell)
  | tagged {cell other level flag : Nat} {value bare : Tensor} (linked : pairing.link cell other)
    (matched : Matched pairing value bare)
    : Matched pairing (.tagged cell level flag value) (.tagged other level flag bare)
  | batched {handle other level : Nat} {value bare : Tensor}
    (matched : Matched pairing value bare)
    : Matched pairing (.batched handle level value) (.batched other level bare)
  | dropped {cell level flag : Nat} {value bare : Tensor}
    (dead : pairing.flags.getD flag false = false) (matched : Matched pairing value bare)
    : Matched pairing (.tagged cell level flag value) bare

/-- The same where no dead tag is taken off the outside. -/
inductive Faces (pairing : Pairing) : Tensor → Tensor → Prop where
  | dense (cell : Nat) : Faces pairing (.dense cell) (.dense cell)
  | tagged {cell other level flag : Nat} {value bare : Tensor} (linked : pairing.link cell other)
    (matched : pairing.Matched value bare)
    : Faces pairing (.tagged cell level flag value) (.tagged other level flag bare)
  | batched {handle other level : Nat} {value bare : Tensor} (matched : pairing.Matched value bare)
    : Faces pairing (.batched handle level value) (.batched other level bare)

/-- The heaps of the two runs. -/
structure Alike (pairing : Pairing) (heap other : Heap) : Prop where
  storages : other.storages = heap.storages
  flags : heap.flags = pairing.flags
  flags' : other.flags = pairing.flags
  size : other.wrappers.size = heap.wrappers.size
  grown : pairing.count ≤ heap.wrappers.size
  wrappers : ∀ {cell cell'}, pairing.link cell cell' → other.wrapper cell' = heap.wrapper cell

/-- What the two runs may have changed for good. -/
structure Agrees (pairing : Pairing) (memory other : Memory) : Prop where
  heap : pairing.Alike memory.heap other.heap
  generator : other.generator = memory.generator

/-- States of the two runs. Where layers are active one of them may have the interceptors included and
the other one not, as the guards around them repair this.
-/
structure Twins (pairing : Pairing) (machine twin : Machine) : Prop where
  ambient : twin.ambient.intercepting = machine.ambient.intercepting
  registry : twin.registry = machine.registry
  settings : twin.settings = machine.settings
  memory : pairing.Agrees machine.memory twin.memory

variable {pairing : Pairing} {heap other : Heap} {tensor bare value result : Tensor} {level : Level}
  {cell cell' flag : Nat}

-----------------------------------------------------------------------------------------
-- Tags
-----------------------------------------------------------------------------------------

theorem eq_of_fresh (linked : pairing.link cell cell') (fresh : pairing.count ≤ cell)
    : cell' = cell :=
  pairing.single linked (pairing.fresh fresh)

/-- Tags correspond to tags of the same age: neither of the two was made during the runs, or both
were.
-/
theorem link_lt_iff (linked : pairing.link cell cell')
    : cell < pairing.count ↔ cell' < pairing.count := by
  constructor
  · intro old
    refine Nat.lt_of_not_le fun fresh => ?_
    obtain rfl := pairing.injective linked (pairing.fresh fresh)
    exact Nat.not_le_of_lt old fresh
  · intro old
    refine Nat.lt_of_not_le fun fresh => ?_
    obtain rfl := eq_of_fresh linked fresh
    exact Nat.not_le_of_lt old fresh

/-- The pairing in which every tag corresponds to itself. -/
def identity (heap : Heap) : Pairing where
  flags := heap.flags
  count := heap.wrappers.size
  link := Eq
  single first second := first.symm.trans second
  injective first second := first.trans second.symm
  fresh _ := rfl

/-- A heap is like itself, each tag corresponding to itself. -/
theorem alike_identity (heap : Heap) : (identity heap).Alike heap heap where
  storages := rfl
  flags := rfl
  flags' := rfl
  size := rfl
  grown := Nat.le_refl _
  wrappers := by
    rintro cell _ rfl
    rfl

theorem matched_identity (heap : Heap) (tensor : Tensor) : (identity heap).Matched tensor tensor := by
  induction tensor with
  | dense cell => exact .dense cell
  | tagged cell level flag value ih => exact .tagged rfl ih
  | batched handle level value ih => exact .batched ih

-----------------------------------------------------------------------------------------
-- Tensors
-----------------------------------------------------------------------------------------

theorem Faces.toMatched (h : pairing.Faces tensor bare) : pairing.Matched tensor bare := by
  cases h with
  | dense cell => exact .dense cell
  | tagged linked matched => exact .tagged linked matched
  | batched matched => exact .batched matched

theorem Alike.isAlive_eq (alike : pairing.Alike heap other) (flag : Nat)
    : other.isAlive flag = heap.isAlive flag :=
  Heap.isAlive_congr (alike.flags'.trans alike.flags.symm) flag

theorem Alike.isAlive_dead (alike : pairing.Alike heap other)
    (dead : pairing.flags.getD flag false = false)
    : heap.isAlive flag = false := by
  rw [Heap.isAlive, alike.flags, dead]

theorem Alike.storage_eq (alike : pairing.Alike heap other) (cell : Nat)
    : other.storage cell = heap.storage cell := by
  rw [Heap.storage, Heap.storage, alike.storages]

/-- Tensors that correspond have the same shape. A tag that is taken off is dead, so that the shape
of a tensor in it is that of the value.
-/
theorem Matched.shape_eq (h : pairing.Matched tensor bare) (alike : pairing.Alike heap other)
    : bare.shape other = tensor.shape heap := by
  induction h with
  | dense cell => exact congrArg Storage.shape (alike.storage_eq cell)
  | tagged linked matched ih =>
      rw [Tensor.shape, Tensor.shape, alike.isAlive_eq, alike.wrappers linked, ih]
  | batched matched ih => rw [Tensor.shape, Tensor.shape, ih]
  | dropped dead matched ih =>
      rw [ih, Tensor.shape, alike.isAlive_dead dead, if_neg Bool.false_ne_true]

/-- Without the dead tags around them the two tensors have the same outermost wrapper, because only
dead tags are missing from the second one.
-/
theorem Matched.unwrapDead (h : pairing.Matched tensor bare) (alike : pairing.Alike heap other)
    : pairing.Faces (tensor.unwrapDead heap) (bare.unwrapDead other) := by
  induction h with
  | dense cell => exact .dense cell
  | tagged linked matched ih =>
      rw [Tensor.unwrapDead, Tensor.unwrapDead, alike.isAlive_eq]
      split
      · exact .tagged linked matched
      · exact ih
  | batched matched ih => exact .batched matched
  | dropped dead matched ih =>
      rw [Tensor.unwrapDead, alike.isAlive_dead dead, if_neg Bool.false_ne_true]
      exact ih

theorem Faces.capabilities_eq (h : pairing.Faces tensor bare) (alike : pairing.Alike heap other)
    : bare.capabilities other = tensor.capabilities heap := by
  cases h with
  | dense cell => rfl
  | tagged linked matched => rw [Tensor.capabilities, Tensor.capabilities, alike.isAlive_eq]
  | batched matched => rfl

theorem Faces.taggedLevel?_eq (h : pairing.Faces tensor bare)
    : bare.taggedLevel? = tensor.taggedLevel? := by
  cases h <;> rfl

theorem Faces.isDense_eq (h : pairing.Faces tensor bare) : bare.isDense = tensor.isDense := by
  cases h <;> rfl

/-- Both are batches of a level or neither is, and then their physical values correspond. -/
theorem Faces.physicalAt? (h : pairing.Faces tensor bare) (level : Level)
    : Option.Rel pairing.Matched (tensor.physicalAt? level) (bare.physicalAt? level) := by
  cases h with
  | dense cell => exact .none
  | tagged linked matched => exact .none
  | batched matched =>
      rw [Tensor.physicalAt?, Tensor.physicalAt?]
      split
      · exact .some matched
      · exact .none

mutual
/-- Heaps are of no account to values without tensors. -/
theorem capabilities_plain {given : Value} (plain : given.tensors = []) (heap other : Heap)
    : given.capabilities other = given.capabilities heap := by
  cases given with
  | tensor handle => cases plain
  | list items => exact carried_plain plain heap other
  | absent | bool _ | int _ | float _ | ints _ => rfl

/-- Nor are they to lists of such values. -/
theorem carried_plain {arguments : List Value} (plain : Value.tensorsAll arguments = [])
    (heap other : Heap)
    : Value.carried other arguments = Value.carried heap arguments := by
  cases arguments with
  | nil => rfl
  | cons given arguments =>
      obtain ⟨head, tail⟩ := List.append_eq_nil_iff.mp plain
      rw [Value.carried, Value.carried, capabilities_plain head heap other,
        carried_plain tail heap other]
end

mutual
/-- The values of both runs have the same hooks, member by member, if the outermost wrappers of
their tensors are the same.
-/
theorem capabilities_eq {given given' : Value} (related : Value.Related pairing.Faces given given')
    (alike : pairing.Alike heap other)
    : given'.capabilities other = given.capabilities heap := by
  cases related with
  | tensor faces => exact faces.capabilities_eq alike
  | list related => exact carried_eq related alike
  | plain plain => exact capabilities_plain plain heap other

/-- The values of both runs carry the same hooks if the outermost wrappers are the same. -/
theorem carried_eq {arguments arguments' : List Value}
    (related : Value.RelatedAll pairing.Faces arguments arguments')
    (alike : pairing.Alike heap other)
    : Value.carried other arguments' = Value.carried heap arguments := by
  cases related with
  | nil => rfl
  | cons head tail =>
      rw [Value.carried, Value.carried, capabilities_eq head alike, carried_eq tail alike]
end

-----------------------------------------------------------------------------------------
-- Heaps
-----------------------------------------------------------------------------------------

theorem Alike.newDense (alike : pairing.Alike heap other) (storage : Storage)
    : (other.newDense storage).1 = (heap.newDense storage).1
      ∧ pairing.Alike (heap.newDense storage).2 (other.newDense storage).2 := by
  refine ⟨by simp only [Heap.newDense, alike.storages], ?_⟩
  exact { alike with storages := by simp only [Heap.newDense, alike.storages] }

theorem Alike.setStorage (alike : pairing.Alike heap other) (cell : Nat) (storage : Storage)
    : pairing.Alike (heap.setStorage cell storage) (other.setStorage cell storage) :=
  { alike with storages := by simp only [Heap.setStorage, alike.storages] }

theorem Alike.newBatched (alike : pairing.Alike heap other) (matched : pairing.Matched value bare)
    (level : Level)
    : pairing.Faces (heap.newBatched value level).1 (other.newBatched bare level).1
      ∧ pairing.Alike (heap.newBatched value level).2 (other.newBatched bare level).2 :=
  ⟨.batched matched, { alike with }⟩

/-- Both runs give the same number to a new tag, as there are equally many tags in both. The new
tags remember the same shape, because the values have it.
-/
theorem Alike.newTagged (alike : pairing.Alike heap other) (matched : pairing.Matched value bare)
    (level : Level) (flag : Nat)
    : pairing.Faces (heap.newTagged value level flag).1 (other.newTagged bare level flag).1
      ∧ pairing.Alike (heap.newTagged value level flag).2 (other.newTagged bare level flag).2 := by
  constructor
  · rw [Heap.newTagged, Heap.newTagged, alike.size]
    exact .tagged (pairing.fresh alike.grown) matched
  · refine { alike with
      size := by simp [Heap.newTagged, alike.size]
      grown := by simpa [Heap.newTagged] using Nat.le_succ_of_le alike.grown
      wrappers := fun {cell cell'} linked => ?_ }
    have same : cell' = heap.wrappers.size ↔ cell = heap.wrappers.size := by
      constructor
      · rintro rfl
        exact pairing.injective linked (pairing.fresh alike.grown)
      · rintro rfl
        exact eq_of_fresh linked alike.grown
    have kept : other.wrapper cell' = heap.wrapper cell := alike.wrappers linked
    simp only [Heap.wrapper, Heap.newTagged, Array.getD_eq_getD_getElem?, Array.getElem?_push,
      alike.size, same, matched.shape_eq alike] at kept ⊢
    split
    · rfl
    · exact kept

/-- What both runs write to tags that correspond keeps the heaps alike. No other pair of tags is
written to, since a tag corresponds to one tag only.
-/
theorem Alike.setWrapper (alike : pairing.Alike heap other) (linked : pairing.link cell cell')
    (wrapper : Wrapper)
    : pairing.Alike (heap.setWrapper cell wrapper) (other.setWrapper cell' wrapper) := by
  refine { alike with
    size := by simp [Heap.setWrapper, alike.size]
    grown := by simpa [Heap.setWrapper] using alike.grown
    wrappers := fun {another another'} linked' => ?_ }
  by_cases same : cell = another
  · subst same
    obtain rfl := pairing.single linked linked'
    by_cases present : cell < heap.wrappers.size
    · have present' : cell' < other.wrappers.size := by
        rw [alike.size]
        by_cases old : cell < pairing.count
        · exact Nat.lt_of_lt_of_le ((link_lt_iff linked).mp old) alike.grown
        · rwa [eq_of_fresh linked (Nat.le_of_not_lt old)]
      rw [Heap.wrapper_setWrapper_same heap cell wrapper present,
        Heap.wrapper_setWrapper_same other cell' wrapper present']
    · -- Nothing is written to tags that are not there.
      have absent := Nat.le_of_not_lt present
      obtain rfl := eq_of_fresh linked (Nat.le_trans alike.grown absent)
      simp [Heap.wrapper, Heap.setWrapper, absent, alike.size]
  · have apart : cell' ≠ another' := by
      rintro rfl
      exact same (pairing.injective linked linked')
    rw [Heap.wrapper_setWrapper_other heap wrapper same,
      Heap.wrapper_setWrapper_other other wrapper apart]
    exact alike.wrappers linked'

/-- Looking again at tags that correspond keeps the heaps alike, as the values in them have the same
shape.
-/
theorem Alike.refresh (alike : pairing.Alike heap other) (faces : pairing.Faces tensor bare)
    : pairing.Alike (heap.refresh tensor) (other.refresh bare) := by
  cases faces with
  | dense cell => exact alike
  | tagged linked matched =>
      rw [Heap.refresh, Heap.refresh, alike.wrappers linked, matched.shape_eq alike]
      exact alike.setWrapper linked _
  | batched matched => exact alike

/-- So does recording an operator on them. -/
theorem Alike.recordGradFn (alike : pairing.Alike heap other) (faces : pairing.Faces tensor bare)
    (op : String)
    : pairing.Alike (heap.recordGradFn op tensor) (other.recordGradFn op bare) := by
  cases faces with
  | dense cell => exact alike
  | tagged linked matched =>
      rw [Heap.recordGradFn, Heap.recordGradFn, alike.wrappers linked]
      exact alike.setWrapper linked _
  | batched matched => exact alike

-----------------------------------------------------------------------------------------
-- States
-----------------------------------------------------------------------------------------

variable {machine twin reached reached' held held' : Machine}

theorem Twins.alike (h : pairing.Twins machine twin) : pairing.Alike machine.heap twin.heap :=
  h.memory.heap

theorem Twins.layers (h : pairing.Twins machine twin)
    : twin.thread.layers = machine.thread.layers :=
  congrArg Ambient.layers h.ambient

theorem Twins.grad (h : pairing.Twins machine twin) : twin.thread.grad = machine.thread.grad :=
  congrArg Ambient.grad h.ambient

/-- The two states hide the same hooks, since the interceptors are included and not excluded. -/
theorem Twins.excluded (h : pairing.Twins machine twin)
    : twin.thread.overlay.excluded = machine.thread.overlay.excluded :=
  congrArg (fun ambient => ambient.overlay.excluded) h.ambient

/-- Of the hooks for random operators both states force on the same ones. -/
theorem Twins.forces_batchMode (h : pairing.Twins machine twin)
    : twin.thread.overlay.forces .batchMode ↔ machine.thread.overlay.forces .batchMode := by
  have included := congrArg (fun ambient => ambient.overlay.included.contains .batchMode) h.ambient
  simp only [Ambient.intercepting, Overlay.setInterception, Overlay.setIncluded, Machine.ambient,
    CapabilitySet.set, if_true, CapabilitySet.contains_insert] at included
  simp only [reduceCtorEq, decide_false, Bool.or_false] at included
  rw [Overlay.forces, Overlay.forces, h.excluded, included]

theorem Twins.returns (h : pairing.Twins machine twin) (returns : machine.Returns reached)
    (returns' : twin.Returns reached') (memory : pairing.Agrees reached.memory reached'.memory)
    : pairing.Twins reached reached' where
  ambient := by rw [returns'.toResumes.intercepting_eq, h.ambient, returns.toResumes.intercepting_eq]
  registry := by rw [returns'.registry, h.registry, returns.registry]
  settings := by rw [returns'.settings, h.settings, returns.settings]
  memory := memory

/-- Boxed values are of no account. -/
theorem Twins.put (h : pairing.Twins machine twin) (values values' : List Value)
    : pairing.Twins { machine with values := values } { twin with values := values' } :=
  ⟨h.ambient, h.registry, h.settings, h.memory⟩

/-- Guards of the same kind in both runs lead to states that correspond, up to the interceptors. -/
theorem Twins.shifted {ambient ambient' : Ambient} (h : pairing.Twins machine twin)
    (shifted : machine.Shifted ambient held) (shifted' : twin.Shifted ambient' held')
    (same : ambient'.intercepting = ambient.intercepting)
    : pairing.Twins held held' where
  ambient := by rw [shifted'.ambient, shifted.ambient, same]
  registry := by rw [shifted'.registry, h.registry, shifted.registry]
  settings := by rw [shifted'.settings, h.settings, shifted.settings]
  memory := by
    rw [shifted.memory, shifted'.memory]
    exact h.memory

theorem Twins.hide (h : pairing.Twins machine twin) {set : CapabilitySet}
    (shifted : machine.Shifted (machine.ambient.hide set) held)
    (shifted' : twin.Shifted (twin.ambient.hide set) held')
    : pairing.Twins held held' :=
  h.shifted shifted shifted' (congrArg (Ambient.hide · set) h.ambient)

theorem Twins.enter (h : pairing.Twins machine twin) {kind : TransformKind}
    (shifted : machine.Shifted (machine.ambient.enter kind) held)
    (shifted' : twin.Shifted (twin.ambient.enter kind) held')
    : pairing.Twins held held' := by
  refine h.shifted shifted shifted' (congrArg Ambient.intercepting ?_)
  rw [← machine.ambient.enter_intercepting, ← twin.ambient.enter_intercepting, h.ambient]

theorem Twins.leave (h : pairing.Twins machine twin) {layer : Layer} {below : List Layer}
    (shifted : machine.Shifted (machine.ambient.leave layer below) held)
    (shifted' : twin.Shifted (twin.ambient.leave layer below) held')
    : pairing.Twins held held' := by
  refine h.shifted shifted shifted' ?_
  rw [← machine.ambient.leave_intercepting, ← twin.ambient.leave_intercepting, h.ambient]

end Pairing
end LayeredDispatch
