import LayeredDispatch.Proofs.Dispatch.Phases
import LayeredDispatch.Proofs.Dispatch.Meets
import LayeredDispatch.Proofs.Dispatch.Scoping
import LayeredDispatch.Proofs.Dispatch.Stacks

/-! The live wrappers around a tensor and the layers that own them. Main statements: what the
interceptors make of a tensor at a layer keeps track of the wrappers that the layers below must own.
-/

namespace LayeredDispatch

open Run

/-- The wrappers around a tensor that are not dead tags, outermost first: the kind of transform that
makes such wrappers, and the level.
-/
def Tensor.liveWrappers (heap : Heap) : Tensor → List (TransformKind × Level)
  | .dense _ => []
  | .tagged _ level flag value =>
      if heap.isAlive flag then (.differentiation, level) :: value.liveWrappers heap
      else value.liveWrappers heap
  | .batched _ level value => (.batching, level) :: value.liveWrappers heap

/-- The wrappers that a layer owns. -/
def Layer.wraps (layer : Layer) : TransformKind × Level :=
  (layer.kind, layer.level)

/-- Every live wrapper around the tensors among some values, members of lists included, is owned by
one of the layers, which are listed top first: the outermost one by the uppermost layer.
-/
def Layer.Own (layers : List Layer) (heap : Heap) (values : List Value) : Prop :=
  ∀ tensor ∈ Value.tensorsAll values,
    (tensor.liveWrappers heap).Sublist (layers.map Layer.wraps)

/-- Whether a flag is alive depends on the flags of the heap only. -/
theorem Heap.isAlive_congr {heap other : Heap} (flags : other.flags = heap.flags) (flag : Nat)
    : other.isAlive flag = heap.isAlive flag := by
  rw [isAlive, isAlive, flags]

/-- So do the live wrappers around a tensor. -/
theorem Tensor.liveWrappers_congr {heap other : Heap} (flags : other.flags = heap.flags)
    (tensor : Tensor)
    : tensor.liveWrappers other = tensor.liveWrappers heap := by
  induction tensor with
  | dense cell => rfl
  | tagged cell level flag value ih => simp only [liveWrappers, Heap.isAlive_congr flags, ih]
  | batched handle level value ih => simp only [liveWrappers, ih]

/-- Dead tags do not count, so taking them off changes no live wrapper. -/
theorem Tensor.liveWrappers_unwrapDead (heap : Heap) (tensor : Tensor)
    : (tensor.unwrapDead heap).liveWrappers heap = tensor.liveWrappers heap := by
  induction tensor with
  | dense cell => rfl
  | tagged cell level flag value ih =>
      cases alive : heap.isAlive flag with
      | true => simp [unwrapDead, alive]
      | false => simpa [unwrapDead, liveWrappers, alive] using ih
  | batched handle level value ih => rfl

/-- A tag adds a live wrapper at most, on the outside. -/
theorem Tensor.liveWrappers_tagged (heap : Heap) (cell : Nat) (level : Level) (flag : Nat)
    (value : Tensor)
    : (value.liveWrappers heap).Sublist
        ((Tensor.tagged cell level flag value).liveWrappers heap) := by
  cases alive : heap.isAlive flag <;> simp [liveWrappers, alive]

namespace Layer

variable {layers below : List Layer} {heap other : Heap} {values : List Value}

/-- Ownership depends on the flags of the heap only. -/
theorem Own.congr (h : Own layers heap values) (flags : other.flags = heap.flags)
    : Own layers other values := by
  intro tensor member
  rw [Tensor.liveWrappers_congr flags]
  exact h tensor member

/-- What the layers below own, all layers own. -/
theorem Own.above {layer : Layer} (h : Own below heap values) : Own (layer :: below) heap values :=
  fun tensor member => (h tensor member).cons _

theorem own_nil : Own layers heap [] :=
  List.forall_mem_nil _

/-- Several values are owned if the first one is and the others are. -/
theorem own_cons {value : Value}
    : Own layers heap (value :: values) ↔ Own layers heap [value] ∧ Own layers heap values := by
  simp only [Own, Value.tensorsAll, List.mem_append, List.not_mem_nil, or_false]
  constructor
  · exact fun h => ⟨fun tensor member => h tensor (Or.inl member),
      fun tensor member => h tensor (Or.inr member)⟩
  · rintro ⟨head, tail⟩ tensor (member | member)
    · exact head tensor member
    · exact tail tensor member

/-- A tensor is owned if its live wrappers are those of some of the layers in their order. -/
theorem own_tensor {tensor : Tensor}
    : Own layers heap [.tensor tensor]
      ↔ (tensor.liveWrappers heap).Sublist (layers.map wraps) := by
  simp [Own, Value.tensorsAll, Value.tensors]

/-- Dense tensors need no owner. -/
theorem own_of_dense (dense : (Value.tensorsAll values).all Tensor.isDense = true)
    : Own layers heap values := by
  intro tensor member
  have dense := List.all_eq_true.mp dense tensor member
  cases tensor with
  | dense cell => exact List.nil_sublist _
  | tagged cell level flag value => cases dense
  | batched handle level value => cases dense

end Layer

theorem Value.tensor?_eq_some {value : Value} {tensor : Tensor} (found : value.tensor? = some tensor)
    : value = .tensor tensor := by
  cases value <;> cases found
  rfl

/-- A tensor has a physical value at a level if it is batched at this level. -/
theorem Tensor.physicalAt?_eq_some {tensor physical : Tensor} {level : Level}
    (found : tensor.physicalAt? level = some physical)
    : ∃ handle, tensor = .batched handle level physical := by
  cases tensor with
  | dense cell => cases found
  | tagged cell level flag value => cases found
  | batched handle own value =>
      simp only [physicalAt?] at found
      split at found
      · rename_i same
        cases found
        exact ⟨handle, by rw [same]⟩
      · cases found

namespace Run

variable {machine reached : Machine} {tensor result : Tensor} {level : Level}

/-- Tagging puts a tag of the level around the tensor and does nothing to what is inside. -/
theorem tagAt_ok (ended : tagAt tensor level machine = .ok result reached)
    : ∃ cell flag, result = .tagged cell level flag tensor := by
  obtain ⟨flag, found, _, ended⟩ := bind_ok ended
  cases ended
  exact ⟨_, flag, rfl⟩

/-- Making sure of a tag leaves a tensor that has one as it is. -/
theorem materializeAt_ok (ended : materializeAt tensor level machine = .ok result reached)
    : result = tensor ∨ ∃ cell flag, result = .tagged cell level flag tensor := by
  cases tagged : tensor.taggedLevel? with
  | none =>
      simp only [materializeAt, tagged] at ended
      exact Or.inr (tagAt_ok ended)
  | some other =>
      simp only [materializeAt, tagged] at ended
      split at ended
      · cases ended
        exact Or.inl rfl
      split at ended
      · exact Or.inr (tagAt_ok ended)
      · cases ended

/-- Taking a tag off leaves a tensor that has none as it is. A tag of another level is not taken
off.
-/
theorem unwrapAt_ok (ended : unwrapAt tensor level machine = .ok result reached)
    : result = tensor ∨ ∃ cell flag, tensor = .tagged cell level flag result := by
  cases tensor with
  | tagged cell tagged flag inner =>
      simp only [unwrapAt] at ended
      split at ended
      · cases ended
      split at ended
      · rename_i same
        cases ended
        exact Or.inr ⟨cell, flag, by rw [same]⟩
      · cases ended
        exact Or.inl rfl
  | dense cell =>
      cases ended
      exact Or.inl rfl
  | batched handle level inner =>
      cases ended
      exact Or.inl rfl

/-- What the entry interceptor makes of a tensor has the live wrappers of the tensor. It takes dead
tags off, and may add a tag on the outside.
-/
theorem receive_ok {layer : Layer} (ended : receive layer tensor machine = .ok result reached)
    : (tensor.liveWrappers machine.heap).Sublist (result.liveWrappers machine.heap) := by
  obtain ⟨bare, same, found, ended⟩ := bind_ok ended
  cases found
  rw [← Tensor.liveWrappers_unwrapDead]
  cases kind : layer.kind with
  | differentiation =>
      simp only [kind] at ended
      rcases materializeAt_ok ended with rfl | ⟨cell, flag, rfl⟩
      · exact List.Sublist.refl _
      · exact Tensor.liveWrappers_tagged machine.heap cell layer.level flag _
  | batching =>
      simp only [kind] at ended
      cases ended
      exact List.Sublist.refl _

/-- What is left without a tag of the top layer is owned below the layer if the tensor is owned at
all: a tag that was taken off, alive or dead, belongs to the layer.
-/
theorem unwrapAt_owned {layer : Layer} {below : List Layer}
    (kind : layer.kind = .differentiation)
    (ended : unwrapAt tensor layer.level machine = .ok result reached)
    {heap : Heap} (owned : (result.liveWrappers heap).Sublist (below.map Layer.wraps))
    : (tensor.liveWrappers heap).Sublist ((layer :: below).map Layer.wraps) := by
  rcases unwrapAt_ok ended with rfl | ⟨cell, flag, rfl⟩
  · exact owned.cons _
  · unfold Tensor.liveWrappers
    split
    · rw [List.map_cons, Layer.wraps, kind]
      exact owned.cons_cons _
    · exact owned.cons _

end Run

/-- Layers that can be left: their levels are those of their positions, and below them nothing is
included or excluded.
-/
structure Layer.Grounded (layers : List Layer) : Prop where
  levelled : Layer.Levelled layers
  saved : ∀ layer ∈ layers.getLast?, layer.saved = {}

/-- Layers that can be left can be left one after another. -/
theorem Layer.Grounded.below {layer : Layer} {below : List Layer}
    (h : Layer.Grounded (layer :: below))
    : Layer.Grounded below := by
  refine ⟨h.levelled.2, fun bottom last => ?_⟩
  cases below with
  | nil => cases last
  | cons next rest => exact h.saved bottom (by rwa [List.getLast?_cons_cons])

/-- The layers that must own the wrappers around the arguments of a call, by where the call is: below
all layers, in front of the top layer, in its body, or on the way out of the body of a batching layer
after batches have been taken care of.
-/
inductive Ambient.Owners : Ambient → List Layer → Prop where
  | base {ambient : Ambient} (layers : ambient.layers = []) (overlay : ambient.overlay = {})
    : Owners ambient []
  | front {ambient : Ambient} (active : ambient.layers ≠ [])
    (grounded : Layer.Grounded ambient.layers)
    (front : ambient.overlay.forces .entryInterceptor)
    : Owners ambient ambient.layers
  | body {ambient : Ambient} {layer : Layer} {below : List Layer}
    (top : ambient.layers = layer :: below) (grounded : Layer.Grounded (layer :: below))
    (inBody : ambient.overlay.InBody layer.kind)
    (shown : layer.kind = .batching → ambient.overlay.excluded.contains .batched = false)
    : Owners ambient (layer :: below)
  | leaving {ambient : Ambient} {layer : Layer} {below : List Layer}
    (top : ambient.layers = layer :: below) (grounded : Layer.Grounded (layer :: below))
    (kind : layer.kind = .batching) (inBody : ambient.overlay.InBody .batching)
    (hidden : ambient.overlay.excluded.contains .batched = true)
    : Owners ambient below

namespace Ambient.Owners

variable {ambient : Ambient} {owners below : List Layer} {layer : Layer}

/-- Including the interceptors does not move a call to another place. -/
theorem intercepting (h : ambient.Owners owners) (active : ambient.layers ≠ [])
    : ambient.intercepting.Owners owners := by
  cases h with
  | base layers overlay => exact absurd layers active
  | front active grounded front => exact .front active grounded front.intercepting
  | body top grounded inBody shown => exact .body top grounded inBody.intercepting shown
  | leaving top grounded kind inBody hidden =>
      exact .leaving top grounded kind inBody.intercepting hidden

/-- A call stays where it is when the state is handed back. -/
theorem resumes {machine reached : Machine} (h : machine.ambient.Owners owners)
    (resumes : machine.Resumes reached)
    : reached.ambient.Owners owners := by
  rcases resumes.ambient with same | ⟨active, included⟩
  · rwa [same]
  · rw [included]
    exact h.intercepting active

/-- Below a layer a call is in front of the next layer, or below all of them. There the bottom layer
has saved an empty overlay, which is what the base needs.
-/
theorem leave (top : ambient.layers = layer :: below)
    (grounded : Layer.Grounded (layer :: below))
    : (ambient.leave layer below).Owners below := by
  cases below with
  | nil => exact .base rfl (grounded.saved layer (by simp))
  | cons next rest =>
      exact .front (List.cons_ne_nil next rest) grounded.below (Overlay.front_forces _)

/-- From the front of a layer a call comes into its body, where all layers own wrappers still. -/
theorem enter (top : ambient.layers = layer :: below)
    (grounded : Layer.Grounded (layer :: below))
    : (ambient.enter layer.kind).Owners (layer :: below) := by
  refine .body top grounded (layer.kind.entryOverlay_inBody _) ?_
  intro kind
  rw [kind]
  exact TransformKind.entryOverlay_shown _

/-- The body of a differentiation layer goes on with its hooks hidden. -/
theorem hide_differentiation (top : ambient.layers = layer :: below)
    (grounded : Layer.Grounded (layer :: below)) (kind : layer.kind = .differentiation)
    (inBody : ambient.overlay.InBody .differentiation)
    : (ambient.hide TransformKind.differentiation.owned).Owners (layer :: below) := by
  refine .body top grounded ?_ fun batching => ?_
  · rw [kind]
    exact inBody.hide rfl
  · rw [kind] at batching
    cases batching

/-- In the body of a batching layer with its hook hidden a call is on its way out. -/
theorem hide_batched (top : ambient.layers = layer :: below)
    (grounded : Layer.Grounded (layer :: below)) (kind : layer.kind = .batching)
    (inBody : ambient.overlay.InBody .batching)
    : (ambient.hide (.only .batched)).Owners below := by
  refine .leaving top grounded kind (inBody.hide rfl) ?_
  simp [Ambient.hide, CapabilitySet.only]

end Ambient.Owners

/-- The layers of a founded stack can be left. -/
theorem Machine.Founded.grounded {machine : Machine} (founded : machine.Founded)
    : Layer.Grounded machine.thread.layers :=
  ⟨founded.levelled, founded.saved⟩

/-- While a layer is active the overlay of a founded stack forces the entry interceptor on. -/
theorem Machine.Founded.front {machine : Machine} (founded : machine.Founded)
    (active : machine.thread.layers ≠ [])
    : machine.ambient.overlay.forces .entryInterceptor := by
  have occupied : machine.thread.layers.isEmpty = false := List.isEmpty_eq_false_iff.mpr active
  simp only [Machine.ambient, founded.overlay, occupied]
  exact ⟨rfl, rfl⟩

/-- Where a call starts under a built stack: in front of the top layer, or below all layers if there
are none.
-/
theorem Machine.Founded.owners {machine : Machine} (founded : machine.Founded)
    : machine.ambient.Owners machine.thread.layers := by
  have overlay := founded.overlay
  cases layers : machine.thread.layers with
  | nil =>
      rw [layers] at overlay
      exact .base layers overlay
  | cons layer below =>
      have active : machine.ambient.layers ≠ [] := by simp [Machine.ambient, layers]
      have owners := Ambient.Owners.front active founded.grounded (founded.front active)
      rwa [show machine.ambient.layers = layer :: below from layers] at owners

end LayeredDispatch
