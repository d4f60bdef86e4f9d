import LayeredDispatch.Proofs.Dispatch.Selection

/-! The overlays under which the calls of a layer are issued: in front of the layer the entry
interceptor is forced on, in its body the hooks of the other transform are hidden. Main statements:
which kernel handles a call in front of a layer, and which one in its body.
-/

namespace LayeredDispatch

/-- A hook that is reachable whatever the arguments are. -/
def Overlay.forces (overlay : Overlay) (capability : Capability) : Prop :=
  overlay.included.contains capability = true ∧ overlay.excluded.contains capability = false

/-- A hook that the overlay forces is in every dispatch set that the overlay makes. -/
theorem Overlay.forces.apply {overlay : Overlay} {capability : Capability}
    (h : overlay.forces capability) (carried : CapabilitySet)
    : (overlay.apply carried).contains capability = true := by
  simp [h.1, h.2]

/-- Forcing survives when other hooks are hidden. -/
theorem Overlay.forces.hide {overlay : Overlay} {capability : Capability}
    (h : overlay.forces capability) {set : CapabilitySet}
    (apart : set.contains capability = false)
    : Overlay.forces { overlay with excluded := overlay.excluded ∪ set } capability :=
  ⟨h.1, by simp [h.2, apart]⟩

/-- Forcing survives when the interceptors are included. -/
theorem Overlay.forces.intercepting {overlay : Overlay} {capability : Capability}
    (h : overlay.forces capability)
    : (overlay.setInterception true).forces capability :=
  ⟨by simp [setInterception, setIncluded, CapabilitySet.set, h.1], h.2⟩

/-- In the body of a layer the exit interceptor is forced on, for both kinds of layers and whatever
overlay the call had in front of the layer.
-/
theorem TransformKind.entryOverlay_forces (kind : TransformKind) (overlay : Overlay)
    : (kind.entryOverlay overlay).forces .exitInterceptor := by
  cases kind <;> constructor <;> simp [entryOverlay, Overlay.enable]

/-- Above the base the entry interceptor is forced on when a call leaves a layer. -/
theorem Overlay.front_forces (overlay : Overlay) : overlay.front.forces .entryInterceptor := by
  constructor <;> simp [front, enable]

/-- What the overlay in the body of a layer of some kind has in common with the one under which the
body started.
-/
structure Overlay.InBody (kind : TransformKind) (overlay : Overlay) : Prop where
  exit : overlay.forces .exitInterceptor
  entry : overlay.excluded.contains .entryInterceptor = true
  taggedWrapper : overlay.excluded.contains .taggedWrapper = true
  others
    : match kind with
      | .differentiation =>
          overlay.excluded.contains .batched = true
          ∧ overlay.excluded.contains .batchMode = true
      | .batching => overlay.excluded.contains .differentiation = true
  carried
    : overlay.included.contains .batched = false
      ∧ overlay.included.contains .differentiation = false

/-- The overlay with which the body of a layer starts has all that bodies rely on. Both kinds zero
the overlay first and then enable what belongs to the layer, so nothing depends on the overlay that
the call came with.
-/
theorem TransformKind.entryOverlay_inBody (kind : TransformKind) (overlay : Overlay)
    : (kind.entryOverlay overlay).InBody kind := by
  cases kind <;> constructor <;>
    simp [Overlay.forces, entryOverlay, Overlay.enable, Overlay.zeroed, owned,
      CapabilitySet.interception, CapabilitySet.ofList, CapabilitySet.only, Capability.all]

/-- When the body of a batching layer starts, batches are still to be taken care of. -/
theorem TransformKind.entryOverlay_shown (overlay : Overlay)
    : (TransformKind.batching.entryOverlay overlay).excluded.contains .batched = false := by
  simp [entryOverlay, Overlay.enable, owned, CapabilitySet.only]

/-- The body of a differentiation layer shows the hook of the layer. -/
theorem TransformKind.entryOverlay_differentiation (overlay : Overlay)
    : (TransformKind.differentiation.entryOverlay overlay).excluded.contains .differentiation
      = false := by
  simp [entryOverlay, Overlay.enable, owned, CapabilitySet.ofList]

namespace Overlay.InBody

variable {kind : TransformKind} {overlay : Overlay}

/-- Hooks other than the exit interceptor may be hidden in the body of a layer. The rules of
batching layers do so before they issue their calls.
-/
theorem hide (h : overlay.InBody kind) {set : CapabilitySet}
    (apart : set.contains .exitInterceptor = false)
    : Overlay.InBody kind { overlay with excluded := overlay.excluded ∪ set } where
  exit := h.exit.hide apart
  entry := by simp [h.entry]
  taggedWrapper := by simp [h.taggedWrapper]
  others := by
    have others := h.others
    cases kind with
    | differentiation => simp [others.1, others.2]
    | batching => simp [show overlay.excluded.contains .differentiation = true from others]
  carried := h.carried

/-- The interceptors may be included in the body of a layer, as a layer does that comes back when
its thread was otherwise empty.
-/
theorem intercepting (h : overlay.InBody kind) : (overlay.setInterception true).InBody kind where
  exit := h.exit.intercepting
  entry := h.entry
  taggedWrapper := h.taggedWrapper
  others := h.others
  carried := by
    simp [setInterception, setIncluded, CapabilitySet.set, h.carried.1, h.carried.2]

end Overlay.InBody

namespace Dispatcher

variable {op : Schema} {overlay : Overlay} (carried : CapabilitySet)

/-- In front of a layer every call is handled by the entry interceptor, whatever its operator and
its arguments are.
-/
theorem select_front (front : overlay.forces .entryInterceptor)
    : standard.select op (overlay.apply carried)
      = some (.entryInterceptor, entryInterceptor) := by
  rw [select_standard, front.apply carried, if_pos rfl]

/-- In the body of a differentiation layer a call is handled by the body, if some argument is tagged
and the hook is not hidden, or by the exit interceptor. All other hooks are hidden in such a body,
so they drop out of the chain of `select_standard`.
-/
theorem select_differentiation (inBody : overlay.InBody .differentiation)
    : standard.select op (overlay.apply carried) =
        if carried.contains .differentiation && !overlay.excluded.contains .differentiation then
          some (.differentiation, differentiationBody)
        else some (.exitInterceptor, exitInterceptor) := by
  have others := inBody.others
  simp only [select_standard, Overlay.contains_apply, inBody.entry, inBody.taggedWrapper, others.1,
    others.2, inBody.carried.2, inBody.exit.1, inBody.exit.2]
  simp

/-- In the body of a batching layer a call is handled by the rule for random operators, by the rule
of the operator, if some argument is batched, or by the exit interceptor. The mode is asked for in
the overlay, the batches in the arguments.
-/
theorem select_batching (inBody : overlay.InBody .batching)
    : standard.select op (overlay.apply carried) =
        if (overlay.apply carried).contains .batchMode ∧ op.name = "rand" then
          some (.batchMode, Batching.random)
        else if carried.contains .batched && !overlay.excluded.contains .batched then
          some (.batched, batchRule op.name)
        else some (.exitInterceptor, exitInterceptor) := by
  have others : overlay.excluded.contains .differentiation = true := inBody.others
  have entry : (overlay.apply carried).contains .entryInterceptor = false := by
    simp [inBody.entry]
  have batched
      : (overlay.apply carried).contains .batched
        = (carried.contains .batched && !overlay.excluded.contains .batched) := by
    simp [inBody.carried.1]
  have differentiation : (overlay.apply carried).contains .differentiation = false := by
    simp [others]
  have taggedWrapper : (overlay.apply carried).contains .taggedWrapper = false := by
    simp [inBody.taggedWrapper]
  rw [select_standard, entry, batched, differentiation, taggedWrapper, inBody.exit.apply carried]
  simp

end Dispatcher

mutual
/-- A value carries a hook above the base exactly if one of its tensors does. The base itself is
carried by every value, even by one without tensors.
-/
theorem contains_capabilities {capability : Capability} (above : capability ≠ .backend) (heap : Heap)
    (value : Value)
    : (value.capabilities heap).contains capability
      = value.tensors.any fun tensor => (tensor.capabilities heap).contains capability := by
  cases value with
  | tensor handle => simp [Value.capabilities, Value.tensors]
  | list items =>
      rw [Value.capabilities, Value.tensors]
      exact contains_carried above heap items
  | absent | bool _ | int _ | float _ | ints _ =>
      simp [Value.capabilities, Value.tensors, CapabilitySet.only, Ne.symm above]

/-- The hooks that values carry are those of their tensors. The induction is on the values, together
with the statement about one value.
-/
theorem contains_carried {capability : Capability} (above : capability ≠ .backend) (heap : Heap)
    (values : List Value)
    : (Value.carried heap values).contains capability
      = (Value.tensorsAll values).any fun tensor =>
          (tensor.capabilities heap).contains capability := by
  cases values with
  | nil => simp [Value.carried, Value.tensorsAll, CapabilitySet.only, Ne.symm above]
  | cons value values =>
      rw [Value.carried, CapabilitySet.contains_union, contains_capabilities above heap value,
        contains_carried above heap values, Value.tensorsAll, List.any_append]
end

/-- Values that carry no hooks of wrappers have dense tensors only, because each kind of wrapper
shows in the hooks of the tensor that it is around.
-/
theorem Value.dense_of_carried {heap : Heap} {values : List Value}
    (tagged : (carried heap values).contains .taggedWrapper = false)
    (batched : (carried heap values).contains .batched = false)
    : (tensorsAll values).all Tensor.isDense = true := by
  rw [contains_carried (by decide), List.any_eq_false] at tagged batched
  refine List.all_eq_true.mpr fun tensor member => ?_
  have tagged := tagged tensor member
  have batched := batched tensor member
  cases tensor with
  | dense cell => rfl
  | tagged cell level flag inner =>
      rw [Tensor.capabilities] at tagged
      split at tagged <;> exact absurd rfl tagged
  | batched handle level inner =>
      rw [Tensor.capabilities] at batched
      exact absurd rfl batched

end LayeredDispatch
