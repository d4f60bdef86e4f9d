import LayeredDispatch.Proofs.Dispatch.Meets
import LayeredDispatch.Proofs.Families.Operands

/-! Tensors that cross a layer boundary read as they did before. Main statements: what the
interceptors make of an operand stands in for it, and none of their steps fails on tensors that fit
the layers.
-/

namespace LayeredDispatch

open Run

/-- Only batching layers have a batch size. -/
theorem Layer.kind_of_batchSize? {layer : Layer} {size : Nat}
    (found : layer.transform.batchSize? = some size)
    : layer.kind = .batching := by
  unfold Layer.kind
  cases transform : layer.transform with
  | differentiation grad forwardGrad => simp [transform, Transform.batchSize?] at found
  | batching size randomness => rfl

/-- Every batching layer has one. -/
theorem Layer.exists_batchSize? {layer : Layer} (kind : layer.kind = .batching)
    : ∃ size, layer.transform.batchSize? = some size := by
  rcases layer with ⟨transform, level, saved⟩
  cases transform with
  | differentiation grad forwardGrad => cases kind
  | batching size randomness => exact ⟨size, rfl⟩

/-- A new tag remembers the shape of its value. -/
theorem Heap.wrapper_newTagged (heap : Heap) (value : Tensor) (level : Level) (flag : Nat)
    : (heap.newTagged value level flag).2.wrapper heap.wrappers.size
      = { shape := value.shape heap } := by
  simp [newTagged, Heap.wrapper]

namespace Tensor

variable {heap : Heap} {layer : Layer} {below layers : List Layer} {tensor : Tensor}

/-- Tensors that fit the layers have no dead tags, so there is nothing to take off. -/
theorem Fits.unwrapDead (h : tensor.Fits heap layers) : tensor.unwrapDead heap = tensor := by
  induction h with
  | dense present sized => rfl
  | alone fits ih => exact ih
  | tagged kind alive present accurate fits ih => exact if_pos alive
  | batched batch outermost fits ih => rfl

/-- No tag around such a tensor has a level above the layers. -/
theorem Fits.taggedLevel_le (h : tensor.Fits heap layers) (levelled : Layer.Levelled layers)
    {level : Level} (found : tensor.taggedLevel? = some level)
    : level ≤ layers.length := by
  cases tensor with
  | tagged cell own flag value =>
      cases found
      exact h.level_le levelled List.mem_cons_self
  | dense cell => cases found
  | batched handle own value => cases found

/-- A value and the value with a tag around it are the same family. -/
theorem Fits.standsFor_tagged {cell flag : Nat} {value : Tensor}
    (h : Fits heap (layer :: below) (.tagged cell layer.level flag value))
    (levelled : Layer.Levelled (layer :: below))
    : StandsFor below heap (.tagged cell layer.level flag value) heap value := by
  cases h with
  | tagged kind alive present accurate fits =>
      refine ⟨fits, ?_, fun index => rfl⟩
      rw [Tensor.shape, if_pos alive, accurate]
  | alone fits =>
      have le := fits.level_le levelled.2 List.mem_cons_self
      rw [levelled.1] at le
      exact absurd le (Nat.not_succ_le_self _)

/-- A new tag of the top layer changes no family. It is alive because the level is registered, and
the shape that it remembers is the one of the value.
-/
theorem Fits.standsFor_newTagged {flag : Nat} (h : tensor.Fits heap below)
    (kind : layer.kind = .differentiation) (alive : heap.isAlive flag = true)
    : StandsFor (layer :: below) heap tensor (heap.newTagged tensor layer.level flag).2
        (heap.newTagged tensor layer.level flag).1 := by
  have grows := heap.grows_newTagged tensor layer.level flag
  have read := heap.wrapper_newTagged tensor layer.level flag
  have stands := h.grows grows
  have alive' := (Heap.isAlive_congr grows.flags flag).trans alive
  refine ⟨?_, ?_, stands.member⟩
  · refine .tagged kind alive' (by simp [Heap.newTagged]) ?_ stands.fits
    rw [read, stands.shape]
  · exact (if_pos alive').trans (congrArg Wrapper.shape read)

/-- A new batch of the top layer has the entries of the value as members. The outermost dimension of
the value must be the size of the batch.
-/
theorem Fits.newBatched {size : Nat} (h : tensor.Fits heap below)
    (batch : layer.transform.batchSize? = some size)
    (outermost : (tensor.shape heap).dims.head? = some size)
    : Fits (heap.newBatched tensor layer.level).2 (layer :: below)
        (heap.newBatched tensor layer.level).1 := by
  have stands := h.grows (heap.grows_newBatched tensor layer.level)
  exact .batched batch (by rwa [stands.shape]) stands.fits

end Tensor

namespace Run

variable {machine : Machine} {failed : Exit → Prop} {layer : Layer} {below : List Layer}
  {tensor : Tensor}

/-- A tag of a registered differentiation layer changes no family, and it can always be made. -/
theorem Meets.tagAt (registered : machine.Registered) (active : layer ∈ machine.thread.layers)
    (kind : layer.kind = .differentiation) (fits : tensor.Fits machine.heap below)
    : (Run.tagAt tensor layer.level).Meets machine
        (fun result values heap =>
          values = machine.values
          ∧ machine.heap.Grows heap
          ∧ Tensor.StandsFor (layer :: below) machine.heap tensor heap result)
        failed := by
  obtain ⟨flag, found, alive⟩ := registered layer active
  have tagged
      : Run.tagAt tensor layer.level machine
        = .ok (machine.heap.newTagged tensor layer.level flag).1
            { machine with heap := (machine.heap.newTagged tensor layer.level flag).2 } := by
    simp only [Run.tagAt, levelFlag, bind_apply, read_apply, found, pure_apply, allocate_apply]
  refine (quiet_writing.tagAt tensor layer.level).meets tagged ⟨rfl, ?_, ?_⟩
  · exact machine.heap.grows_newTagged tensor layer.level flag
  · exact fits.standsFor_newTagged kind alive

/-- What the entry interceptor makes of an operand stands in for it. It adds a tag of the layer
where there is none, and it cannot meet a wrapper of a higher level.
-/
theorem Meets.receive (registered : machine.Registered)
    (active : layer ∈ machine.thread.layers) (levelled : Layer.Levelled (layer :: below))
    (fits : tensor.Fits machine.heap (layer :: below))
    : (LayeredDispatch.receive layer tensor).Meets machine
        (fun result values heap =>
          values = machine.values
          ∧ machine.heap.Grows heap
          ∧ Tensor.StandsFor (layer :: below) machine.heap tensor heap result)
        failed := by
  have kept
      : machine.values = machine.values
        ∧ machine.heap.Grows machine.heap
        ∧ Tensor.StandsFor (layer :: below) machine.heap tensor machine.heap tensor :=
    ⟨rfl, .refl _, fits.standsFor⟩
  refine (quiet_read _).step rfl ?_
  simp only [fits.unwrapDead]
  cases kind : layer.kind with
  | batching => exact meets_pure kept
  | differentiation =>
      cases fits with
      | alone fits =>
          dsimp only [materializeAt]
          cases found : tensor.taggedLevel? with
          | none => exact .tagAt registered active kind fits
          | some level =>
              have lower : level < layer.level := by
                rw [levelled.1]
                exact Nat.lt_succ_of_le (fits.taggedLevel_le levelled.2 found)
              dsimp only
              rw [if_neg (Nat.ne_of_lt lower), if_pos lower]
              exact .tagAt registered active kind fits
      | tagged _ alive present accurate fits =>
          dsimp only [materializeAt, Tensor.taggedLevel?]
          rw [if_pos rfl]
          exact meets_pure kept
      | batched batch outermost fits =>
          rw [Layer.kind_of_batchSize? batch] at kind
          cases kind

/-- What is left of an operand without a tag of the top layer stands in for it, and fits the layers
below.
-/
theorem Meets.unwrapAt (kind : layer.kind = .differentiation)
    (levelled : Layer.Levelled (layer :: below)) (fits : tensor.Fits machine.heap (layer :: below))
    : (Run.unwrapAt tensor layer.level).Meets machine
        (fun result values heap =>
          values = machine.values
          ∧ machine.heap.Grows heap
          ∧ Tensor.StandsFor below machine.heap tensor heap result)
        failed := by
  cases fits with
  | alone fits =>
      have kept
          : machine.values = machine.values
            ∧ machine.heap.Grows machine.heap
            ∧ Tensor.StandsFor below machine.heap tensor machine.heap tensor :=
        ⟨rfl, .refl _, fits.standsFor⟩
      cases tensor with
      | dense cell => exact meets_pure kept
      | batched handle level value => exact meets_pure kept
      | tagged cell level flag value =>
          have lower : level < layer.level := by
            rw [levelled.1]
            exact Nat.lt_succ_of_le (fits.level_le levelled.2 List.mem_cons_self)
          dsimp only [Run.unwrapAt]
          rw [if_neg (Nat.not_lt_of_gt lower), if_neg (Nat.ne_of_lt lower)]
          exact meets_pure kept
  | tagged _ alive present accurate fits =>
      dsimp only [Run.unwrapAt]
      rw [if_neg (Nat.lt_irrefl _), if_pos rfl]
      refine meets_pure ⟨rfl, .refl _, ?_⟩
      exact (Tensor.Fits.tagged kind alive present accurate fits).standsFor_tagged levelled
  | batched batch outermost fits =>
      rw [Layer.kind_of_batchSize? batch] at kind
      cases kind

end Run
end LayeredDispatch
