import LayeredDispatch.Proofs.Dispatch.Ambient
import LayeredDispatch.Proofs.Dispatch.Stacks
import LayeredDispatch.Proofs.Families.Slices

/-! Wrapped tensors read as families of dense tensors, with one batch index for each batching layer.
Main statements: well-formed tensors are those that layer by layer, from the top, are tagged or
batched there or left alone; their families do not change as the heap grows.
-/

namespace LayeredDispatch

/-- The levels of the wrappers around a tensor, outermost first. -/
def Tensor.levels : Tensor → List Level
  | .dense _ => []
  | .tagged _ level _ value => level :: value.levels
  | .batched _ level value => level :: value.levels

/-- Each wrapper around a tensor suits the active layer of its level: it is a live tag with an accurate
remembered shape under differentiation, and a value whose outermost dimension is the batch under
batching. Below all wrappers is a dense tensor with as many elements as its shape says.
-/
def Tensor.Suits (heap : Heap) (layers : List Layer) : Tensor → Prop
  | .dense cell => cell < heap.storages.size ∧ (heap.storage cell).Sized
  | .tagged cell level flag value =>
      (∃ layer ∈ layers, layer.level = level ∧ layer.kind = .differentiation)
      ∧ heap.isAlive flag = true
      ∧ cell < heap.wrappers.size
      ∧ (heap.wrapper cell).shape = value.shape heap
      ∧ value.Suits heap layers
  | .batched _ level value =>
      (∃ layer ∈ layers,
        layer.level = level
        ∧ ∃ size,
            layer.transform.batchSize? = some size
            ∧ (value.shape heap).dims.head? = some size)
      ∧ value.Suits heap layers

/-- The wrappers around a tensor suit the active layers, and their levels fall strictly from the
outside in.
-/
structure Tensor.WellFormed (heap : Heap) (layers : List Layer) (tensor : Tensor) : Prop where
  falling : tensor.levels.Pairwise fun outer inner => inner < outer
  suits : tensor.Suits heap layers

/-- The member of the family of a tensor at one index for each batching level: a tag changes nothing,
and of a batched value the entry at the index of its level is taken.
-/
def Tensor.member (heap : Heap) (index : Level → Nat) : Tensor → Storage
  | .dense cell => heap.storage cell
  | .tagged _ _ _ value => value.member heap index
  | .batched _ level value => (value.member heap index).slice (index level)

/-- Indices that are within the batches of all batching layers. -/
def Layer.InBatches (layers : List Layer) (index : Level → Nat) : Prop :=
  ∀ layer ∈ layers, ∀ size, layer.transform.batchSize? = some size → index layer.level < size

/-- Well-formed tensors layer by layer, from the top: at each layer a tensor is tagged or batched, or
left alone.
-/
inductive Tensor.Fits (heap : Heap) : List Layer → Tensor → Prop where
  | dense {cell : Nat} (present : cell < heap.storages.size) (sized : (heap.storage cell).Sized)
    : Fits heap [] (.dense cell)
  | alone {layer : Layer} {below : List Layer} {tensor : Tensor} (fits : Fits heap below tensor)
    : Fits heap (layer :: below) tensor
  | tagged {layer : Layer} {below : List Layer} {cell flag : Nat} {value : Tensor}
    (kind : layer.kind = .differentiation) (alive : heap.isAlive flag = true)
    (present : cell < heap.wrappers.size)
    (accurate : (heap.wrapper cell).shape = value.shape heap) (fits : Fits heap below value)
    : Fits heap (layer :: below) (.tagged cell layer.level flag value)
  | batched {layer : Layer} {below : List Layer} {handle size : Nat} {value : Tensor}
    (batch : layer.transform.batchSize? = some size)
    (outermost : (value.shape heap).dims.head? = some size) (fits : Fits heap below value)
    : Fits heap (layer :: below) (.batched handle layer.level value)

namespace Tensor

variable {heap : Heap} {layers below : List Layer} {layer : Layer} {tensor value : Tensor}

/-- Wrappers that suit some layers suit more layers. -/
theorem Suits.mono (h : tensor.Suits heap below) (subset : ∀ layer ∈ below, layer ∈ layers)
    : tensor.Suits heap layers := by
  induction tensor with
  | dense cell => exact h
  | tagged cell level flag value ih =>
      obtain ⟨⟨layer, member, suited⟩, alive, present, accurate, inner⟩ := h
      exact ⟨⟨layer, subset layer member, suited⟩, alive, present, accurate, ih inner⟩
  | batched handle level value ih =>
      obtain ⟨⟨layer, member, suited⟩, inner⟩ := h
      exact ⟨⟨layer, subset layer member, suited⟩, ih inner⟩

/-- Wrappers below the level of the top layer belong to the layers below, since that is the only
layer of its level.
-/
theorem Suits.lower (h : tensor.Suits heap (layer :: below))
    (lower : ∀ level ∈ tensor.levels, level < layer.level)
    : tensor.Suits heap below := by
  have remains {level : Level} {other : Layer} (less : level < layer.level)
      (member : other ∈ layer :: below) (same : other.level = level)
      : other ∈ below := by
    rcases List.mem_cons.mp member with rfl | member
    · exact absurd same (Nat.ne_of_gt less)
    · exact member
  induction tensor with
  | dense cell => exact h
  | tagged cell level flag value ih =>
      obtain ⟨⟨other, member, same, kind⟩, alive, present, accurate, inner⟩ := h
      have less := lower level List.mem_cons_self
      refine ⟨⟨other, remains less member same, same, kind⟩, alive, present, accurate, ?_⟩
      exact ih inner fun level member => lower level (List.mem_cons_of_mem _ member)
  | batched handle level value ih =>
      obtain ⟨⟨other, member, same, batch⟩, inner⟩ := h
      have less := lower level List.mem_cons_self
      refine ⟨⟨other, remains less member same, same, batch⟩, ?_⟩
      exact ih inner fun level member => lower level (List.mem_cons_of_mem _ member)

/-- No wrapper around a tensor that fits has a level above the layers. -/
theorem Fits.level_le (h : tensor.Fits heap layers) (levelled : Layer.Levelled layers)
    {level : Level} (member : level ∈ tensor.levels)
    : level ≤ layers.length := by
  induction h with
  | dense present sized => cases member
  | alone fits ih => exact Nat.le_succ_of_le (ih levelled.2 member)
  | tagged kind alive present accurate fits ih =>
      rcases List.mem_cons.mp member with rfl | member
      · exact Nat.le_of_eq levelled.1
      · exact Nat.le_succ_of_le (ih levelled.2 member)
  | batched batch outermost fits ih =>
      rcases List.mem_cons.mp member with rfl | member
      · exact Nat.le_of_eq levelled.1
      · exact Nat.le_succ_of_le (ih levelled.2 member)

/-- Below all layers there are only dense tensors. -/
theorem Fits.eq_dense (h : tensor.Fits heap [])
    : ∃ cell, tensor = .dense cell ∧ cell < heap.storages.size ∧ (heap.storage cell).Sized := by
  cases h with
  | dense present sized => exact ⟨_, rfl, present, sized⟩

/-- The wrappers of a tensor that fits suit the layers. -/
theorem Fits.suits (h : tensor.Fits heap layers) : tensor.Suits heap layers := by
  have upper {layer : Layer} {below : List Layer} {tensor : Tensor}
      (h : tensor.Suits heap below)
      : tensor.Suits heap (layer :: below) :=
    h.mono fun _ member => List.mem_cons_of_mem _ member
  induction h with
  | dense present sized => exact ⟨present, sized⟩
  | alone fits ih => exact upper ih
  | tagged kind alive present accurate fits ih =>
      exact ⟨⟨_, List.mem_cons_self, rfl, kind⟩, alive, present, accurate, upper ih⟩
  | batched batch outermost fits ih =>
      exact ⟨⟨_, List.mem_cons_self, rfl, _, batch, outermost⟩, upper ih⟩

/-- Their levels fall strictly, as the layers are gone through from the top. -/
theorem Fits.falling (h : tensor.Fits heap layers) (levelled : Layer.Levelled layers)
    : tensor.levels.Pairwise fun outer inner => inner < outer := by
  induction h with
  | dense present sized => exact List.Pairwise.nil
  | alone fits ih => exact ih levelled.2
  | tagged kind alive present accurate fits ih =>
      refine List.pairwise_cons.mpr ⟨fun level member => ?_, ih levelled.2⟩
      rw [levelled.1]
      exact Nat.lt_succ_of_le (fits.level_le levelled.2 member)
  | batched batch outermost fits ih =>
      refine List.pairwise_cons.mpr ⟨fun level member => ?_, ih levelled.2⟩
      rw [levelled.1]
      exact Nat.lt_succ_of_le (fits.level_le levelled.2 member)

/-- Each wrapper that suits has the level of a layer. -/
theorem Suits.level_mem (h : tensor.Suits heap layers) {level : Level}
    (member : level ∈ tensor.levels)
    : ∃ layer ∈ layers, layer.level = level := by
  induction tensor with
  | dense cell => cases member
  | tagged cell own flag value ih =>
      obtain ⟨⟨layer, active, same, _⟩, _, _, _, inner⟩ := h
      rcases List.mem_cons.mp member with rfl | member
      · exact ⟨layer, active, same⟩
      · exact ih inner member
  | batched handle own value ih =>
      obtain ⟨⟨layer, active, same, _⟩, inner⟩ := h
      rcases List.mem_cons.mp member with rfl | member
      · exact ⟨layer, active, same⟩
      · exact ih inner member

/-- If some wrapper has the level of the top layer, it is the outermost one, because the levels fall
from the outside in and none is above the top.
-/
theorem Suits.outermost {own : Level} (levelled : Layer.Levelled (layer :: below))
    (suits : ∀ level ∈ own :: value.levels, ∃ other ∈ layer :: below, other.level = level)
    (falling : (own :: value.levels).Pairwise fun outer inner => inner < outer)
    (top : ¬∀ level ∈ own :: value.levels, level < layer.level)
    : own = layer.level ∧ ∀ level ∈ value.levels, level < layer.level := by
  have bounded (level : Level) (member : level ∈ own :: value.levels) : level ≤ layer.level := by
    obtain ⟨other, active, rfl⟩ := suits level member
    rw [levelled.1]
    exact levelled.level_le active
  obtain ⟨inner, _⟩ := List.pairwise_cons.mp falling
  have same : own = layer.level := by
    refine Nat.le_antisymm (bounded own List.mem_cons_self) (Nat.le_of_not_lt fun less => top ?_)
    intro level member
    rcases List.mem_cons.mp member with rfl | member
    · exact less
    · exact Nat.lt_trans (inner level member) less
  exact ⟨same, fun level member => same ▸ inner level member⟩

/-- Wrappers that suit the layers and fall strictly fit them layer by layer. The induction is on the
layers: the outermost wrapper belongs to the top one, or all of them belong to the layers below.
-/
theorem Suits.fits (h : tensor.Suits heap layers) (levelled : Layer.Levelled layers)
    (falling : tensor.levels.Pairwise fun outer inner => inner < outer)
    : tensor.Fits heap layers := by
  induction layers generalizing tensor with
  | nil =>
      cases tensor with
      | dense cell => exact .dense h.1 h.2
      | tagged cell level flag value =>
          obtain ⟨⟨_, active, _⟩, _⟩ := h
          cases active
      | batched handle level value =>
          obtain ⟨⟨_, active, _⟩, _⟩ := h
          cases active
  | cons layer below ih =>
      by_cases lower : ∀ level ∈ tensor.levels, level < layer.level
      · exact .alone (ih (h.lower lower) levelled.2 falling)
      -- Some wrapper belongs to the top layer: it is the outermost one.
      have unique {other : Layer} (active : other ∈ layer :: below)
          (same : other.level = layer.level)
          : other = layer := by
        rcases List.mem_cons.mp active with rfl | active
        · rfl
        · have less := levelled.2.level_le active
          rw [same, levelled.1] at less
          exact absurd less (Nat.not_succ_le_self _)
      cases tensor with
      | dense cell => exact absurd (List.forall_mem_nil _) lower
      | tagged cell level flag value =>
          obtain ⟨rfl, inside⟩ := Suits.outermost levelled (fun _ => h.level_mem) falling lower
          obtain ⟨⟨other, active, same, kind⟩, alive, present, accurate, inner⟩ := h
          obtain rfl := unique active same
          exact .tagged kind alive present accurate
            (ih (inner.lower inside) levelled.2 (List.pairwise_cons.mp falling).2)
      | batched handle level value =>
          obtain ⟨rfl, inside⟩ := Suits.outermost levelled (fun _ => h.level_mem) falling lower
          obtain ⟨⟨other, active, same, size, batch, outermost⟩, inner⟩ := h
          obtain rfl := unique active same
          exact .batched batch outermost
            (ih (inner.lower inside) levelled.2 (List.pairwise_cons.mp falling).2)

/-- Well-formed tensors are those that fit, layer by layer. The first form says what a tensor is,
the second one is what proofs go along.
-/
theorem wellFormed_iff_fits (levelled : Layer.Levelled layers)
    : tensor.WellFormed heap layers ↔ tensor.Fits heap layers :=
  ⟨fun h => h.suits.fits levelled h.falling, fun h => ⟨h.falling levelled, h.suits⟩⟩

-----------------------------------------------------------------------------------------
-- Members
-----------------------------------------------------------------------------------------

/-- The members of a family have the logical shape of the tensor, since each slice drops the
dimension that the batch wrapper hides.
-/
theorem Fits.shape_member (h : tensor.Fits heap layers) (index : Level → Nat)
    : (tensor.member heap index).shape = tensor.shape heap := by
  induction h with
  | dense present sized => rfl
  | alone fits ih => exact ih
  | tagged kind alive present accurate fits ih =>
      rw [Tensor.shape, if_pos alive, accurate]
      exact ih
  | batched batch outermost fits ih => simp only [member, Storage.slice, ih, Tensor.shape]

/-- The members hold as many elements as their shape says, at indices within the batches. -/
theorem Fits.sized_member (h : tensor.Fits heap layers) {index : Level → Nat}
    (inBatches : Layer.InBatches layers index)
    : (tensor.member heap index).Sized := by
  induction h with
  | dense present sized => exact sized
  | alone fits ih => exact ih fun other member => inBatches other (List.mem_cons_of_mem _ member)
  | tagged kind alive present accurate fits ih =>
      exact ih fun other member => inBatches other (List.mem_cons_of_mem _ member)
  | batched batch outermost fits ih =>
      have sized := ih fun other member => inBatches other (List.mem_cons_of_mem _ member)
      rw [← fits.shape_member index] at outermost
      exact sized.slice outermost (inBatches _ List.mem_cons_self _ batch)

end Tensor
end LayeredDispatch
