import LayeredDispatch.Proofs.Batches.Sizes
import LayeredDispatch.Proofs.Families.Correctness

/-! Batches whose sizes are not those of the layers. A built stack stays one if its batching layers are over
batches of other sizes. Main statement: a call on tensors that are batched over sizes of their own gives a
result as if these were the sizes of the layers, and reads the tensors as families over these sizes.
-/

namespace LayeredDispatch

open Run Dispatcher

variable {machine reached : Machine} {sizes : Level → Size}

-----------------------------------------------------------------------------------------
-- Built stacks
-----------------------------------------------------------------------------------------

/-- Whether a transform has all that its kind needs does not depend on the size of its batch. -/
@[simp] theorem Transform.isComplete_resized (transform : Transform) (size : Size)
    : (transform.resized size).isComplete = transform.isComplete := by
  cases transform <;> rfl

/-- A batching layer over another batch is a batching layer. -/
@[simp] theorem Transform.kind_resized (transform : Transform) (size : Size)
    : (transform.resized size).kind = transform.kind := by
  cases transform <;> rfl

/-- Creating a level does not look at the sizes of batches.
It reads the registry and may fault for a level that is taken; registering it changes no layer.
-/
theorem Run.blind_createLevel (level : Level) : Blind sizes (createLevel level) := by
  have registers : Blind sizes (do
      let flag ← allocate Heap.addFlag
      modify fun machine => { machine with registry := machine.registry.insert level flag }
      return flag) :=
    .after (blind_allocate _) fun _ => .after (blind_modify fun _ => rfl) fun _ => blind_pure _
  exact .after (follows_read fun _ => rfl) fun registry =>
    .ite (.after (follows_fault _) fun _ => registers) registers

/-- Instead of a layer over batches of one size, one over batches of another size can be opened.
The level is counted from the layers that are there, so it is the same, and what follows the choice
of
the layer runs alike with either.
-/
theorem Run.openLayer_resized (sizes : Level → Size) {transform : Transform} {level : Level}
    (ended : openLayer transform machine = .ok level reached)
    : openLayer (transform.resized (sizes (machine.thread.layers.length + 1))) (machine.resized sizes)
      = .ok level (reached.resized sizes) := by
  have rest (layer : Layer) (next : Level)
      : Follows sizes id
          (do
            discard (pushLayer layer)
            discard (createLevel next)
            log (.pushedLayer next layer.kind)
            return next)
          (do
            discard (pushLayer (layer.resized sizes))
            discard (createLevel next)
            log (.pushedLayer next layer.kind)
            return next) := by
    refine .bind (.bind (follows_pushLayer layer) fun _ => blind_pure _) fun _ => ?_
    exact .after (.after (blind_createLevel next) fun _ => blind_pure _) fun _ =>
      .after (blind_modify fun _ => rfl) fun _ => blind_pure next
  obtain ⟨count, _, counted, ended⟩ := bind_ok ended
  cases counted
  obtain ⟨layer, _, made, ended⟩ := bind_ok ended
  obtain ⟨same, rfl, complete⟩ := buildLayer_ok made
  rw [same] at ended
  have counts
      : layerCount (machine.resized sizes)
        = .ok machine.thread.layers.length (machine.resized sizes) :=
    congrArg (EStateM.Result.ok · _) (List.length_map _)
  rw [openLayer, bind_apply, counts]
  dsimp only
  rw [bind_apply, buildLayer, Transform.isComplete_resized, if_pos complete, Transform.kind_resized]
  exact rest ⟨transform, _, machine.thread.overlay⟩ _ machine level reached ended

/-- A built stack stays one if its batching layers are over batches of other sizes.
Induction on how it was built: each way of opening, hiding and using layers has its counterpart.
-/
theorem Machine.Built.resized (built : machine.Built) (sizes : Level → Size)
    : (machine.resized sizes).Built := by
  induction built with
  | fresh layers overlay =>
      exact .fresh (by simp [Machine.resized, layers]) overlay
  | opened _ ended ih => exact .opened ih (openLayer_resized sizes ended)
  | hidden _ ended ih =>
      obtain ⟨layer, -, hides⟩ := hideTop_resized sizes ended
      exact .hidden ih hides
  | used _ keeps ih =>
      refine .used ih ⟨?_, keeps.overlay, keeps.registry, keeps.alive⟩
      exact congrArg (List.map _) keeps.layers

-----------------------------------------------------------------------------------------
-- Sizes of a stack's own
-----------------------------------------------------------------------------------------

end LayeredDispatch
