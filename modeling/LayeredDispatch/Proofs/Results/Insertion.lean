import LayeredDispatch.Proofs.Nesting.Lengthening
import LayeredDispatch.Proofs.Results.Handlers

/-! Inserting a dimension into a tensor that fits the layers. Main statement: a call that inserts one is
refused only if there is no such place among the dimensions that the tensor has above all layers, with
an error that says so, however deep below it is found out; otherwise the same layers have batched its
result.
-/

namespace LayeredDispatch

open Run Dispatcher

/-- The levels of the batches around a tensor, outermost first. -/
def Tensor.batchLevels : Tensor → List Level
  | .dense _ => []
  | .tagged _ _ _ value => value.batchLevels
  | .batched _ level value => level :: value.batchLevels

/-- There is no place `dim` among the dimensions of a tensor, and for this reason an insertion is refused.
-/
structure Tensor.Misses (heap : Heap) (tensor : Tensor) (dim : Int) (exit : Exit) : Prop where
  outside : ¬(0 ≤ dim ∧ dim ≤ (tensor.shape heap).rank)
  refused
    : exit = .error (.invalidArgument "unsqueeze" 1 (.dimOutOfRange dim (tensor.shape heap).rank))

/-- The computation puts a tensor with one dimension more in the place of its arguments, or refuses to,
unless calls nest too deep.
-/
def Run.Inserts (body : Run Unit) (outer : List Value) (heap : Heap) (tensor : Tensor) (dim : Int)
    (machine : Machine)
    : Prop :=
  body.Leaves machine
    (fun _ values _ =>
      ∃ result : Tensor,
        values = outer ++ [.tensor result] ∧ result.batchLevels = tensor.batchLevels)
    (fun exit _ => exit = .fault .diverged ∨ tensor.Misses heap dim exit)

/-- Calls that insert a dimension are refused only if it is out of range. -/
def Contract.inserts : Contract :=
  fun budget owners op machine body =>
    op.name = "unsqueeze"
    → ∀ outer tensor dim,
        machine.Supplied budget op owners outer [.tensor tensor, .int dim]
        → body.Inserts outer machine.heap tensor dim machine

section

variable {machine held : Machine} {op : Schema} {owners below : List Layer} {layer : Layer}
  {inner outer : List Value} {tensor other physical : Tensor} {budget : Nat} {heap before after : Heap}
  {dim : Int} {dims : List Nat} {size : Nat} {exit : Exit} {body : Run Unit}

namespace Tensor

theorem batchLevels_bare (tensor : Tensor) : tensor.bare.batchLevels = tensor.batchLevels := by
  induction tensor with
  | dense cell => rfl
  | tagged cell level flag value ih => exact ih
  | batched handle level value ih => exact congrArg (level :: ·) ih

theorem Replaces.batchLevels_eq (replaces : Tensor.Replaces owners before tensor after other)
    : other.batchLevels = tensor.batchLevels := by
  rw [← other.batchLevels_bare, replaces.bare, tensor.batchLevels_bare]

/-- Whether there is a place for a dimension, and how an insertion is refused, depends on the shape
only.
-/
theorem Misses.of_shape (misses : other.Misses after dim exit)
    (same : other.shape after = tensor.shape before)
    : tensor.Misses before dim exit := by
  obtain ⟨outside, refused⟩ := misses
  rw [same] at outside refused
  exact ⟨outside, refused⟩

/-- Where a batch has a place for one more dimension its physical value has one a place further. The
shape of the physical value has the batch dimension in front.
-/
theorem Misses.not_inside (misses : physical.Misses heap (dim + 1) exit)
    (shape : physical.shape heap = ⟨size :: dims⟩) (entry : tensor.shape heap = ⟨dims⟩)
    : ¬(0 ≤ dim ∧ dim ≤ (tensor.shape heap).rank) := by
  have outside := misses.outside
  simp only [shape, entry, Shape.rank, List.length_cons] at outside ⊢
  omega

end Tensor

-----------------------------------------------------------------------------------------
-- The kernels around layers
-----------------------------------------------------------------------------------------

/-- A call that is handed on is refused as the call that hands it on, and gives a result that is batched
alike.
-/
theorem Contract.Holds.inserts (holds : Contract.inserts.Holds budget) (named : op.name = "unsqueeze")
    (handed : machine.HandsOn held budget op owners outer [.tensor tensor, .int dim] inner)
    : ((nested budget).dispatch op).Inserts outer machine.heap tensor dim held := by
  obtain ⟨other, rfl, replaces⟩ := handed.related.tensor_int
  apply (holds handed.supplied.toCalling named outer other dim handed.supplied).mono
  · rintro _ _ _ ⟨result, values, same⟩
    exact ⟨result, values, same.trans replaces.batchLevels_eq⟩
  · exact fun exit _ => Or.imp_right fun misses => misses.of_shape replaces.shape

/-- In front of a layer the insertion is handed to its body. It is not refused there, as it is no
in-place operator.
-/
theorem inserts_enter (holds : Contract.inserts.Holds budget) (named : op.name = "unsqueeze")
    (supplied : machine.Supplied (budget + 1) op (layer :: below) outer [.tensor tensor, .int dim])
    (above : machine.Above layer below) (front : machine.thread.overlay.forces .entryInterceptor)
    : (entryInterceptor.run (nested budget) op).Inserts outer machine.heap tensor dim machine := by
  obtain rfl := Contract.eq_unsqueeze supplied.member named
  exact leaves_entry supplied above front nofun fun _ _ handed => holds.inserts named handed

/-- The body of a differentiation layer hands the insertion on and records it. No batch is made or
lost by that.
-/
theorem inserts_differentiate (holds : Contract.inserts.Holds budget) (named : op.name = "unsqueeze")
    (supplied : machine.Supplied (budget + 1) op (layer :: below) outer [.tensor tensor, .int dim])
    (within : machine.InBody layer below) (kind : layer.kind = .differentiation)
    (shown : machine.thread.overlay.excluded.contains .differentiation = false)
    : (differentiationBody.run (nested budget) op).Inserts outer machine.heap tensor dim machine := by
  refine quiet_writing.currentLayer.leaves_step (currentLayer_apply within.top) ?_
  refine (quiet_read _).leaves_step rfl ?_
  refine Leaves.bind (leaves_hidden supplied within kind shown fun _ handed =>
    holds.inserts named handed) ?_
  rintro _ reached _ _ ⟨result, values, same⟩
  have single := Schema.resultCount_eq_one supplied.member
  refine Leaves.mono (leaves_recordGradFns _ single values) ?_ fun _ _ => id
  exact fun _ _ _ left => ⟨result, left.1.trans values, same⟩

/-- The tag that a differentiation layer puts around the result is none of a batch, so that the
levels of the batches are those of the result from below.
-/
theorem inserts_leaveDifferentiation (holds : Contract.inserts.Holds budget)
    (named : op.name = "unsqueeze")
    (supplied : machine.Supplied (budget + 1) op (layer :: below) outer [.tensor tensor, .int dim])
    (within : machine.InBody layer below) (kind : layer.kind = .differentiation)
    : (exitInterceptor.run (nested budget) op).Inserts outer machine.heap tensor dim machine :=
  leaves_tagging supplied within kind (fun _ _ handed => holds.inserts named handed)
    fun _ _ _ _ same => ⟨_, rfl, same⟩

theorem inserts_leaveBatching (holds : Contract.inserts.Holds budget) (named : op.name = "unsqueeze")
    (supplied : machine.Supplied (budget + 1) op owners outer [.tensor tensor, .int dim])
    (within : machine.InBody layer below) (kind : layer.kind = .batching)
    (owned
      : owners = below
        ∨ (owners = layer :: below
          ∧ (Value.carried machine.heap (machine.lastValues op.arity)).contains .batched = false))
    : (exitInterceptor.run (nested budget) op).Inserts outer machine.heap tensor dim machine :=
  leaves_unbatched supplied within kind owned fun _ _ handed => holds.inserts named handed

/-- The rule of batching layers looks at the dimensions behind the batch dimension, and inserts one place
further into the physical value, which then has that place.
-/
theorem inserts_rule (holds : Contract.inserts.Holds budget) (named : op.name = "unsqueeze")
    (supplied : machine.Supplied (budget + 1) op (layer :: below) outer [.tensor tensor, .int dim])
    (within : machine.InBody layer below) (kind : layer.kind = .batching)
    (shown : machine.thread.overlay.excluded.contains .batched = false)
    : (Batching.unsqueeze.run (nested budget) op).Inserts outer machine.heap tensor dim machine := by
  obtain rfl := Contract.eq_unsqueeze supplied.member named
  obtain ⟨size, batch⟩ := Layer.exists_batchSize? kind
  have fits : tensor.Fits machine.heap (layer :: below) := supplied.fits tensor List.mem_cons_self
  refine quiet_writing.currentLayer.leaves_step (currentLayer_apply within.top) ?_
  refine (quiet_writing.pop _).leaves_step supplied.popping ?_
  refine (quiet_lift (Value.plain_tensorAt _ _ _).orderly).leaves_step (lift_ok_apply tensor _) ?_
  refine (quiet_lift (Value.plain_intAt _ _ _).orderly).leaves_step (lift_ok_apply dim _) ?_
  refine .holding (moves_hide _ _) fun held atHeld => ?_
  have heap : held.heap = machine.heap := atHeld.heap
  have called (given : Tensor) (place : Int) (fits : given.Fits machine.heap below)
      : ((nested budget).dispatch Base.schemas[5]).Inserts outer machine.heap given place
          { held with values := held.values ++ [.tensor given, .int place] } := by
    have serves := supplied.serves within kind shown (by decide) atHeld
    have supplied
        : Machine.Supplied { held with values := held.values ++ [.tensor given, .int place] } budget
            Base.schemas[5] below outer [.tensor given, .int place] :=
      (serves.withValues _).supplied (by decide) (by decide) (congrArg (· ++ _) atHeld.values) rfl
        (List.forall_mem_singleton.mpr (heap ▸ fits))
    rw [← heap]
    exact holds supplied.toCalling rfl outer given place supplied
  cases found : tensor.physicalAt? layer.level with
  | none =>
      refine (quiet_writing.pushAll _).leaves_step rfl ?_
      exact called tensor dim (fits.of_shared kind found)
  | some physical =>
      obtain ⟨inner, dims, shape, entry, -⟩ := fits.physicalAt? within.grounded.levelled batch found
      obtain ⟨handle, rfl⟩ := Tensor.physicalAt?_eq_some found
      refine (quiet_read _).leaves_step rfl ?_
      dsimp only
      rw [heap]
      split
      · rename_i inside
        refine (quiet_writing.pushAll _).leaves_step rfl ?_
        refine Leaves.bind ((called physical (dim + 1) inner).mono (fun _ _ _ => id) fun _ _ =>
          Or.imp_right fun misses => absurd inside (misses.not_inside shape entry)) ?_
        rintro _ returned _ _ ⟨result, values, same⟩
        exact (quiet_writing.wrapResults _ _).leaves (wrapResults_apply values layer.level)
          ⟨_, rfl, congrArg (layer.level :: ·) same⟩
      · rename_i outside
        exact leaves_fail (.inr ⟨outside, rfl⟩)

-----------------------------------------------------------------------------------------
-- The base
-----------------------------------------------------------------------------------------

/-- Below all layers the base kernel looks at the shape of the storage. It inserts exactly at the
places from the first one to the one behind the last dimension.
-/
theorem inserts_base {kernel : Kernel} (named : op.name = "unsqueeze")
    (found : baseKernel? op.name = some kernel)
    (supplied : machine.Supplied (budget + 1) op [] outer [.tensor tensor, .int dim])
    : (kernel.run (nested budget) op).Inserts outer machine.heap tensor dim machine := by
  obtain rfl := Contract.eq_unsqueeze supplied.member named
  cases found
  obtain ⟨cell, rfl, -⟩ := (supplied.fits tensor List.mem_cons_self).eq_dense
  refine (quiet_writing.pop _).leaves_step supplied.popping ?_
  refine (idle_reading.denseAt _ _ _).still.quiet.leaves_step rfl ?_
  refine (quiet_lift (Value.plain_intAt _ _ _).orderly).leaves_step (lift_ok_apply dim _) ?_
  split
  · exact (quiet_writing.pushDense _).leaves rfl ⟨_, rfl, rfl⟩
  · rename_i missing
    refine leaves_fail (.inr ⟨fun inside => ?_, rfl⟩)
    rw [if_pos inside.1, Shape.unsqueeze?, if_pos] at missing
    · cases missing
    · exact Int.toNat_le.mpr inside.2

-----------------------------------------------------------------------------------------
-- All calls
-----------------------------------------------------------------------------------------

/-- Each kernel that a call can come to keeps the contract, if the calls that it issues do. There is
one case for each place where the call may be.
-/
theorem Contract.Holds.inserts_handled {kernel : Kernel} (holds : Contract.inserts.Holds budget)
    (named : op.name = "unsqueeze")
    (supplied : machine.Supplied (budget + 1) op owners outer [.tensor tensor, .int dim])
    (handled : machine.HandledBy op [.tensor tensor, .int dim] owners kernel)
    : (kernel.run (nested budget) op).Inserts outer machine.heap tensor dim machine := by
  cases handled with
  | base atBase found => exact inserts_base named found supplied
  | enter above front => exact inserts_enter holds named supplied above front
  | differentiate within kind shown =>
      exact inserts_differentiate holds named supplied within kind shown
  | leaveDifferentiation within kind =>
      exact inserts_leaveDifferentiation holds named supplied within kind
  | rule within kind shown carries =>
      rw [named]
      exact inserts_rule holds named supplied within kind shown
  | leaveBatching within kind owned =>
      exact inserts_leaveBatching holds named supplied within kind owned

/-- However deep calls nest, those that insert a dimension are refused only if it is out of range,
by induction on the depth. Calls with no depth left diverge, which the contract allows.
-/
theorem Contract.inserts_holds (budget : Nat) : Contract.inserts.Holds budget := by
  induction budget with
  | zero =>
      intro op machine owners _ _ outer tensor dim _
      exact leaves_fault trivial (.inl rfl)
  | succ budget ih =>
      intro op machine owners _ named outer tensor dim supplied
      have drawless : op.name ≠ "rand" := by
        rw [named]
        decide
      exact supplied.leaves_dispatch drawless fun _ _ handled =>
        ih.inserts_handled named (supplied.inSpan _) handled

end
end LayeredDispatch
