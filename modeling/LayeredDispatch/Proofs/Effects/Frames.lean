import LayeredDispatch.Proofs.Effects.Settling
import LayeredDispatch.Proofs.Wrappers.Contracts

/-! What a call may do to the memory that it finds, as a contract. On its way down it changes nothing
that was there but what tags remember of shapes; the base operator may write the storage below its
first argument or draw numbers; and what follows on the way up again cannot end with an error. Main
statement: what holds of an inner call, which is issued after nothing was written, holds of the call
that issues it.
-/

namespace LayeredDispatch

open Run Dispatcher

/-- Nothing that was there has changed but shapes that tags remember. -/
structure Memory.Spares (before after : Memory) : Prop where
  flags : after.heap.flags = before.heap.flags
  storages
    : ∀ cell < before.heap.storages.size,
        cell < after.heap.storages.size ∧ after.heap.storage cell = before.heap.storage cell
  wrappers
    : ∀ cell < before.heap.wrappers.size,
        cell < after.heap.wrappers.size
        ∧ (after.heap.wrapper cell).gradFn = (before.heap.wrapper cell).gradFn
  generator : after.generator = before.generator

/-- The same, and tags have only been brought up to date. -/
structure Census.Keeps (census : Census) (before after : Memory) : Prop
    extends before.Spares after where
  refreshed : census.Refreshed before.heap after.heap

/-- The storage that an operator may write: the one below all wrappers of the first argument, if the
operator works in place.
-/
def Schema.written? (op : Schema) (arguments : List Value) : Option Nat :=
  if op.isInPlace then (arguments.head?.bind Value.tensor?).map Tensor.baseCell else none

/-- What a call of an operator may change: the storage that it writes, and the generator if it draws
numbers. Unless it gives a storage another shape, tags are only brought up to date.
-/
structure Census.Allows (census : Census) (op : Schema) (arguments : List Value)
    (before after : Memory)
    : Prop where
  flags : after.heap.flags = before.heap.flags
  storages
    : ∀ cell < before.heap.storages.size,
        cell < after.heap.storages.size
        ∧ (op.written? arguments ≠ some cell
          → after.heap.storage cell = before.heap.storage cell)
  wrappers
    : ∀ cell < before.heap.wrappers.size,
        cell < after.heap.wrappers.size
        ∧ (after.heap.wrapper cell).gradFn = (before.heap.wrapper cell).gradFn
  generator : op.name ≠ "rand" → after.generator = before.generator
  steady
    : op.name ≠ "resize_"
      → before.heap.Holds after.heap ∧ census.Refreshed before.heap after.heap

section

variable {census : Census} {op : Schema} {arguments : List Value}
  {before middle after : Memory}

namespace Memory.Spares

theorem refl (memory : Memory) : memory.Spares memory :=
  ⟨rfl, fun _ present => ⟨present, rfl⟩, fun _ present => ⟨present, rfl⟩, rfl⟩

/-- What is spared twice is spared. -/
theorem trans (first : before.Spares middle) (second : middle.Spares after)
    : before.Spares after := by
  refine ⟨second.flags.trans first.flags, fun cell present => ?_, fun cell present => ?_,
    second.generator.trans first.generator⟩
  · obtain ⟨inside, same⟩ := first.storages cell present
    obtain ⟨inside', same'⟩ := second.storages cell inside
    exact ⟨inside', same'.trans same⟩
  · obtain ⟨inside, same⟩ := first.wrappers cell present
    obtain ⟨inside', same'⟩ := second.wrappers cell inside
    exact ⟨inside', same'.trans same⟩

/-- A memory that spares storages holds their shapes. -/
theorem holds (h : before.Spares after) : before.heap.Holds after.heap := by
  intro cell present
  obtain ⟨inside, same⟩ := h.storages cell present
  exact ⟨inside, by rw [same], by rw [same]; exact id⟩

/-- No wrapper is lost. -/
theorem counted (h : before.Spares after)
    : before.heap.wrappers.size ≤ after.heap.wrappers.size := by
  rcases Nat.eq_zero_or_pos before.heap.wrappers.size with none | some
  · omega
  · have last := (h.wrappers (before.heap.wrappers.size - 1) (by omega)).1
    omega

end Memory.Spares

namespace Census

/-- What is known of tags stays true while nothing is written. -/
theorem Sound.spares (sound : census.Sound before.heap) (spares : before.Spares after)
    : census.Sound after.heap :=
  sound.later spares.holds spares.counted

theorem Keeps.refl (census : Census) (memory : Memory) : census.Keeps memory memory :=
  ⟨.refl memory, .refl census memory.heap⟩

/-- What is kept twice is kept. Tags that were brought up to date first stay so. -/
theorem Keeps.trans (first : census.Keeps before middle) (second : census.Keeps middle after)
    (sound : census.Sound before.heap)
    : census.Keeps before after := by
  refine ⟨first.toSpares.trans second.toSpares, ?_⟩
  exact first.refreshed.trans second.refreshed (sound.spares first.toSpares) second.holds
    second.flags

/-- Tags that are up to date stay so while nothing is written. -/
theorem Keeps.settled {tensor : Tensor} (h : census.Keeps before after)
    (sound : census.Sound before.heap) (known : tensor.Known census)
    (settled : tensor.Settled census before.heap)
    : tensor.Settled census after.heap :=
  settled.later known sound h.holds h.flags h.refreshed

/-- To keep everything is allowed to every operator. -/
theorem Keeps.allows (h : census.Keeps before after) : census.Allows op arguments before after where
  flags := h.flags
  storages cell present := ⟨(h.storages cell present).1, fun _ => (h.storages cell present).2⟩
  wrappers := h.wrappers
  generator _ := h.generator
  steady _ := ⟨h.holds, h.refreshed⟩

theorem Allows.counted (h : census.Allows op arguments before after)
    : before.heap.wrappers.size ≤ after.heap.wrappers.size := by
  rcases Nat.eq_zero_or_pos before.heap.wrappers.size with none | some
  · omega
  · have last := (h.wrappers (before.heap.wrappers.size - 1) (by omega)).1
    omega

/-- What is known of tags stays true after what is allowed, unless a storage has got another shape.
-/
theorem Allows.sound (h : census.Allows op arguments before after)
    (sound : census.Sound before.heap) (named : op.name ≠ "resize_")
    : census.Sound after.heap :=
  sound.later (h.steady named).1 h.counted

/-- An operator that neither works in place nor draws numbers changes nothing. -/
theorem Allows.keeps (h : census.Allows op arguments before after) (pure : op.isInPlace = false)
    (drawless : op.name ≠ "rand") (named : op.name ≠ "resize_")
    : census.Keeps before after := by
  have unwritten : op.written? arguments = none := by simp [Schema.written?, pure]
  refine ⟨⟨h.flags, fun cell present => ?_, h.wrappers, h.generator drawless⟩,
    (h.steady named).2⟩
  obtain ⟨inside, same⟩ := h.storages cell present
  exact ⟨inside, same (by simp [unwritten])⟩

/-- What is allowed after nothing was written, is allowed. The storage that may be written is the
same one on both sides.
-/
theorem Allows.of_keeps {inner : List Value} (h : census.Allows op inner middle after)
    (keeps : census.Keeps before middle) (sound : census.Sound before.heap)
    (written : op.written? inner = op.written? arguments)
    : census.Allows op arguments before after := by
  refine ⟨h.flags.trans keeps.flags, fun cell present => ?_, fun cell present => ?_,
    fun named => (h.generator named).trans keeps.generator, fun named => ?_⟩
  · obtain ⟨inside, same⟩ := keeps.storages cell present
    obtain ⟨inside', allowed⟩ := h.storages cell inside
    rw [written] at allowed
    exact ⟨inside', fun other => (allowed other).trans same⟩
  · obtain ⟨inside, same⟩ := keeps.wrappers cell present
    obtain ⟨inside', same'⟩ := h.wrappers cell inside
    exact ⟨inside', same'.trans same⟩
  · obtain ⟨holds, refreshed⟩ := h.steady named
    exact ⟨keeps.holds.trans holds,
      keeps.refreshed.trans refreshed (sound.spares keeps.toSpares) holds h.flags⟩

/-- Tags may be brought up to date after what is allowed, as the layers on the way up do. -/
theorem Allows.spares (h : census.Allows op arguments before middle)
    (spares : middle.Spares after) (sound : census.Sound before.heap)
    (refreshed : op.name ≠ "resize_" → census.Refreshed middle.heap after.heap)
    : census.Allows op arguments before after := by
  refine ⟨spares.flags.trans h.flags, fun cell present => ?_, fun cell present => ?_,
    fun named => spares.generator.trans (h.generator named), fun named => ?_⟩
  · obtain ⟨inside, allowed⟩ := h.storages cell present
    obtain ⟨inside', same⟩ := spares.storages cell inside
    exact ⟨inside', fun other => same.trans (allowed other)⟩
  · obtain ⟨inside, same⟩ := h.wrappers cell present
    obtain ⟨inside', same'⟩ := spares.wrappers cell inside
    exact ⟨inside', same'.trans same⟩
  · obtain ⟨holds, first⟩ := h.steady named
    refine ⟨holds.trans spares.holds, ?_⟩
    exact first.trans (refreshed named) (h.sound sound named) spares.holds spares.flags

end Census

end

-----------------------------------------------------------------------------------------
-- The contract
-----------------------------------------------------------------------------------------

/-- What a call that gives a value leaves. Under differentiation the result has a new tag, and the
tags around the arguments are up to date.
-/
structure Census.Done (census : Census) (op : Schema) (owners : List Layer)
    (arguments : List Value) (before after : Memory) (result : Tensor)
    : Prop where
  allows : census.Allows op arguments before after
  known : result.Known census
  fresh
    : ∀ layer ∈ owners.head?,
        layer.kind = .differentiation
        → ∃ cell flag inner,
            result = .tagged cell layer.level flag inner ∧ before.heap.wrappers.size ≤ cell
  settled
    : op.name ≠ "resize_"
      → ∀ tensor ∈ Value.tensorsAll arguments, tensor.Settled census after.heap

/-- What a call that gives no value leaves. -/
structure Census.Undone (census : Census) (op : Schema) (arguments : List Value)
    (before : Memory) (exit : Exit) (after : Memory)
    : Prop where
  allows : census.Allows op arguments before after
  keeps : ∀ error, exit = .error error → census.Keeps before after

/-- A computation that replaces arguments by a result, and changes only what the call may. -/
def Run.Affects (body : Run Unit) (census : Census) (op : Schema) (owners : List Layer)
    (arguments outer : List Value) (before : Memory) (machine : Machine)
    : Prop :=
  body.Leaves machine
    (fun _ values memory =>
      ∃ result,
        values = outer ++ [.tensor result]
        ∧ census.Done op owners arguments before memory result)
    (census.Undone op arguments before)

/-- Calls change only what they may. -/
def Contract.effects (census : Census) : Contract :=
  fun _ owners op machine body =>
    census.Sound machine.heap
    → (∀ tensor ∈ Value.tensorsAll (machine.lastValues op.arity), tensor.Known census)
    → body.Affects census op owners (machine.lastValues op.arity)
        (machine.firstValues op.arity) machine.memory machine

/-- A tensor that is passed on in the place of another one. -/
structure Census.PassedOn (census : Census) (flags : Array Bool) (tensor result : Tensor) : Prop where
  known : result.Known census
  base : result.baseCell = tensor.baseCell
  settled
    : ∀ heap : Heap,
        heap.flags = flags → result.Settled census heap → tensor.Settled census heap

section

variable {census : Census} {op : Schema} {arguments inner outer : List Value}
  {before middle after : Memory} {owners : List Layer} {budget : Nat} {machine : Machine}
  {exit : Exit}

/-- Where nothing was written nothing is done. -/
theorem Census.Keeps.undone (h : census.Keeps before after)
    : census.Undone op arguments before exit after :=
  ⟨h.allows, fun _ _ => h⟩

/-- Values with the same storages below them are written at the same place. -/
theorem Schema.written?_related {relation : Tensor → Tensor → Prop} (op : Schema)
    (related : Value.RelatedAll relation arguments inner)
    (base : ∀ tensor result, relation tensor result → result.baseCell = tensor.baseCell)
    : op.written? inner = op.written? arguments := by
  unfold Schema.written?
  split
  · cases related with
    | nil => rfl
    | cons head tail =>
        cases head with
        | tensor related => simp [Value.tensor?, base _ _ related]
        | list items => rfl
        | plain plain => rfl
  · rfl

/-- An inner call on values that take the place of the arguments does what the call may. The inner
call is issued after nothing was written, and on a target with the same storage below it.
-/
theorem Contract.Holds.affects (h : (Contract.effects census).Holds budget)
    (calling : machine.Calling op owners) (keeps : census.Keeps before machine.memory)
    (sound : census.Sound before.heap) (values : machine.values = outer ++ inner)
    (size : inner.length = op.arity)
    (known : ∀ tensor ∈ Value.tensorsAll inner, tensor.Known census)
    (written : op.written? inner = op.written? arguments)
    (settled
      : ∀ after,
          op.name ≠ "resize_"
          → census.Allows op inner machine.memory after
          → (∀ tensor ∈ Value.tensorsAll inner, tensor.Settled census after.heap)
          → ∀ tensor ∈ Value.tensorsAll arguments, tensor.Settled census after.heap)
    : (standard.dispatchWithin budget op).Affects census op owners arguments outer before
        machine := by
  have contract := h calling
  unfold Contract.effects at contract
  rw [Machine.lastValues_append values size, Machine.firstValues_append values size] at contract
  refine (contract (sound.spares keeps.toSpares) known).mono ?_ fun exit memory undone => ?_
  · rintro _ _ memory ⟨result, left, done⟩
    refine ⟨result, left, done.allows.of_keeps keeps sound written, done.known, ?_, fun named => ?_⟩
    · intro layer top kind
      obtain ⟨cell, flag, value, tagged, fresh⟩ := done.fresh layer top kind
      exact ⟨cell, flag, value, tagged, Nat.le_trans keeps.counted fresh⟩
    · exact settled memory named done.allows (done.settled named)
  · refine ⟨undone.allows.of_keeps keeps sound written, fun error ended => ?_⟩
    exact keeps.trans (undone.keeps error ended) sound

/-- The same where each tensor is passed on, or another one in its place. -/
theorem Contract.Holds.affects_passedOn (h : (Contract.effects census).Holds budget)
    (calling : machine.Calling op owners) (keeps : census.Keeps before machine.memory)
    (sound : census.Sound before.heap) (values : machine.values = outer ++ inner)
    (size : arguments.length = op.arity)
    (related : Value.RelatedAll (census.PassedOn before.heap.flags) arguments inner)
    : (standard.dispatchWithin budget op).Affects census op owners arguments outer before
        machine := by
  refine h.affects calling keeps sound values (related.length_eq.trans size) ?_
    (op.written?_related related fun _ _ passed => passed.base) ?_
  · exact related.forall_right (fun _ _ => trivial) fun _ _ passed (_ : True) => passed.known
  · intro after _ allows settled
    refine related.forall_left settled fun tensor result passed => passed.settled after.heap ?_
    exact allows.flags.trans keeps.flags

end

end LayeredDispatch
