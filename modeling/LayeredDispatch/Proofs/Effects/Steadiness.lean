import LayeredDispatch.Proofs.Effects.Atomicity

/-! Calls on well-formed arguments. What their tags remember is up to date, so that bringing it up to
date changes nothing. Main statement: a call that does not give storage another shape leaves all
shapes as they are, of storages as well as those that tags remember, whichever way it ends.
-/

namespace LayeredDispatch

open Run Dispatcher

/-- A heap in which the shapes of another one are as they were, and the tags that are alive. -/
structure Heap.Steady (before after : Heap) : Prop where
  flags : after.flags = before.flags
  holds : before.Holds after
  wrappers
    : ∀ cell < before.wrappers.size,
        cell < after.wrappers.size
        ∧ (after.wrapper cell).shape = (before.wrapper cell).shape

section

variable {heap before after : Heap} {layers : List Layer} {tensor : Tensor}
  {arguments : List Value} {machine reached : Machine} {name : String}

theorem Heap.Steady.refl (heap : Heap) : heap.Steady heap :=
  ⟨rfl, .refl heap, fun _ present => ⟨present, rfl⟩⟩

namespace Tensor

/-- Tensors that fit the layers go on to fit them, with the same shapes, while shapes are as they
were.
-/
theorem Fits.steady (h : tensor.Fits before layers) (steady : before.Steady after)
    : tensor.Fits after layers ∧ tensor.shape after = tensor.shape before := by
  induction h with
  | dense present sized =>
      obtain ⟨inside, same, whole⟩ := steady.holds _ present
      exact ⟨.dense inside (whole sized), same⟩
  | alone fits ih => exact ⟨.alone ih.1, ih.2⟩
  | tagged kind alive present accurate fits ih =>
      obtain ⟨inside, same⟩ := steady.wrappers _ present
      have alive' := (Heap.isAlive_congr steady.flags _).trans alive
      constructor
      · refine .tagged kind alive' inside ?_ ih.1
        rw [same, accurate, ih.2]
      · rw [Tensor.shape, Tensor.shape, if_pos alive', if_pos alive, same]
  | batched batch outermost fits ih =>
      constructor
      · refine .batched batch ?_ ih.1
        rwa [ih.2]
      · rw [Tensor.shape, Tensor.shape, ih.2]

/-- The shape of a tensor whose wrappers suit the layers is that of its storage, because its tags
are up to date.
-/
theorem Suits.actualShape_eq (h : tensor.Suits heap layers)
    : tensor.actualShape heap = tensor.shape heap := by
  induction tensor with
  | dense cell => rfl
  | tagged cell level flag value ih =>
      obtain ⟨-, alive, -, accurate, inner⟩ := h
      rw [actualShape, ih inner, shape, if_pos alive, accurate]
  | batched handle level value ih => rw [actualShape, ih h.2, shape]

/-- The storage at the bottom of such a tensor is there. -/
theorem Suits.stored (h : tensor.Suits heap layers) : tensor.baseCell < heap.storages.size := by
  induction tensor with
  | dense cell => exact h.1
  | tagged cell level flag value ih => exact ih h.2.2.2.2
  | batched handle level value ih => exact ih h.2

/-- Tags that suit the layers are there, and up to date. -/
theorem Suits.tags (h : tensor.Suits heap layers) {tag : Nat × Tensor} (found : tag ∈ tensor.tags)
    : tag.1 < heap.wrappers.size ∧ (heap.wrapper tag.1).shape = tag.2.actualShape heap := by
  induction tensor with
  | dense cell => cases found
  | tagged cell level flag value ih =>
      obtain ⟨-, -, present, accurate, inner⟩ := h
      rcases List.mem_cons.mp found with rfl | found
      · exact ⟨present, accurate.trans inner.actualShape_eq.symm⟩
      · exact ih inner found
  | batched handle level value ih => exact ih h.2 found

end Tensor

/-- The tags around well-formed arguments are there, and up to date. -/
theorem Value.tags_of_suits (suits : ∀ tensor ∈ tensorsAll arguments, tensor.Suits heap layers)
    : ∀ tag ∈ tags arguments,
        tag.1 < heap.wrappers.size ∧ (heap.wrapper tag.1).shape = tag.2.actualShape heap := by
  intro tag found
  rcases List.mem_flatMap.mp found with ⟨tensor, member, inside⟩
  exact (suits tensor member).tags inside

/-- What well-formed arguments tell of the tags around them is true: two values of one tag have the
shape that it remembers.
-/
theorem Census.sound_of_suits
    (suits : ∀ tensor ∈ Value.tensorsAll arguments, tensor.Suits heap layers)
    : (Census.among heap arguments).Sound heap := by
  have tags := Value.tags_of_suits suits
  apply Census.sound_among
  · exact fun tensor member => (suits tensor member).stored
  · exact fun tag found => (tags tag found).1
  · intro tag found other found' same
    rw [← (tags tag found).2, ← (tags other found').2, same]

/-- Bringing tags up to date that are so already changes no shape. A value that a tag wraps is one
of the arguments' own, whose shape is held.
-/
theorem Census.Refreshed.shape_eq
    (refreshed : (Census.among before arguments).Refreshed before after)
    (suits : ∀ tensor ∈ Value.tensorsAll arguments, tensor.Suits before layers)
    (holds : before.Holds after)
    : ∀ cell < before.wrappers.size,
        (after.wrapper cell).shape = (before.wrapper cell).shape := by
  intro cell present
  rcases refreshed cell present with same | ⟨value, wraps, shape, -⟩
  · exact same
  · have stored := (Census.sound_of_suits suits).present wraps
    rw [shape, (Value.tags_of_suits suits _ wraps).2, Tensor.actualShape_congr holds stored]

/-- An error on well-formed arguments leaves all shapes as they are. -/
theorem Census.Keeps.steady {before after : Memory}
    (keeps : (Census.among before.heap arguments).Keeps before after)
    (suits : ∀ tensor ∈ Value.tensorsAll arguments, tensor.Suits before.heap layers)
    : before.heap.Steady after.heap := by
  have shapes := keeps.refreshed.shape_eq suits keeps.holds
  exact ⟨keeps.flags, keeps.holds, fun cell present => ⟨(keeps.wrappers cell present).1,
    shapes cell present⟩⟩

/-- So does anything that may be done to well-formed arguments without giving storage another shape.
-/
theorem Census.Allows.steadyHeap {op : Schema} {before after : Memory} {inner : List Value}
    (allows : (Census.among before.heap arguments).Allows op inner before after)
    (suits : ∀ tensor ∈ Value.tensorsAll arguments, tensor.Suits before.heap layers)
    (shaped : op.name ≠ "resize_")
    : before.heap.Steady after.heap := by
  obtain ⟨holds, refreshed⟩ := allows.steady shaped
  have shapes := refreshed.shape_eq suits holds
  exact ⟨allows.flags, holds, fun cell present => ⟨(allows.wrappers cell present).1,
    shapes cell present⟩⟩

/-- A call of an operator on well-formed arguments leaves all shapes as they are, whichever way it
ends, unless it gives storage another shape. This is what calls may do, read for arguments whose
tags are up to date.
-/
theorem leaves_steady {op : Schema} {owners : List Layer} {outer : List Value} (budget : Nat)
    (calling : machine.Calling op owners) (values : machine.values = outer ++ arguments)
    (size : arguments.length = op.arity) (shaped : op.name ≠ "resize_")
    (suits : ∀ tensor ∈ Value.tensorsAll arguments, tensor.Suits machine.heap layers)
    : ((nested budget).dispatch op).Leaves machine
        (fun _ _ memory => machine.heap.Steady memory.heap)
        (fun _ memory => machine.heap.Steady memory.heap) := by
  let census := Census.among machine.heap arguments
  have holds : (Contract.effects census).Holds budget := (Contract.effects_kept census).holds budget
  have called
      : ((nested budget).dispatch op).Affects census op owners arguments outer machine.memory
          machine :=
    holds.affects calling (.refl census _) (Census.sound_of_suits suits) values size
      (Census.known_among machine.heap arguments) rfl fun _ _ _ settled => settled
  have steady {memory : Memory} (allows : census.Allows op arguments machine.memory memory)
      : machine.heap.Steady memory.heap :=
    @Census.Allows.steadyHeap layers arguments op machine.memory memory arguments allows suits shaped
  apply Leaves.mono called
  · intro _ _ memory left
    rcases left with ⟨_, -, done⟩
    exact steady done.allows
  · exact fun _ memory undone => steady undone.allows

/-- A call on well-formed arguments leaves all shapes as they are, whichever way it ends, unless it
gives storage another shape.
-/
theorem Dispatcher.call_steady (built : machine.Built) (shaped : name ≠ "resize_")
    (suits : ∀ tensor ∈ Value.tensorsAll arguments, tensor.Suits machine.heap layers)
    : (standard.call name arguments).Leaves machine
        (fun _ _ memory => machine.heap.Steady memory.heap)
        (fun _ memory => machine.heap.Steady memory.heap) := by
  refine leaves_standard built (fun _ _ => .refl _) ?_
  intro op named count calling
  subst named
  have called
      : ((nested (standard.budget machine.thread.layers.length)).dispatch op).Leaves
          { machine with values := arguments }
          (fun _ _ memory => machine.heap.Steady memory.heap)
          (fun _ memory => machine.heap.Steady memory.heap) :=
    leaves_steady _ calling (List.nil_append _).symm count shaped suits
  exact called

end

end LayeredDispatch
