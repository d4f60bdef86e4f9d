import LayeredDispatch.Proofs.Dispatch.Leaves
import LayeredDispatch.Proofs.Dispatch.ValueStack
import Mathlib.Data.List.Forall2

/-! What is left when the tensors among some values are replaced or visited one after another, while
the memory moves on. Main statement: whatever holds of a tensor and of what takes its place, and is
not lost as the memory moves on, holds of all of them in the end.
-/

namespace LayeredDispatch

mutual
/-- Two values that differ in their tensors only, each of which is related to the one in its place. -/
inductive Value.Related (relation : Tensor → Tensor → Prop) : Value → Value → Prop where
  | tensor {handle replaced : Tensor} (related : relation handle replaced)
    : Value.Related relation (.tensor handle) (.tensor replaced)
  | list {items replaced : List Value} (related : Value.RelatedAll relation items replaced)
    : Value.Related relation (.list items) (.list replaced)
  | plain {value : Value} (plain : value.tensors = []) : Value.Related relation value value

/-- The same for lists of values. -/
inductive Value.RelatedAll (relation : Tensor → Tensor → Prop)
    : List Value → List Value → Prop where
  | nil : Value.RelatedAll relation [] []
  | cons {value replaced : Value} {values others : List Value}
    (head : Value.Related relation value replaced)
    (tail : Value.RelatedAll relation values others)
    : Value.RelatedAll relation (value :: values) (replaced :: others)
end

namespace Value

variable {relation relation' : Tensor → Tensor → Prop}

mutual
/-- A weaker relation relates the same values. The cases follow the nesting of values, together with
those of lists.
-/
theorem Related.mono (implies : ∀ tensor result, relation tensor result → relation' tensor result)
    {value replaced : Value} (h : Related relation value replaced)
    : Related relation' value replaced := by
  cases h with
  | tensor related => exact .tensor (implies _ _ related)
  | list related => exact .list (related.mono implies)
  | plain plain => exact .plain plain

theorem RelatedAll.mono
    (implies : ∀ tensor result, relation tensor result → relation' tensor result)
    {values replaced : List Value} (h : RelatedAll relation values replaced)
    : RelatedAll relation' values replaced := by
  cases h with
  | nil => exact .nil
  | cons head tail => exact .cons (head.mono implies) (tail.mono implies)
end

/-- Lists of values are related if their members are, one by one. -/
theorem RelatedAll.of_forall₂ {values replaced : List Value}
    (h : List.Forall₂ (Related relation) values replaced)
    : RelatedAll relation values replaced := by
  induction h with
  | nil => exact .nil
  | cons head tail ih => exact .cons head ih

mutual
/-- Every tensor that comes out has taken the place of one, in the same order. -/
theorem Related.tensors {value replaced : Value} (h : Related relation value replaced)
    : List.Forall₂ relation value.tensors replaced.tensors := by
  cases h with
  | tensor related => exact .cons related .nil
  | list related => exact related.tensors
  | plain plain =>
      rw [plain]
      exact .nil

/-- The same for several values, whose tensors are those of the first one followed by the others.
-/
theorem RelatedAll.tensors {values replaced : List Value}
    (h : RelatedAll relation values replaced)
    : List.Forall₂ relation (tensorsAll values) (tensorsAll replaced) := by
  cases h with
  | nil => exact .nil
  | cons head tail => exact List.rel_append head.tensors tail.tensors
end

/-- No value is lost or added when tensors are replaced. -/
theorem RelatedAll.length_eq {values replaced : List Value}
    (h : RelatedAll relation values replaced)
    : replaced.length = values.length := by
  induction values generalizing replaced with
  | nil =>
      cases h
      rfl
  | cons value values ih =>
      cases h with
      | cons head tail => rw [List.length_cons, List.length_cons, ih tail]

/-- What takes the place of a tensor is a tensor. -/
theorem Related.of_tensor {tensor : Tensor} {replaced : Value}
    (h : Related relation (.tensor tensor) replaced)
    : ∃ result, replaced = .tensor result ∧ relation tensor result := by
  cases h with
  | tensor related => exact ⟨_, rfl, related⟩
  | plain plain => cases plain

/-- Where a tensor comes out, there was one. -/
theorem Related.to_tensor {result : Tensor} {value : Value}
    (h : Related relation value (.tensor result))
    : ∃ tensor, value = .tensor tensor ∧ relation tensor result := by
  cases h with
  | tensor related => exact ⟨_, rfl, related⟩
  | plain plain => cases plain

/-- What holds of all tensors that are replaced, holds of all of those in their places, as far as
the relation carries it over.
-/
theorem RelatedAll.forall_right {values replaced : List Value} {property property' : Tensor → Prop}
    (h : RelatedAll relation values replaced)
    (holds : ∀ tensor ∈ tensorsAll values, property tensor)
    (implies : ∀ tensor result, relation tensor result → property tensor → property' result)
    : ∀ result ∈ tensorsAll replaced, property' result := by
  have related := h.tensors
  generalize tensorsAll values = tensors at related holds
  generalize tensorsAll replaced = results at related
  induction related with
  | nil => exact List.forall_mem_nil _
  | cons head tail ih =>
      obtain ⟨first, others⟩ := List.forall_mem_cons.mp holds
      exact List.forall_mem_cons.mpr ⟨implies _ _ head first, ih others⟩

/-- What holds of all tensors that come out, holds of all those whose places they have taken. -/
theorem RelatedAll.forall_left {values replaced : List Value} {property property' : Tensor → Prop}
    (h : RelatedAll relation values replaced)
    (holds : ∀ result ∈ tensorsAll replaced, property' result)
    (implies : ∀ tensor result, relation tensor result → property' result → property tensor)
    : ∀ tensor ∈ tensorsAll values, property tensor := by
  have related := h.tensors
  generalize tensorsAll values = tensors at related
  generalize tensorsAll replaced = results at related holds
  induction related with
  | nil => exact List.forall_mem_nil _
  | cons head tail ih =>
      obtain ⟨first, others⟩ := List.forall_mem_cons.mp holds
      exact List.forall_mem_cons.mpr ⟨implies _ _ head first, ih others⟩

end Value

theorem Machine.values_eq (machine : Machine) (count : Nat)
    : machine.values = machine.firstValues count ++ machine.lastValues count :=
  (List.take_append_drop _ _).symm

/-- A relation between items and what is made of them that is not lost while the memory moves on in
steps of some kind.
-/
structure Memory.Persists (steps : Memory → Memory → Prop) (relation : Memory → α → β → Prop)
    : Prop where
  refl : ∀ memory, steps memory memory
  trans : ∀ {before middle after}, steps before middle → steps middle after → steps before after
  stable
    : ∀ {item result before after},
        relation before item result → steps before after → relation after item result

/-- What does not depend on the memory is not lost either. -/
theorem Memory.Persists.also {steps : Memory → Memory → Prop} {relation : Memory → α → β → Prop}
    (h : Memory.Persists steps relation) (other : α → β → Prop)
    : Memory.Persists steps fun memory item result => relation memory item result ∧ other item result
    where
  refl := h.refl
  trans := h.trans
  stable related moved := ⟨h.stable related.1 moved, related.2⟩

namespace Run

variable {machine : Machine} {failed : Exit → Memory → Prop} {steps : Memory → Memory → Prop}

/-- Items are replaced one after another. What is known of an item and its replacement must survive
the steps that the memory makes for the later items, which is what `Memory.Persists` says; the
induction on the items collects it in the order of the list.
-/
theorem Leaves.mapM {visit : α → Run β} {relation : Memory → α → β → Prop} {items : List α}
    (persists : Memory.Persists steps relation)
    (each
      : ∀ item ∈ items, ∀ start,
          machine.Resumes start
          → start.values = machine.values
          → steps machine.memory start.memory
          → (visit item).Leaves start
              (fun result values memory =>
                values = start.values ∧ steps start.memory memory ∧ relation memory item result)
              failed)
    : (items.mapM visit).Leaves machine
        (fun results values memory =>
          values = machine.values
          ∧ steps machine.memory memory
          ∧ List.Forall₂ (relation memory) items results)
        failed := by
  induction items generalizing machine with
  | nil => exact leaves_pure ⟨rfl, persists.refl _, .nil⟩
  | cons item items ih =>
      rw [List.mapM_cons]
      have first := each item List.mem_cons_self machine (.refl machine) rfl (persists.refl _)
      refine first.bind ?_
      rintro result middle _ resumes ⟨same, moved, related⟩
      have rest := @ih middle ?_
      · refine rest.bind ?_
        rintro results reached _ _ ⟨same', moved', others⟩
        exact leaves_pure ⟨same'.trans same, persists.trans moved moved',
          .cons (persists.stable related moved') others⟩
      · intro other member start later kept moving
        exact each other (List.mem_cons_of_mem _ member) start (resumes.trans later)
          (kept.trans same) (persists.trans moved moving)

variable {replace : Tensor → Run Tensor} {relation : Memory → Tensor → Tensor → Prop}

mutual
/-- The tensors of one value are replaced one after another, as deep as they are nested. -/
theorem leaves_mapTensorsM (persists : Memory.Persists steps relation) (value : Value)
    (machine : Machine)
    (each
      : ∀ tensor ∈ value.tensors, ∀ start,
          machine.Resumes start
          → start.values = machine.values
          → steps machine.memory start.memory
          → (replace tensor).Leaves start
              (fun result values memory =>
                values = start.values
                ∧ steps start.memory memory
                ∧ relation memory tensor result)
              failed)
    : (value.mapTensorsM replace).Leaves machine
        (fun replaced values memory =>
          values = machine.values
          ∧ steps machine.memory memory
          ∧ Value.Related (relation memory) value replaced)
        failed := by
  cases value with
  | tensor handle =>
      have only := each handle (List.mem_singleton_self _) machine (.refl machine) rfl
        (persists.refl _)
      refine only.bind ?_
      rintro result reached _ _ ⟨same, moved, related⟩
      exact leaves_pure ⟨same, moved, .tensor related⟩
  | list items =>
      refine (leaves_mapTensorsAllM persists items machine each).bind ?_
      rintro replaced reached _ _ ⟨same, moved, related⟩
      exact leaves_pure ⟨same, moved, .list related⟩
  | absent | bool _ | int _ | float _ | ints _ =>
      exact leaves_pure ⟨rfl, persists.refl _, .plain rfl⟩

/-- The tensors among values are replaced one after another, members of lists included. The first
value is replaced before the memory moves on for the others, so its relation is carried along.
-/
theorem leaves_mapTensorsAllM (persists : Memory.Persists steps relation) (items : List Value)
    (machine : Machine)
    (each
      : ∀ tensor ∈ Value.tensorsAll items, ∀ start,
          machine.Resumes start
          → start.values = machine.values
          → steps machine.memory start.memory
          → (replace tensor).Leaves start
              (fun result values memory =>
                values = start.values
                ∧ steps start.memory memory
                ∧ relation memory tensor result)
              failed)
    : (Value.mapTensorsAllM replace items).Leaves machine
        (fun replaced values memory =>
          values = machine.values
          ∧ steps machine.memory memory
          ∧ Value.RelatedAll (relation memory) items replaced)
        failed := by
  cases items with
  | nil => exact leaves_pure ⟨rfl, persists.refl _, .nil⟩
  | cons value items =>
      have first := leaves_mapTensorsM persists value machine fun tensor member =>
        each tensor (List.mem_append_left _ member)
      refine first.bind ?_
      rintro head middle _ resumes ⟨same, moved, related⟩
      have rest := leaves_mapTensorsAllM persists items middle ?_
      · refine rest.bind ?_
        rintro tail reached _ _ ⟨same', moved', others⟩
        refine leaves_pure ⟨same'.trans same, persists.trans moved moved', .cons ?_ others⟩
        exact related.mono fun _ _ held => persists.stable held moved'
      · intro tensor member start later kept moving
        exact each tensor (List.mem_append_right _ member) start (resumes.trans later)
          (kept.trans same) (persists.trans moved moving)
end

/-- What replaces the last values, takes their place on the values below. The range reaches to the
end, so the replaced values are put on what was below them.
-/
theorem leaves_mapRange {outer items : List Value} {ok : Unit → List Value → Memory → Prop}
    (values : machine.values = outer ++ items)
    (inner
      : (Value.mapTensorsAllM replace items).Leaves machine
          (fun replaced _ memory => ok () (outer ++ replaced) memory) failed)
    : (Run.mapRange outer.length (outer.length + items.length) replace).Leaves machine ok
        failed := by
  refine (quiet_read _).leaves_step rfl ?_
  have inside
      : outer.length ≤ outer.length + items.length
        ∧ outer.length + items.length ≤ machine.values.length := by
    rw [values, List.length_append]
    exact ⟨Nat.le_add_right _ _, Nat.le_refl _⟩
  have chosen
      : (machine.values.take (outer.length + items.length)).drop outer.length = items := by
    rw [values, ← List.length_append, List.take_length, List.drop_left]
  rw [if_pos inside, chosen]
  refine inner.bind ?_
  intro replaced reached _ _ left
  refine Quiet.leaves ?_ rfl ?_
  · exact quiet_modify (fun _ => rfl) (fun _ => rfl) (fun _ => rfl)
  change ok () (machine.values.take _ ++ replaced ++ machine.values.drop _) reached.memory
  rw [values, ← List.length_append, List.drop_length, List.append_nil, List.take_left]
  exact left

/-- The tensors among the last values are replaced, the values below stay. What is assumed of the
replacement may use that the memory has only moved on since the start.
-/
theorem Leaves.mapLast {outer items : List Value} (persists : Memory.Persists steps relation)
    (values : machine.values = outer ++ items)
    (each
      : ∀ tensor ∈ Value.tensorsAll items, ∀ start,
          machine.Resumes start
          → start.values = machine.values
          → steps machine.memory start.memory
          → (replace tensor).Leaves start
              (fun result values memory =>
                values = start.values
                ∧ steps start.memory memory
                ∧ relation memory tensor result)
              failed)
    : (Run.mapLast items.length replace).Leaves machine
        (fun _ values memory =>
          ∃ replaced,
            values = outer ++ replaced
            ∧ steps machine.memory memory
            ∧ Value.RelatedAll (relation memory) items replaced)
        failed := by
  refine (quiet_writing.lastStart _).leaves_step (lastStart_append values) (leaves_mapRange values ?_)
  refine (leaves_mapTensorsAllM persists items machine each).mono ?_ fun _ _ => id
  rintro replaced _ memory ⟨-, moved, related⟩
  exact ⟨replaced, rfl, moved, related⟩

/-- Copies of the arguments, in which tensors are replaced, are put on top of them. The arguments
stay below, where the layer finds them when it comes back.
-/
theorem Leaves.copyUntagged {outer arguments : List Value} {op : Schema} {level : Level}
    (persists : Memory.Persists steps relation) (values : machine.values = outer ++ arguments)
    (size : arguments.length = op.arity)
    (each
      : ∀ tensor ∈ Value.tensorsAll arguments, ∀ start,
          machine.Resumes start
          → steps machine.memory start.memory
          → (unwrapAt tensor level).Leaves start
              (fun result values memory =>
                values = start.values
                ∧ steps start.memory memory
                ∧ relation memory tensor result)
              failed)
    : (LayeredDispatch.copyUntagged op level).Leaves machine
        (fun _ values memory =>
          ∃ inner,
            values = outer ++ arguments ++ inner
            ∧ steps machine.memory memory
            ∧ Value.RelatedAll (relation memory) arguments inner)
        failed := by
  unfold LayeredDispatch.copyUntagged
  rw [← size]
  refine (quiet_writing.peek _).leaves_step (peek_append values) ?_
  have pushed := (quiet_writing.pushAll arguments machine).resumes rfl
  refine (quiet_writing.pushAll arguments).leaves_step rfl ?_
  apply Leaves.mapLast persists (congrArg (· ++ arguments) values)
  intro tensor member start resumes _ moved
  exact each tensor member start (pushed.trans resumes) moved

end Run
end LayeredDispatch
