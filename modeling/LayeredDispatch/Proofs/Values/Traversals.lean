import LayeredDispatch.Machine.Values
import LayeredDispatch.Proofs.Dispatch.Replacing

/-! Boxed values are visited, rewritten and asked for their hooks by three recursions over nested lists.
Main statement: all three see the same tensors. Rewriting a range applies a function to the tensors that
a visit of the range sees, once each and in the same order, and changes nothing else; hooks are carried
by those tensors and by nothing else.
-/

namespace LayeredDispatch

mutual
/-- The value with other tensors in the places of its own, in order. -/
def Value.refill : Value → List Tensor → Value
  | .tensor handle, others => .tensor (others.headD handle)
  | .list items, others => .list (refillAll items others)
  | value, _ => value

/-- Several values with other tensors in the places of their own, in order. -/
def Value.refillAll : List Value → List Tensor → List Value
  | [], _ => []
  | value :: values, others =>
      value.refill (others.take value.tensors.length)
        :: refillAll values (others.drop value.tensors.length)
end

/-- Values that differ from others in their tensors only, nested lists and all else being the same, and
whose tensors are the given ones in order.
-/
structure Value.Refilled (values : List Value) (tensors : List Tensor) (replaced : List Value) : Prop
    where
  alike : RelatedAll (fun _ _ => True) values replaced
  tensors : tensorsAll replaced = tensors

/-- The boxed values from `start` up to `stop`. -/
def Machine.between (machine : Machine) (start stop : Nat) : List Value :=
  (machine.values.take stop).drop start

/-- The base operators, and the members of several sets. -/
def CapabilitySet.union (sets : List CapabilitySet) : CapabilitySet :=
  sets.foldr (· ∪ ·) (.only .backend)

-----------------------------------------------------------------------------------------
-- Filling in
-----------------------------------------------------------------------------------------

namespace Value

mutual
/-- Filling in other tensors changes nothing but tensors. -/
theorem related_refill (value : Value) (others : List Tensor)
    : Related (fun _ _ => True) value (value.refill others) := by
  cases value with
  | tensor handle => exact .tensor trivial
  | list items => exact .list (relatedAll_refillAll items others)
  | absent | bool _ | int _ | float _ | ints _ => exact .plain rfl

/-- The same for several values, each of which takes as many tensors as it has. -/
theorem relatedAll_refillAll (values : List Value) (others : List Tensor)
    : RelatedAll (fun _ _ => True) values (refillAll values others) := by
  cases values with
  | nil => exact .nil
  | cons value values =>
      exact .cons (related_refill value _) (relatedAll_refillAll values _)
end

mutual
/-- The tensors that are filled in are those that the value has afterwards, if they are as many as
its places.
-/
theorem tensors_refill (value : Value) {others : List Tensor}
    (size : others.length = value.tensors.length)
    : (value.refill others).tensors = others := by
  cases value with
  | tensor handle =>
      obtain ⟨other, rfl⟩ := List.length_eq_one_iff.mp size
      rfl
  | list items => exact tensorsAll_refillAll items size
  | absent | bool _ | int _ | float _ | ints _ => exact (List.eq_nil_of_length_eq_zero size).symm

/-- The same for several values. The tensors are split where the first value ends. -/
theorem tensorsAll_refillAll (values : List Value) {others : List Tensor}
    (size : others.length = (tensorsAll values).length)
    : tensorsAll (refillAll values others) = others := by
  cases values with
  | nil => exact (List.eq_nil_of_length_eq_zero size).symm
  | cons value values =>
      rw [tensorsAll, List.length_append] at size
      have first : (others.take value.tensors.length).length = value.tensors.length := by
        rw [List.length_take, size, Nat.min_eq_left (Nat.le_add_right _ _)]
      have later : (others.drop value.tensors.length).length = (tensorsAll values).length := by
        rw [List.length_drop, size, Nat.add_sub_cancel_left]
      rw [refillAll, tensorsAll, tensors_refill value first, tensorsAll_refillAll values later,
        List.take_append_drop]
end

/-- Tensors for all places are found in these places again, and nothing else has changed. -/
theorem refilled_refillAll (values : List Value) {others : List Tensor}
    (size : others.length = (tensorsAll values).length)
    : Refilled values others (refillAll values others) :=
  ⟨relatedAll_refillAll values others, tensorsAll_refillAll values size⟩

end Value

-----------------------------------------------------------------------------------------
-- Rewriting and visiting
-----------------------------------------------------------------------------------------

/-- What follows on a loop is told as many results as there are items, in every monad: the loop may
fail or branch, but where it goes on it has a result for each item.
-/
theorem mapM_bind_congr [Monad m] [LawfulMonad m] {visit : α → m β} {next next' : List β → m γ}
    (items : List α)
    (same : ∀ results, results.length = items.length → next results = next' results)
    : items.mapM visit >>= next = items.mapM visit >>= next' := by
  induction items generalizing next next' with
  | nil => simpa using same [] rfl
  | cons item items ih =>
      simp only [List.mapM_cons, bind_assoc, pure_bind]
      refine bind_congr fun first => ih fun results size => same (first :: results) ?_
      rw [List.length_cons, List.length_cons, size]

/-- A visit for the effects alone is the loop without its results. -/
theorem forM_discard [Monad m] [LawfulMonad m] (visit : α → m β) (items : List α)
    : (items.forM fun item => discard (visit item)) = discard (items.mapM visit) := by
  induction items with
  | nil => simp [discard, Functor.discard, map_const]
  | cons item items ih =>
      rw [List.mapM_cons, List.forM, ih]
      simp only [Functor.discard, map_const, Function.comp_apply, map_eq_pure_bind, bind_assoc,
        pure_bind, Function.const_apply]

namespace Value

section

variable [Monad m] [LawfulMonad m] (replace : Tensor → m Tensor)

mutual
/-- Replacing the tensors of a value is a loop over them, followed by filling in. The value and the
values of its list are settled together.
-/
theorem mapTensorsM_eq (value : Value)
    : value.mapTensorsM replace = value.refill <$> value.tensors.mapM replace := by
  cases value with
  | tensor handle => simp [mapTensorsM, tensors, refill]
  | list items =>
      simp only [mapTensorsM, tensors, mapTensorsAllM_eq items, map_eq_pure_bind, bind_assoc,
        pure_bind, refill]
  | absent | bool _ | int _ | float _ | ints _ => simp [mapTensorsM, tensors, refill]

/-- Tensors are replaced as by a loop over all of them, and what comes out is put in their places.
The loop over two values is one over the tensors of both, so their results are split again.
-/
theorem mapTensorsAllM_eq (values : List Value)
    : mapTensorsAllM replace values = refillAll values <$> (tensorsAll values).mapM replace := by
  cases values with
  | nil => simp [mapTensorsAllM, tensorsAll, refillAll]
  | cons value values =>
      simp only [mapTensorsAllM, tensorsAll, mapTensorsM_eq value, mapTensorsAllM_eq values,
        List.mapM_append, map_eq_pure_bind, bind_assoc, pure_bind]
      refine mapM_bind_congr _ fun results size => bind_congr fun others => ?_
      rw [refillAll, ← size, List.take_left, List.drop_left]
end

end

end Value

namespace Run

/-- A loop that gives results gives one for every item. -/
theorem mapM_ok_length {visit : α → Run β} {items : List α} {results : List β}
    {machine reached : Machine} (ended : items.mapM visit machine = .ok results reached)
    : results.length = items.length := by
  induction items generalizing results machine with
  | nil =>
      cases ended
      rfl
  | cons item items ih =>
      rw [List.mapM_cons] at ended
      obtain ⟨first, middle, -, ended⟩ := bind_ok ended
      obtain ⟨others, last, looped, ended⟩ := bind_ok ended
      cases ended
      rw [List.length_cons, List.length_cons, ih looped]

/-- A range is rewritten by the loop over its tensors. Where the loop fails, nothing has been
rewritten.
-/
theorem mapRange_apply {start stop : Nat} (machine : Machine) (replace : Tensor → Run Tensor)
    (ordered : start ≤ stop) (inside : stop ≤ machine.values.length)
    : mapRange start stop replace machine =
        match (Value.tensorsAll (machine.between start stop)).mapM replace machine with
        | .ok results reached =>
            .ok ()
              { reached with
                values :=
                  machine.values.take start
                    ++ Value.refillAll (machine.between start stop) results
                    ++ machine.values.drop stop }
        | .error exit reached => .error exit reached := by
  rw [mapRange, bind_apply, read_apply]
  dsimp only
  rw [if_pos ⟨ordered, inside⟩, bind_apply, Value.mapTensorsAllM_eq, map_apply, Machine.between]
  cases (Value.tensorsAll ((machine.values.take stop).drop start)).mapM replace machine with
  | ok results reached => rfl
  | error exit reached => rfl

end Run

-----------------------------------------------------------------------------------------
-- Hooks
-----------------------------------------------------------------------------------------

namespace CapabilitySet

theorem union_assoc (first second third : CapabilitySet)
    : first ∪ second ∪ third = first ∪ (second ∪ third) :=
  congrArg mk (BitVec.or_assoc _ _ _)

theorem union_comm (first second : CapabilitySet) : first ∪ second = second ∪ first :=
  congrArg mk (BitVec.or_comm _ _)

theorem union_self (set : CapabilitySet) : set ∪ set = set :=
  congrArg mk BitVec.or_self

/-- The base operators are in every union already. -/
theorem only_union (sets : List CapabilitySet) : .only .backend ∪ union sets = union sets := by
  induction sets with
  | nil => exact union_self _
  | cons set sets ih =>
      change _ ∪ (set ∪ union sets) = set ∪ union sets
      rw [← union_assoc, union_comm _ set, union_assoc, ih]

/-- The union of the sets of two lists is that of both unions. -/
theorem union_append (first second : List CapabilitySet)
    : union (first ++ second) = union first ∪ union second := by
  induction first with
  | nil => exact (only_union second).symm
  | cons set sets ih =>
      change set ∪ union (sets ++ second) = set ∪ union sets ∪ union second
      rw [ih, union_assoc]

end CapabilitySet

namespace Value

mutual
/-- The hooks of a value, with the base operators, are those of its tensors. A value without tensors
carries only the base.
-/
theorem only_union_capabilities (heap : Heap) (value : Value)
    : .only .backend ∪ value.capabilities heap
      = .union (value.tensors.map (Tensor.capabilities heap)) := by
  cases value with
  | tensor handle => exact CapabilitySet.union_comm _ _
  | list items =>
      rw [capabilities, carried_eq_union heap items]
      exact CapabilitySet.only_union _
  | absent | bool _ | int _ | float _ | ints _ => exact CapabilitySet.union_self _

/-- The hooks of several values are those of all their tensors. -/
theorem carried_eq_union (heap : Heap) (values : List Value)
    : carried heap values = .union ((tensorsAll values).map (Tensor.capabilities heap)) := by
  cases values with
  | nil => rfl
  | cons value values =>
      rw [carried, tensorsAll, List.map_append, CapabilitySet.union_append,
        ← only_union_capabilities heap value, carried_eq_union heap values,
        CapabilitySet.union_comm (.only .backend), CapabilitySet.union_assoc,
        CapabilitySet.only_union]
end

end Value

/-- The three traversals of boxed values see the same tensors. In every monad, replacing the tensors of
values is a loop over the tensors that a visit sees, in the order of the visit, and the results take the
places of the tensors: values that are no tensors are as before, and so is the nesting of lists. On the
boxed values of a machine, rewriting a range that lies within them completes where the loop over the
range does and where a visit of the range with the same function does; a visit of the range then sees the
results in order, and what lies outside the range is as before. The hooks of a value, with the base
operators, are those of the tensors that a visit sees, and those of several values likewise.
-/
theorem Value.traversals_agree
    : (∀ {m : Type → Type u} [Monad m] [LawfulMonad m] (replace : Tensor → m Tensor)
        (values : List Value),
        mapTensorsAllM replace values = refillAll values <$> (tensorsAll values).mapM replace)
      ∧ (∀ (values : List Value) (results : List Tensor),
        results.length = (tensorsAll values).length
        → Refilled values results (refillAll values results))
      ∧ (∀ (machine : Machine) (start stop : Nat) (replace : Tensor → Run Tensor),
        start ≤ stop
        → stop ≤ machine.values.length
        → (∃ results reached,
            (tensorsAll (machine.between start stop)).mapM replace machine = .ok results reached
            ∧ Run.forTensors (machine.between start stop) (fun tensor => discard (replace tensor))
                machine
              = .ok () reached
            ∧ Run.mapRange start stop replace machine
              = .ok ()
                  { reached with
                    values :=
                      machine.values.take start ++ refillAll (machine.between start stop) results
                        ++ machine.values.drop stop }
            ∧ Refilled (machine.between start stop) results
                (refillAll (machine.between start stop) results))
          ∨ ∃ exit reached,
              (tensorsAll (machine.between start stop)).mapM replace machine = .error exit reached
              ∧ Run.forTensors (machine.between start stop) (fun tensor => discard (replace tensor))
                  machine
                = .error exit reached
              ∧ ∃ left, Run.mapRange start stop replace machine = .error exit left)
      ∧ (∀ (heap : Heap) (value : Value),
        .only .backend ∪ value.capabilities heap
        = .union (value.tensors.map (Tensor.capabilities heap)))
      ∧ ∀ (heap : Heap) (values : List Value),
          carried heap values = .union ((tensorsAll values).map (Tensor.capabilities heap)) := by
  refine ⟨mapTensorsAllM_eq, fun values _ => refilled_refillAll values, ?_,
    only_union_capabilities, carried_eq_union⟩
  intro machine start stop replace ordered inside
  rw [Run.mapRange_apply machine replace ordered inside, Run.forTensors, forM_discard,
    Run.discard_apply]
  cases ended : (tensorsAll (machine.between start stop)).mapM replace machine with
  | ok results reached =>
      exact .inl ⟨results, reached, rfl, rfl, rfl,
        refilled_refillAll _ (Run.mapM_ok_length ended)⟩
  | error exit reached => exact .inr ⟨exit, reached, rfl, rfl, reached, rfl⟩

/-- Witness: tensors in lists two deep are numbered from left to right, all of them by a counter and
those of a range by the places that they take on the heap.
-/
theorem Value.traversals_agree_nested
    : ∃ (machine reached : Machine) (numbered : Tensor → StateM Nat Tensor)
        (stored : Tensor → Run Tensor) (values : List Value),
        machine.values
          = [.int 7, .tensor (.dense 9),
            .list [.tensor (.dense 9), .absent, .list [.tensor (.dense 9)]], .tensor (.dense 9)]
        ∧ mapTensorsAllM numbered machine.values 0 = (values, 4)
        ∧ values
          = [.int 7, .tensor (.dense 0),
            .list [.tensor (.dense 1), .absent, .list [.tensor (.dense 2)]], .tensor (.dense 3)]
        ∧ Refilled machine.values [.dense 0, .dense 1, .dense 2, .dense 3] values
        ∧ Run.mapRange 1 3 stored machine = .ok () reached
        ∧ reached.values
          = [.int 7, .tensor (.dense 0),
            .list [.tensor (.dense 1), .absent, .list [.tensor (.dense 2)]], .tensor (.dense 9)]
        ∧ reached.heap.storages.size = 3 := by
  let machine : Machine :=
    { values :=
        [.int 7, .tensor (.dense 9),
          .list [.tensor (.dense 9), .absent, .list [.tensor (.dense 9)]], .tensor (.dense 9)] }
  let numbered : Tensor → StateM Nat Tensor := fun _ next => (.dense next, next + 1)
  let stored : Tensor → Run Tensor := fun _ =>
    Run.allocate fun heap => heap.newDense ⟨.scalar, #[0]⟩
  obtain ⟨loops, refills, rewrites, -⟩ := Value.traversals_agree
  have counted := congrFun (loops numbered machine.values) 0
  have refilled := refills machine.values [.dense 0, .dense 1, .dense 2, .dense 3] rfl
  rcases rewrites machine 1 3 stored (by decide) (by decide)
    with ⟨results, reached, looped, -, ended, -⟩ | ⟨exit, reached, looped, -⟩
  · cases looped
    exact ⟨machine, _, numbered, stored, _, rfl, counted, rfl, refilled, ended, rfl, rfl⟩
  · cases looped

end LayeredDispatch
