import LayeredDispatch.Proofs.Twins.Crossing

/-! What rules and base operators read off related arguments, and what they put in front of the values
that they hand on. Main statements: related arguments are read alike, and insertions of dimensions into
related values, which are calls of their own, end alike.
-/

namespace LayeredDispatch

open Run Dispatcher

section

variable {pairing : Pairing} {strict exempt : Prop} {machine twin : Machine}
  {failed : Exit → Exit → Prop} {relation : Tensor → Tensor → Prop} {op : Schema}
  {arguments arguments' outer outer' : List Value} {heap other : Heap}

-----------------------------------------------------------------------------------------
-- Reading arguments
-----------------------------------------------------------------------------------------

/-- Related values are related one by one. -/
theorem Value.RelatedAll.forall₂ {values values' : List Value} (h : RelatedAll relation values values')
    : List.Forall₂ (Related relation) values values' := by
  induction values generalizing values' with
  | nil =>
      cases h
      exact .nil
  | cons value values ih =>
      cases h with
      | cons head tail => exact .cons head (ih tail)

/-- Of two related values both are tensors or neither is. -/
theorem Value.Related.tensor? {value value' : Value} (h : Related relation value value')
    : Option.Rel relation value.tensor? value'.tensor? := by
  cases h with
  | tensor related => exact .some related
  | list related => exact .none
  | plain plain =>
      rw [Value.tensor?_plain plain]
      exact .none

/-- At each place both runs have a value or neither has, and the values are related. -/
theorem Value.RelatedAll.getElem? {values values' : List Value}
    (h : RelatedAll relation values values') (index : Nat)
    : Option.Rel (Related relation) values[index]? values'[index]? := by
  induction values generalizing values' index with
  | nil =>
      cases h
      exact .none
  | cons value values ih =>
      cases h with
      | cons head tail =>
          cases index with
          | zero => exact .some head
          | succ index => exact ih tail index

/-- A tensor is read in both runs, or in neither. -/
theorem Run.Beside.tensorAt {next : Tensor → Run α} {next' : Tensor → Run β}
    {ok : α → List Value → Memory → β → List Value → Memory → Prop}
    (related : Value.RelatedAll relation arguments arguments')
    (alike : ∀ exit exit', exit.Alike exit' → failed exit exit') (name : String) (index : Nat)
    (tail
      : ∀ tensor tensor',
          relation tensor tensor'
          → Beside strict (next tensor) (next' tensor') machine twin ok failed)
    : Beside strict (liftM (Value.tensorAt arguments name index) >>= next)
        (liftM (Value.tensorAt arguments' name index) >>= next') machine twin ok failed := by
  have refused {error : DispatchError}
      : Beside strict (liftM (Outcome.fail error : Outcome Tensor) >>= next)
          (liftM (Outcome.fail error : Outcome Tensor) >>= next') machine twin ok failed := by
    have orderly : Exit.Orderly (.error error) := trivial
    exact .ended rfl rfl orderly orderly (alike _ _ (.same _))
  unfold Value.tensorAt
  have read := related.getElem? index
  generalize arguments[index]? = given at read ⊢
  generalize arguments'[index]? = given' at read ⊢
  cases read with
  | none => exact refused
  | some related =>
      cases related with
      | tensor related => exact .step rfl rfl (tail _ _ related)
      | list related => exact refused
      | plain plain =>
          rename_i value
          cases value with
          | tensor handle => cases plain
          | absent | bool _ | int _ | float _ | ints _ | list _ => exact refused

/-- What both runs read alike they go on with, or both of them end. -/
theorem Run.Beside.lift {outcome outcome' : Outcome γ} {next : γ → Run α} {next' : γ → Run β}
    {ok : α → List Value → Memory → β → List Value → Memory → Prop} (same : outcome' = outcome)
    (orderly : outcome.Orderly) (alike : ∀ exit exit', exit.Alike exit' → failed exit exit')
    (tail
      : ∀ value,
          outcome = .ok value → Beside strict (next value) (next' value) machine twin ok failed)
    : Beside strict (liftM outcome >>= next) (liftM outcome' >>= next') machine twin ok failed := by
  subst same
  cases outcome' with
  | ok value => exact .step rfl rfl (tail value rfl)
  | error exit =>
      exact .ended rfl rfl (orderly exit rfl) (orderly exit rfl) (alike _ _ (.same exit))

/-- Integers are read alike in both runs, as they are related to themselves only. -/
theorem intAt_eq (related : Value.RelatedAll relation arguments arguments') (name : String)
    (index : Nat)
    : Value.intAt arguments' name index = Value.intAt arguments name index := by
  unfold Value.intAt
  have read := related.getElem? index
  generalize arguments[index]? = given at read ⊢
  generalize arguments'[index]? = given' at read ⊢
  cases read with
  | none => rfl
  | some related => cases related <;> rfl

/-- So are lists of sizes. -/
theorem sizesAt_eq (related : Value.RelatedAll relation arguments arguments') (name : String)
    (index : Nat)
    : Value.sizesAt arguments' name index = Value.sizesAt arguments name index := by
  unfold Value.sizesAt
  have read := related.getElem? index
  generalize arguments[index]? = given at read ⊢
  generalize arguments'[index]? = given' at read ⊢
  cases read with
  | none => rfl
  | some related => cases related <;> rfl

theorem isSome_eq_of_rel {among : α → β → Prop} {first : Option α} {second : Option β}
    (h : Option.Rel among first second)
    : second.isSome = first.isSome := by
  cases h <;> rfl

/-- Of two related values both are batches of a level or neither is, and their physical values
correspond.
-/
theorem physicalArgument?_rel {value value' : Value}
    (related : Value.Related pairing.Faces value value') (level : Level)
    : Option.Rel pairing.Matched (Batching.physicalArgument? level value)
        (Batching.physicalArgument? level value') := by
  have given := related.tensor?
  unfold Batching.physicalArgument?
  generalize value.tensor? = tensor? at given ⊢
  generalize value'.tensor? = tensor?' at given ⊢
  cases given with
  | none => exact .none
  | some faces => exact faces.physicalAt? level

/-- Some argument is batched in both runs, or in neither. -/
theorem any_physical_eq (related : Value.RelatedAll pairing.Faces arguments arguments')
    (level : Level)
    : (arguments'.any fun argument => (Batching.physicalArgument? level argument).isSome)
      = arguments.any fun argument => (Batching.physicalArgument? level argument).isSome := by
  replace related := related.forall₂
  induction related with
  | nil => rfl
  | cons head tail ih =>
      have given := physicalArgument?_rel head level
      rw [List.any_cons, List.any_cons, ih, isSome_eq_of_rel given]

/-- The rules see as many dimensions in both runs, because tensors that correspond have the same
shape.
-/
theorem logicalRank_eq (related : Value.RelatedAll pairing.Faces arguments arguments')
    (alike : pairing.Alike heap other)
    : Batching.logicalRank other arguments' = Batching.logicalRank heap arguments := by
  unfold Batching.logicalRank
  replace related := related.forall₂
  generalize 0 = start
  induction related generalizing start with
  | nil => rfl
  | @cons value value' rest rest' head tail ih =>
      have given := head.tensor?
      rw [List.filterMap_cons, List.filterMap_cons]
      generalize value.tensor? = tensor? at given ⊢
      generalize value'.tensor? = tensor?' at given ⊢
      cases given with
      | none => exact ih start
      | some faces =>
          simp only [List.foldl_cons, faces.toMatched.shape_eq alike]
          exact ih _

-----------------------------------------------------------------------------------------
-- Inserting dimensions
-----------------------------------------------------------------------------------------

/-- Insertions into related values, where each of them goes alike in both runs. The induction is on
the rounds that are left; both runs pad equally often, as their values have the same shapes.
-/
theorem beside_pad {calls : Calls} {physical physical' : Tensor}
    (matched : pairing.Matched physical physical') (twins : pairing.Twins machine twin)
    (alike : ∀ exit exit', exit.Alike exit' → failed exit exit')
    (insertion
      : ∀ tensor tensor',
          pairing.Matched tensor tensor'
          → ∀ start start',
            machine.Returns start
            → twin.Returns start'
            → pairing.Twins start start'
            → Beside strict (calls.callTensor "unsqueeze" [.tensor tensor, .int 1])
                (calls.callTensor "unsqueeze" [.tensor tensor', .int 1]) start start'
                (pairing.Gives start start' pairing.Matched) failed)
    (rank count : Nat)
    : Beside strict (Batching.pad calls rank count physical)
        (Batching.pad calls rank count physical') machine twin
        (pairing.Gives machine twin pairing.Matched) failed := by
  induction count generalizing machine twin physical physical' with
  | zero =>
      have shape' : shapeOf physical' twin = .ok (physical.shape machine.heap) twin := by
        rw [shapeOf, read_apply, matched.shape_eq twins.alike]
      unfold Batching.pad
      refine .step (read_apply _ machine) shape' ?_
      split
      · exact beside_fault trivial trivial (alike _ _ (.same _))
      · exact beside_pure ⟨rfl, rfl, twins.memory, matched⟩
  | succ count ih =>
      have shape' : shapeOf physical' twin = .ok (physical.shape machine.heap) twin := by
        rw [shapeOf, read_apply, matched.shape_eq twins.alike]
      unfold Batching.pad
      refine .step (read_apply _ machine) shape' ?_
      split
      · refine (insertion physical physical' matched machine twin (.refl machine) (.refl twin)
          twins).bind ?_
        intro padded reached padded' reached' _ _ returns returns' left
        rcases left with ⟨same, same', agrees, matched⟩
        refine (ih matched (twins.returns returns returns' agrees)
          fun tensor tensor' matched start start' later later' =>
            insertion tensor tensor' matched start start' (returns.trans later)
              (returns'.trans later')).mono ?_ fun _ _ => id
        intro result values memory result' values' memory' left
        rcases left with ⟨kept, kept', agrees, matched⟩
        exact ⟨kept.trans same, kept'.trans same', agrees, matched⟩
      · exact beside_pure ⟨rfl, rfl, twins.memory, matched⟩

end

end LayeredDispatch
