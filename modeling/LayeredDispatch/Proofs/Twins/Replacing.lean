import LayeredDispatch.Proofs.Effects.Interceptors
import LayeredDispatch.Proofs.Twins.Pairing

/-! What the interceptors make of related values in two runs. Values are replaced one after another in
both of them. Main statements: whatever holds of what takes the places of two related tensors, holds
of all tensors in the end; a call by name goes like the call of the operator.
-/

namespace LayeredDispatch

open Run

/-- The same error, or a fault on both sides. -/
inductive Exit.Alike : Exit → Exit → Prop where
  | same (exit : Exit) : Alike exit exit
  | faults (fault fault' : Fault) : Alike (.fault fault) (.fault fault')

/-- Both computations leave the boxed values as they are and give related results. -/
def Pairing.Gives (pairing : Pairing) (machine twin : Machine) (relation : α → β → Prop)
    (result : α) (values : List Value) (memory : Memory) (result' : β) (values' : List Value)
    (memory' : Memory)
    : Prop :=
  values = machine.values
  ∧ values' = twin.values
  ∧ pairing.Agrees memory memory'
  ∧ relation result result'

mutual
/-- Where there are no tensors nothing is replaced. -/
theorem Value.mapTensorsM_plain {value : Value} (plain : value.tensors = [])
    (replace : Tensor → Run Tensor)
    : value.mapTensorsM replace = pure value := by
  cases value with
  | tensor handle => cases plain
  | list items => rw [mapTensorsM, Value.mapTensorsAllM_plain plain, pure_bind]
  | absent | bool _ | int _ | float _ | ints _ => rfl

/-- Nor is anything in values that hold none. -/
theorem Value.mapTensorsAllM_plain {values : List Value} (plain : tensorsAll values = [])
    (replace : Tensor → Run Tensor)
    : mapTensorsAllM replace values = pure values := by
  cases values with
  | nil => rfl
  | cons value values =>
      obtain ⟨head, tail⟩ := List.append_eq_nil_iff.mp plain
      rw [mapTensorsAllM, Value.mapTensorsM_plain head, Value.mapTensorsAllM_plain tail, pure_bind,
        pure_bind]
end

namespace Run

section

variable {pairing : Pairing} {strict : Prop} {machine twin : Machine} {failed : Exit → Exit → Prop}
  {relation relation' : Tensor → Tensor → Prop} {replace replace' : Tensor → Run Tensor}
  {outer outer' items items' arguments arguments' : List Value}

-----------------------------------------------------------------------------------------
-- One after another
-----------------------------------------------------------------------------------------

/-- Items are replaced one after another in both runs, by induction on the items. What has been
replaced first stays related, as the states only go on to correspond.
-/
theorem Beside.mapM {visit : α → Run β} {visit' : γ → Run δ} {among : α → γ → Prop}
    {among' : β → δ → Prop} {list : List α} {list' : List γ} (related : List.Forall₂ among list list')
    (twins : pairing.Twins machine twin)
    (each
      : ∀ item item',
          among item item'
          → ∀ start start',
            machine.Returns start
            → twin.Returns start'
            → pairing.Twins start start'
            → Beside strict (visit item) (visit' item') start start'
                (pairing.Gives start start' among') failed)
    : Beside strict (list.mapM visit) (list'.mapM visit') machine twin
        (pairing.Gives machine twin fun results results' =>
          results.length = list.length ∧ List.Forall₂ among' results results')
        failed := by
  induction related generalizing machine twin with
  | nil => exact beside_pure ⟨rfl, rfl, twins.memory, rfl, .nil⟩
  | cons head tail ih =>
      rw [List.mapM_cons, List.mapM_cons]
      refine (each _ _ head machine twin (.refl machine) (.refl twin) twins).bind ?_
      rintro result middle result' middle' - - returns returns' ⟨same, same', agrees, first⟩
      have twins := twins.returns returns returns' agrees
      refine (ih twins fun item item' among start start' later later' =>
        each item item' among start start' (returns.trans later) (returns'.trans later')).bind ?_
      rintro results reached results' reached' - - - - ⟨kept, kept', agrees, count, others⟩
      exact beside_pure ⟨kept.trans same, kept'.trans same', agrees, congrArg Nat.succ count,
        .cons first others⟩

mutual
/-- The tensors of two related values are replaced in both runs, each by something that is related
to what takes the place of the other. The proof follows how the values are related.
-/
theorem beside_mapTensorsM {value value' : Value} (related : Value.Related relation value value')
    (machine twin : Machine) (twins : pairing.Twins machine twin)
    (each
      : ∀ tensor tensor',
          relation tensor tensor'
          → ∀ start start',
            machine.Returns start
            → twin.Returns start'
            → pairing.Twins start start'
            → Beside strict (replace tensor) (replace' tensor') start start'
                (pairing.Gives start start' relation') failed)
    : Beside strict (value.mapTensorsM replace) (value'.mapTensorsM replace') machine twin
        (pairing.Gives machine twin (Value.Related relation')) failed := by
  cases related with
  | tensor related =>
      refine (each _ _ related machine twin (.refl machine) (.refl twin) twins).bind ?_
      rintro result reached result' reached' - - - - ⟨same, same', agrees, related⟩
      exact beside_pure ⟨same, same', agrees, .tensor related⟩
  | list related =>
      refine (beside_mapTensorsAllM related machine twin twins each).bind ?_
      rintro result reached result' reached' - - - - ⟨same, same', agrees, -, related⟩
      exact beside_pure ⟨same, same', agrees, .list related⟩
  | plain plain =>
      rw [Value.mapTensorsM_plain plain, Value.mapTensorsM_plain plain]
      exact beside_pure ⟨rfl, rfl, twins.memory, .plain plain⟩

/-- The same for the tensors of several values, one value after another. -/
theorem beside_mapTensorsAllM {items items' : List Value}
    (related : Value.RelatedAll relation items items') (machine twin : Machine)
    (twins : pairing.Twins machine twin)
    (each
      : ∀ tensor tensor',
          relation tensor tensor'
          → ∀ start start',
            machine.Returns start
            → twin.Returns start'
            → pairing.Twins start start'
            → Beside strict (replace tensor) (replace' tensor') start start'
                (pairing.Gives start start' relation') failed)
    : Beside strict (Value.mapTensorsAllM replace items) (Value.mapTensorsAllM replace' items')
        machine twin
        (pairing.Gives machine twin fun replaced replaced' =>
          replaced.length = items.length ∧ Value.RelatedAll relation' replaced replaced')
        failed := by
  cases related with
  | nil => exact beside_pure ⟨rfl, rfl, twins.memory, rfl, .nil⟩
  | cons head tail =>
      refine (beside_mapTensorsM head machine twin twins each).bind ?_
      rintro first middle first' middle' - - returns returns' ⟨same, same', agrees, related⟩
      have twins := twins.returns returns returns' agrees
      refine (beside_mapTensorsAllM tail middle middle' twins
        fun tensor tensor' related start start' later later' =>
          each tensor tensor' related start start' (returns.trans later)
            (returns'.trans later')).bind ?_
      rintro others reached others' reached' - - - - ⟨kept, kept', agrees, count, rest⟩
      refine beside_pure ⟨kept.trans same, kept'.trans same', agrees, ?_, .cons related rest⟩
      rw [List.length_cons, count, List.length_cons]
end

-----------------------------------------------------------------------------------------
-- The last values
-----------------------------------------------------------------------------------------

/-- The last values are replaced, those below them stay. -/
theorem mapLast_apply (values : machine.values = outer ++ items) (replace : Tensor → Run Tensor)
    : Run.mapLast items.length replace machine
      = (do
          let replaced ← Value.mapTensorsAllM replace items
          modify fun machine => { machine with values := outer ++ replaced } : Run Unit)
          machine := by
  have inside
      : outer.length ≤ outer.length + items.length
        ∧ outer.length + items.length ≤ machine.values.length := by
    rw [values, List.length_append]
    exact ⟨Nat.le_add_right _ _, Nat.le_refl _⟩
  rw [Run.mapLast, bind_apply, lastStart_append values]
  dsimp only
  rw [Run.mapRange, bind_apply, read_apply]
  dsimp only
  rw [if_pos inside, values, ← List.length_append, List.take_length, List.drop_left, List.take_left,
    List.drop_length]
  simp only [List.append_nil]

/-- The tensors among the last values of both runs are replaced, and what takes their places is
related.
-/
theorem Beside.mapLast (values : machine.values = outer ++ items)
    (values' : twin.values = outer' ++ items') (related : Value.RelatedAll relation items items')
    (twins : pairing.Twins machine twin)
    (each
      : ∀ tensor tensor',
          relation tensor tensor'
          → ∀ start start',
            machine.Returns start
            → twin.Returns start'
            → pairing.Twins start start'
            → Beside strict (replace tensor) (replace' tensor') start start'
                (pairing.Gives start start' relation') failed)
    : Beside strict (Run.mapLast items.length replace) (Run.mapLast items'.length replace') machine
        twin
        (fun _ values memory _ values' memory' =>
          ∃ replaced replaced',
            values = outer ++ replaced
            ∧ values' = outer' ++ replaced'
            ∧ (replaced.length = items.length ∧ replaced'.length = items'.length)
            ∧ pairing.Agrees memory memory'
            ∧ Value.RelatedAll relation' replaced replaced')
        failed := by
  refine .congr (mapLast_apply values replace) (mapLast_apply values' replace') ?_
  refine (beside_mapTensorsAllM related machine twin twins each).bind ?_
  rintro replaced reached replaced' reached' - - - - ⟨-, -, agrees, count, among⟩
  refine .of_values rfl rfl (.of_eq rfl rfl rfl rfl rfl) (.of_eq rfl rfl rfl rfl rfl) ?_
  have count' := among.length_eq.trans (count.trans related.length_eq.symm)
  exact ⟨replaced, replaced', rfl, rfl, ⟨count, count'⟩, agrees, among⟩

-----------------------------------------------------------------------------------------
-- Tensors at the boundary of a layer
-----------------------------------------------------------------------------------------

variable {tensor bare : Tensor} {layer : Layer} {level : Level}

/-- Tags are put around tensors that correspond, or refused to both. Both runs know the same levels.
-/
theorem beside_tagAt (matched : pairing.Matched tensor bare) (twins : pairing.Twins machine twin)
    (alike : ∀ exit exit', exit.Alike exit' → failed exit exit') (level : Level)
    : Beside strict (tagAt tensor level) (tagAt bare level) machine twin
        (pairing.Gives machine twin pairing.Faces) failed := by
  cases found : machine.registry.find? level with
  | none =>
      have found' : twin.registry.find? level = none := by rw [twins.registry, found]
      have orderly : Exit.Orderly (.fault (.levelMissing level)) := trivial
      refine .ended ?_ ?_ orderly orderly (alike _ _ (.same _))
      · simp [tagAt, levelFlag, bind_apply, read_apply, found, fault_apply]
      · simp [tagAt, levelFlag, bind_apply, read_apply, found', fault_apply]
  | some flag =>
      have found' : twin.registry.find? level = some flag := by rw [twins.registry, found]
      have ended
          : tagAt tensor level machine
            = .ok (machine.heap.newTagged tensor level flag).1
                { machine with heap := (machine.heap.newTagged tensor level flag).2 } := by
        simp [tagAt, levelFlag, bind_apply, read_apply, found, pure_apply, allocate_apply]
      have ended'
          : tagAt bare level twin
            = .ok (twin.heap.newTagged bare level flag).1
                { twin with heap := (twin.heap.newTagged bare level flag).2 } := by
        simp [tagAt, levelFlag, bind_apply, read_apply, found', pure_apply, allocate_apply]
      rcases twins.alike.newTagged matched level flag with ⟨faces, tagged⟩
      exact .of_values ended ended' (.of_eq rfl rfl rfl rfl rfl) (.of_eq rfl rfl rfl rfl rfl)
        ⟨rfl, rfl, ⟨tagged, twins.memory.generator⟩, faces⟩

/-- Tensors with the same outermost wrapper are given a tag of the level alike, because only the
level of their outermost tags decides.
-/
theorem beside_materializeAt (faces : pairing.Faces tensor bare) (twins : pairing.Twins machine twin)
    (alike : ∀ exit exit', exit.Alike exit' → failed exit exit') (level : Level)
    : Beside strict (materializeAt tensor level) (materializeAt bare level) machine twin
        (pairing.Gives machine twin pairing.Faces) failed := by
  unfold materializeAt
  rw [faces.taggedLevel?_eq]
  have tagging
      : Beside strict (tagAt tensor level) (tagAt bare level) machine twin
          (pairing.Gives machine twin pairing.Faces) failed :=
    beside_tagAt faces.toMatched twins alike level
  split
  · exact tagging
  split
  · exact beside_pure ⟨rfl, rfl, twins.memory, faces⟩
  split
  · exact tagging
  · exact beside_fault trivial trivial (alike _ _ (.same _))

/-- In front of a layer two tensors come to have the same outermost wrapper: their dead tags are
taken off, and a differentiation layer tags both or neither.
-/
theorem beside_receive (matched : pairing.Matched tensor bare) (twins : pairing.Twins machine twin)
    (alike : ∀ exit exit', exit.Alike exit' → failed exit exit') (layer : Layer)
    : Beside strict (receive layer tensor) (receive layer bare) machine twin
        (pairing.Gives machine twin pairing.Faces) failed := by
  have faces := matched.unwrapDead twins.alike
  refine .step rfl rfl ?_
  cases layer.kind with
  | differentiation => exact beside_materializeAt faces twins alike layer.level
  | batching => exact beside_pure ⟨rfl, rfl, twins.memory, faces⟩

/-- A tag of the level is taken off both tensors or off neither. Afterwards they correspond, but
dead tags may have come to the outside.
-/
theorem beside_unwrapAt (faces : pairing.Faces tensor bare) (twins : pairing.Twins machine twin)
    (alike : ∀ exit exit', exit.Alike exit' → failed exit exit') (level : Level)
    : Beside strict (unwrapAt tensor level) (unwrapAt bare level) machine twin
        (pairing.Gives machine twin pairing.Matched) failed := by
  cases faces with
  | dense cell => exact beside_pure ⟨rfl, rfl, twins.memory, .dense cell⟩
  | tagged linked matched =>
      simp only [unwrapAt]
      split
      · exact beside_fault trivial trivial (alike _ _ (.same _))
      split
      · exact beside_pure ⟨rfl, rfl, twins.memory, matched⟩
      · exact beside_pure ⟨rfl, rfl, twins.memory, .tagged linked matched⟩
  | batched matched => exact beside_pure ⟨rfl, rfl, twins.memory, .batched matched⟩

/-- Copies of the arguments without the tags of the layer are put on top of them in both runs. -/
theorem beside_copyUntagged {op op' : Schema} (values : machine.values = outer ++ arguments)
    (values' : twin.values = outer' ++ arguments') (size : arguments.length = op.arity)
    (size' : arguments'.length = op'.arity)
    (faces : Value.RelatedAll pairing.Faces arguments arguments')
    (twins : pairing.Twins machine twin)
    (alike : ∀ exit exit', exit.Alike exit' → failed exit exit') (level : Level)
    : Beside strict (copyUntagged op level) (copyUntagged op' level) machine twin
        (fun _ values memory _ values' memory' =>
          ∃ inner inner',
            values = outer ++ arguments ++ inner
            ∧ values' = outer' ++ arguments' ++ inner'
            ∧ (inner.length = arguments.length ∧ inner'.length = arguments'.length)
            ∧ pairing.Agrees memory memory'
            ∧ Value.RelatedAll pairing.Matched inner inner')
        failed := by
  unfold copyUntagged
  rw [← size, ← size']
  refine .step (peek_append values) (peek_append values') ?_
  refine .pushAll ?_
  refine .mapLast (congrArg (· ++ arguments) values) (congrArg (· ++ arguments') values') faces
    ⟨twins.ambient, twins.registry, twins.settings, twins.memory⟩ ?_
  intro tensor tensor' faces start start' _ _ twins
  exact beside_unwrapAt faces twins alike level

-----------------------------------------------------------------------------------------
-- Calls by name
-----------------------------------------------------------------------------------------

variable {calls : Calls} {name name' : String} {op op' : Schema}

/-- Calls of registered operators on as many values as they take go as the calls of the operators do
on these values alone.
-/
theorem Beside.call_registered
    {ok : List Value → List Value → Memory → List Value → List Value → Memory → Prop}
    (found : calls.schema? name = some op) (found' : calls.schema? name' = some op')
    (count : arguments.length = op.arity) (count' : arguments'.length = op'.arity)
    (inner
      : Beside strict (calls.dispatch op) (calls.dispatch op')
          { machine with values := arguments } { twin with values := arguments' }
          (fun _ left memory _ left' memory' =>
            ok left machine.values memory left' twin.values memory')
          failed)
    : Beside strict (calls.call name arguments) (calls.call name' arguments') machine twin ok
        failed := by
  have required : calls.require name = .ok op := by rw [Calls.require, found]
  have required' : calls.require name' = .ok op' := by rw [Calls.require, found']
  unfold Calls.call
  rw [required, required']
  refine .step (lift_ok_apply op machine) (lift_ok_apply op' twin) ?_
  rw [if_pos count, if_pos count']
  have called
      : Beside strict (Run.onValues arguments (calls.dispatch op))
          (Run.onValues arguments' (calls.dispatch op')) machine twin
          (fun result values memory result' values' memory' =>
            ok result.2 values memory result'.2 values' memory')
          failed :=
    .onValues inner
  refine called.bind ?_
  intro result reached result' reached' _ _ _ _ left
  exact beside_pure left

/-- Calls of one name go like the calls of its operator, or are refused alike, since both runs know
the same operators and are given equally many values.
-/
theorem Beside.call
    {ok : List Value → List Value → Memory → List Value → List Value → Memory → Prop}
    (size : arguments'.length = arguments.length)
    (alike : ∀ exit exit', exit.Alike exit' → failed exit exit')
    (inner
      : ∀ op,
          calls.schema? name = some op
          → arguments.length = op.arity
          → Beside strict (calls.dispatch op) (calls.dispatch op)
              { machine with values := arguments } { twin with values := arguments' }
              (fun _ left memory _ left' memory' =>
                ok left machine.values memory left' twin.values memory')
              failed)
    : Beside strict (calls.call name arguments) (calls.call name arguments') machine twin ok
        failed := by
  cases found : calls.schema? name with
  | none =>
      have required : calls.require name = Outcome.fail (.unknownOperator name) := by
        rw [Calls.require, found]
      have orderly : Exit.Orderly (.error (.unknownOperator name)) := trivial
      refine .ended ?_ ?_ orderly orderly (alike _ _ (.same _))
      · rw [Calls.call, required]
        rfl
      · rw [Calls.call, required]
        rfl
  | some op =>
      by_cases count : arguments.length = op.arity
      · exact .call_registered found found count (size.trans count) (inner op found count)
      · have required : calls.require name = .ok op := by rw [Calls.require, found]
        unfold Calls.call
        rw [required]
        refine .step (lift_ok_apply op machine) (lift_ok_apply op twin) ?_
        rw [size, if_neg count, if_neg count]
        exact beside_fail (alike _ _ (.same _))

end

end Run
end LayeredDispatch
