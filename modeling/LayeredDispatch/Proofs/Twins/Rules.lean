import LayeredDispatch.Proofs.Twins.Operands

/-! The rules of batching layers in two runs of one call, whose arguments differ in dead tags. In the
body of a layer the same arguments are batched in both runs, so both go through the rule together.
Main statements: if the calls that the rules hand on end alike, with related results, so do the rules.
-/

namespace LayeredDispatch

open Run Dispatcher

/-- States of two runs on the way out of a batching layer, which has taken care of batches. -/
structure Pairing.Leaving (pairing : Pairing) (exempt : Prop) (budget : Nat) (below : List Layer)
    (machine twin : Machine)
    : Prop where
  calling
    : ∀ {called : Schema},
        called ∈ Base.schemas → called.name ≠ "rand" → machine.Calling called below
  calling'
    : ∀ {called : Schema}, called ∈ Base.schemas → called.name ≠ "rand" → twin.Calling called below
  active : machine.thread.layers ≠ []
  owned : below ≠ machine.thread.layers
  twins : pairing.Twins machine twin
  steps : machine.ambient.reach ≤ budget
  unchecked : machine.settings.checkUnwrapped = false → exempt

section

variable {pairing : Pairing} {strict exempt : Prop} {machine twin held held' : Machine}
  {failed : Exit → Exit → Prop} {op op' : Schema} {layer : Layer} {below owners : List Layer}
  {outer outer' arguments arguments' given given' : List Value} {budget : Nat}
  {physical physical' result result' : Tensor}

-----------------------------------------------------------------------------------------
-- On the way out of a batching layer
-----------------------------------------------------------------------------------------

/-- The rules hide the hook that led to them, so that calls they issue are on the way out of the
layer in both runs.
-/
theorem Pairing.Posed.leaving
    (posed
      : pairing.Posed exempt (budget + 1) op op' (layer :: below) machine twin outer outer' arguments
          arguments')
    (within : machine.InBody layer below) (kind : layer.kind = .batching)
    (shown : machine.thread.overlay.excluded.contains .batched = false)
    {values values' : List Value}
    (atHeld
      : Machine.Shifted { machine with values := values } (machine.ambient.hide (.only .batched)) held)
    (atHeld'
      : Machine.Shifted { twin with values := values' } (twin.ambient.hide (.only .batched)) held')
    : pairing.Leaving exempt budget below held held' := by
  have within' := within.other posed.calling' posed.twins
  have layers : held.thread.layers = layer :: below :=
    (congrArg Ambient.layers atHeld.ambient).trans within.top
  have twins : pairing.Twins { machine with values := values } { twin with values := values' } :=
    ⟨posed.twins.ambient, posed.twins.registry, posed.twins.settings, posed.twins.memory⟩
  exact {
    calling := fun member undrawn => within.hideBatched kind member undrawn atHeld.ambient
    calling' := fun member undrawn => within'.hideBatched kind member undrawn atHeld'.ambient
    active := by
      rw [layers]
      exact List.cons_ne_nil layer below
    owned := by
      rw [layers]
      exact List.ne_cons_self
    twins := twins.hide atHeld atHeld'
    steps := by
      have less := @Ambient.reach_hide layer below machine.ambient (.only .batched) .batched
        within.top within.inBody.entry (Or.inl (by rw [kind]; rfl)) shown rfl
      rw [← atHeld.ambient] at less
      exact Nat.le_of_lt_succ (Nat.lt_of_lt_of_le less posed.steps)
    unchecked := by
      rw [atHeld.settings]
      exact posed.unchecked }

/-- So they are after a call that has ended in both runs. -/
theorem Pairing.Leaving.returns (h : pairing.Leaving exempt budget below machine twin)
    (returns : machine.Returns held) (returns' : twin.Returns held')
    (agrees : pairing.Agrees held.memory held'.memory)
    : pairing.Leaving exempt budget below held held' where
  calling member undrawn := (h.calling member undrawn).resumes returns.toResumes
  calling' member undrawn := (h.calling' member undrawn).resumes returns'.toResumes
  active := by
    rw [returns.layers]
    exact h.active
  owned := by
    rw [returns.layers]
    exact h.owned
  twins := h.twins.returns returns returns' agrees
  steps := by
    rw [Ambient.reach_resumes returns.toResumes]
    exact h.steps
  unchecked := by
    rw [returns.settings]
    exact h.unchecked

/-- From there operators may be called on any related values, if there are as many as they take. -/
theorem Pairing.Leaving.posed {values values' : List Value}
    (h : pairing.Leaving exempt budget below machine twin) (member : op ∈ Base.schemas)
    (member' : op' ∈ Base.schemas) (undrawn : op.name ≠ "rand") (undrawn' : op'.name ≠ "rand")
    (split : values = outer ++ given) (split' : values' = outer' ++ given')
    (size : given.length = op.arity) (size' : given'.length = op'.arity)
    (matched : Value.RelatedAll pairing.Matched given given')
    : pairing.Posed exempt budget op op' below { machine with values := values }
        { twin with values := values' } outer outer' given given' := by
  have calling := h.calling member undrawn
  have calling' := h.calling' member' undrawn'
  exact {
    calling := ⟨calling.member, calling.owning, calling.drawn⟩
    calling' := ⟨calling'.member, calling'.owning, calling'.drawn⟩
    twins := ⟨h.twins.ambient, h.twins.registry, h.twins.settings, h.twins.memory⟩
    values := split
    values' := split'
    size := size
    size' := size'
    matched := matched
    faced := fun _ owned => absurd owned h.owned
    steps := h.steps
    unchecked := h.unchecked
    based := fun inactive => absurd inactive h.active }

/-- An insertion of a dimension is a call that goes alike in both runs, and gives values that
correspond.
-/
theorem beside_insertion (holds : pairing.Holds exempt budget)
    (leaving : pairing.Leaving exempt budget below machine twin)
    (matched : pairing.Matched physical physical')
    (alike : ∀ exit exit', exit.Alike exit' → failed exit exit')
    : Beside True ((nested budget).callTensor "unsqueeze" [.tensor physical, .int 1])
        ((nested budget).callTensor "unsqueeze" [.tensor physical', .int 1]) machine twin
        (pairing.Gives machine twin pairing.Matched) failed := by
  have called
      : Beside True ((nested budget).call "unsqueeze" [.tensor physical, .int 1])
          ((nested budget).call "unsqueeze" [.tensor physical', .int 1]) machine twin
          (pairing.Gives machine twin fun results results' =>
            ∃ result result',
              results = [.tensor result]
              ∧ results' = [.tensor result']
              ∧ pairing.Matched result result')
          failed := by
    refine .call rfl alike fun op found count => ?_
    have found : standard.schema? "unsqueeze" = some op := found
    obtain ⟨member, named⟩ := schema?_standard found
    have undrawn : op.name ≠ "rand" := by
      rw [named]
      decide
    have alone (tensor : Tensor)
        : [Value.tensor tensor, .int 1] = [] ++ [Value.tensor tensor, .int 1] :=
      rfl
    have posed :=
      leaving.posed member member undrawn undrawn (alone physical) (alone physical') count count
        (.cons (.tensor matched) (.cons (.plain rfl) .nil))
    refine (holds posed).mono ?_ ?_
    · intro _ values memory _ values' memory' left
      rcases left with ⟨result, result', rfl, rfl, agrees, faces⟩
      exact ⟨rfl, rfl, agrees, result, result', rfl, rfl, faces.toMatched⟩
    · intro exit exit' follows
      cases follows with
      | alike same => exact alike exit exit' same
      | missing _ unruled =>
          rw [named] at unruled
          exact absurd unruled (by decide)
  refine called.bind ?_
  intro results reached results' reached' _ _ _ _ left
  rcases left with ⟨same, same', agrees, result, result', rfl, rfl, matched⟩
  exact beside_pure ⟨same, same', agrees, matched⟩

/-- Related values are padded alike. -/
theorem beside_padToRank (holds : pairing.Holds exempt budget)
    (leaving : pairing.Leaving exempt budget below machine twin)
    (matched : pairing.Matched physical physical')
    (alike : ∀ exit exit', exit.Alike exit' → failed exit exit') (rank : Nat)
    : Beside True (Batching.padToRank (nested budget) physical rank)
        (Batching.padToRank (nested budget) physical' rank) machine twin
        (pairing.Gives machine twin pairing.Matched) failed := by
  refine beside_pad matched leaving.twins alike ?_ rank (rank + 2)
  intro tensor tensor' matched start start' returns returns' twins
  exact beside_insertion holds (leaving.returns returns returns' twins.memory) matched alike

theorem beside_wrapResults (values : machine.values = outer ++ [.tensor result])
    (values' : twin.values = outer' ++ [.tensor result'])
    (agrees : pairing.Agrees machine.memory twin.memory) (faces : pairing.Faces result result')
    (level : Level)
    : Beside strict (Batching.wrapResults 1 level) (Batching.wrapResults 1 level) machine twin
        (fun _ values memory _ values' memory' =>
          pairing.Answers outer outer' values memory values' memory')
        failed := by
  rcases agrees.heap.newBatched faces.toMatched level with ⟨wrapped, alike⟩
  exact .of_values (wrapResults_apply values level) (wrapResults_apply values' level)
    (.of_eq rfl rfl rfl rfl rfl) (.of_eq rfl rfl rfl rfl rfl)
    ⟨_, _, rfl, rfl, ⟨alike, agrees.generator⟩, wrapped⟩

-----------------------------------------------------------------------------------------
-- The rules
-----------------------------------------------------------------------------------------

/-- What the rule for element-wise operators hands on in the place of an argument. Both runs pad its
physical value if it is a batch, and hand it on as it is otherwise.
-/
theorem beside_prepare {value value' : Value} (holds : pairing.Holds exempt budget)
    (leaving : pairing.Leaving exempt budget below machine twin)
    (related : Value.Related pairing.Faces value value')
    (alike : ∀ exit exit', exit.Alike exit' → failed exit exit') (level : Level) (rank : Nat)
    : Beside True
        (match Batching.physicalArgument? level value with
          | none => return value
          | some physical => return .tensor (← Batching.padToRank (nested budget) physical rank))
        (match Batching.physicalArgument? level value' with
          | none => return value'
          | some physical => return .tensor (← Batching.padToRank (nested budget) physical rank))
        machine twin (pairing.Gives machine twin (Value.Related pairing.Matched)) failed := by
  have read := physicalArgument?_rel related level
  generalize Batching.physicalArgument? level value = given at read ⊢
  generalize Batching.physicalArgument? level value' = given' at read ⊢
  cases read with
  | none =>
      have matched := related.mono fun _ _ => Pairing.Faces.toMatched
      exact beside_pure ⟨rfl, rfl, leaving.twins.memory, matched⟩
  | some matched =>
      refine (beside_padToRank holds leaving matched alike rank).bind ?_
      intro padded reached padded' reached' _ _ _ _ left
      rcases left with ⟨same, same', agrees, matched⟩
      exact beside_pure ⟨same, same', agrees, .tensor matched⟩

/-- The rule for element-wise operators goes alike in both runs: arguments of equally many
dimensions are padded alike, and results are marked as batched in both runs or in neither.
-/
theorem tallies_pointwise (holds : pairing.Holds exempt budget)
    (posed
      : pairing.Posed exempt (budget + 1) op op (layer :: below) machine twin outer outer' arguments
          arguments')
    (within : machine.InBody layer below) (kind : layer.kind = .batching)
    (shown : machine.thread.overlay.excluded.contains .batched = false)
    (undrawn : op.name ≠ "rand")
    : (Batching.pointwise.run (nested budget) op).Tallies pairing exempt op outer outer' machine
        twin := by
  have within' := within.other posed.calling' posed.twins
  have member := posed.calling.member
  have faces := posed.faced within.inBody.entry within.top.symm
  refine .step (currentLayer_apply within.top) (currentLayer_apply within'.top) ?_
  refine .pop posed.values posed.values' posed.size posed.size' ?_
  have ranked
      : Run.read (fun machine => Batching.logicalRank machine.heap arguments')
          { twin with values := outer' }
        = .ok (Batching.logicalRank machine.heap arguments) { twin with values := outer' } := by
    rw [read_apply, logicalRank_eq faces posed.twins.alike]
  refine .step (read_apply _ _) ranked ?_
  refine .holding_left (moves_hide _ _) fun held atHeld => ?_
  refine .holding_right (moves_hide _ _) fun held' atHeld' => ?_
  have leaving := posed.leaving within kind shown atHeld atHeld'
  have prepared
      : Beside True
          (arguments.mapM fun argument =>
            match Batching.physicalArgument? layer.level argument with
            | none => return argument
            | some physical =>
                return .tensor
                  (← Batching.padToRank (nested budget) physical
                    (Batching.logicalRank machine.heap arguments)))
          (arguments'.mapM fun argument =>
            match Batching.physicalArgument? layer.level argument with
            | none => return argument
            | some physical =>
                return .tensor
                  (← Batching.padToRank (nested budget) physical
                    (Batching.logicalRank machine.heap arguments)))
          held held'
          (pairing.Gives held held' fun padded padded' =>
            padded.length = arguments.length
            ∧ List.Forall₂ (Value.Related pairing.Matched) padded padded')
          (Exit.Follows exempt op.name) := by
    refine .mapM faces.forall₂ leaving.twins ?_
    intro value value' related start start' returns returns' twins
    exact beside_prepare holds (leaving.returns returns returns' twins.memory) related
      Exit.Follows.of_alike layer.level _
  refine prepared.bind ?_
  intro padded reached padded' reached' _ _ returns returns' left
  rcases left with ⟨same, same', agrees, count, among⟩
  have leaving := leaving.returns returns returns' agrees
  have values : reached.values = outer := same.trans atHeld.values
  have values' : reached'.values = outer' := same'.trans atHeld'.values
  have posed :=
    leaving.posed member member undrawn undrawn (congrArg (· ++ padded) values)
      (congrArg (· ++ padded') values') (count.trans posed.size)
      (among.length_eq.symm.trans (count.trans posed.size)) (.of_forall₂ among)
  refine .pushAll (Beside.bind (holds posed) ?_)
  intro _ called _ called' _ _ _ _ left
  rcases left with ⟨result, result', values, values', agrees, faced⟩
  rw [any_physical_eq faces]
  split
  · rw [Schema.resultCount_eq_one member]
    exact beside_wrapResults values values' agrees faced layer.level
  · exact beside_pure ⟨result, result', values, values', agrees, faced⟩

/-- The rule that inserts a dimension goes alike in both runs, as it looks at the shape and at the
batch.
-/
theorem tallies_unsqueeze (holds : pairing.Holds exempt budget)
    (posed
      : pairing.Posed exempt (budget + 1) op op (layer :: below) machine twin outer outer' arguments
          arguments')
    (within : machine.InBody layer below) (kind : layer.kind = .batching)
    (shown : machine.thread.overlay.excluded.contains .batched = false)
    (pair : op.arity = 2) (undrawn : op.name ≠ "rand")
    : (Batching.unsqueeze.run (nested budget) op).Tallies pairing exempt op outer outer' machine
        twin := by
  have within' := within.other posed.calling' posed.twins
  have member := posed.calling.member
  have faces := posed.faced within.inBody.entry within.top.symm
  refine .step (currentLayer_apply within.top) (currentLayer_apply within'.top) ?_
  refine .pop posed.values posed.values' (posed.size.trans pair) (posed.size'.trans pair) ?_
  refine .tensorAt faces Exit.Follows.of_alike op.name 0 fun input input' faced => ?_
  refine .lift (intAt_eq faces op.name 1) (Value.plain_intAt _ _ _).orderly Exit.Follows.of_alike
    fun dim _ => ?_
  refine .holding_left (moves_hide _ _) fun held atHeld => ?_
  refine .holding_right (moves_hide _ _) fun held' atHeld' => ?_
  have leaving := posed.leaving within kind shown atHeld atHeld'
  have physical := faced.physicalAt? layer.level
  generalize input.physicalAt? layer.level = given at physical ⊢
  generalize input'.physicalAt? layer.level = given' at physical ⊢
  cases physical with
  | none =>
      have posed :=
        leaving.posed member member undrawn undrawn (congrArg (· ++ arguments) atHeld.values)
          (congrArg (· ++ arguments') atHeld'.values) posed.size posed.size' posed.matched
      exact .pushAll (holds posed)
  | @some physical physical' matched =>
      have shape : shapeOf input' held' = .ok (input.shape held.heap) held' := by
        rw [shapeOf, read_apply, faced.toMatched.shape_eq leaving.twins.alike]
      refine .step (read_apply _ held) shape ?_
      dsimp only
      split
      · have posed :=
          leaving.posed member member undrawn undrawn
            (congrArg (· ++ [Value.tensor physical, .int (dim + 1)]) atHeld.values)
            (congrArg (· ++ [Value.tensor physical', .int (dim + 1)]) atHeld'.values) pair.symm
            pair.symm (.cons (.tensor matched) (.cons (.plain rfl) .nil))
        refine .pushAll (Beside.bind (holds posed) ?_)
        intro _ called _ called' _ _ _ _ left
        rcases left with ⟨result, result', values, values', agrees, faced⟩
        exact beside_wrapResults values values' agrees faced layer.level
      · exact beside_fail (.alike (.same _))

/-- The target of an in-place addition is the result that both runs hand back. -/
theorem beside_replaceLast {last last' : Value} (values : machine.values = outer ++ [last])
    (values' : twin.values = outer' ++ [last'])
    (agrees : pairing.Agrees machine.memory twin.memory) (faces : pairing.Faces result result')
    : Beside strict (Batching.replaceLast (.tensor result)) (Batching.replaceLast (.tensor result'))
        machine twin
        (fun _ values memory _ values' memory' =>
          pairing.Answers outer outer' values memory values' memory')
        failed :=
  .of_values (replaceLast_apply values _) (replaceLast_apply values' _) (.put machine _) (.put twin _)
    ⟨result, result', rfl, rfl, agrees, faces⟩

/-- Both runs add to the target's value in the place of the target, and hand the target back. -/
theorem tallies_addStanding {target target' added added' : Tensor}
    (holds : pairing.Holds exempt budget)
    (leaving : pairing.Leaving exempt budget below machine twin) (member : op ∈ Base.schemas)
    (undrawn : op.name ≠ "rand") (pair : op.arity = 2) (targets : pairing.Faces target target')
    (matched : pairing.Matched physical physical') (matched' : pairing.Matched added added')
    (values : machine.values = outer) (values' : twin.values = outer')
    : Beside True
        (do
          pushAll [.tensor physical, .tensor added]
          (nested budget).dispatch op
          Batching.replaceLast (.tensor target))
        (do
          pushAll [.tensor physical', .tensor added']
          (nested budget).dispatch op
          Batching.replaceLast (.tensor target'))
        machine twin
        (fun _ values memory _ values' memory' =>
          pairing.Answers outer outer' values memory values' memory')
        (Exit.Follows exempt op.name) := by
  have posed :=
    leaving.posed member member undrawn undrawn
      (congrArg (· ++ [Value.tensor physical, .tensor added]) values)
      (congrArg (· ++ [Value.tensor physical', .tensor added']) values') pair.symm pair.symm
      (.cons (.tensor matched) (.cons (.tensor matched') .nil))
  refine .pushAll (Beside.bind (holds posed) ?_)
  intro _ called _ called' _ _ _ _ left
  rcases left with ⟨result, result', values, values', agrees, _⟩
  exact beside_replaceLast values values' agrees targets

/-- The rule of in-place addition goes alike in both runs. In both the target and the addend are
batches or are not, so that both go on, pad or refuse.
-/
theorem tallies_addInPlace (holds : pairing.Holds exempt budget)
    (posed
      : pairing.Posed exempt (budget + 1) op op (layer :: below) machine twin outer outer' arguments
          arguments')
    (within : machine.InBody layer below) (kind : layer.kind = .batching)
    (shown : machine.thread.overlay.excluded.contains .batched = false)
    (pair : op.arity = 2) (undrawn : op.name ≠ "rand")
    : (Batching.addInPlace.run (nested budget) op).Tallies pairing exempt op outer outer' machine
        twin := by
  have within' := within.other posed.calling' posed.twins
  have member := posed.calling.member
  have faces := posed.faced within.inBody.entry within.top.symm
  refine .step (currentLayer_apply within.top) (currentLayer_apply within'.top) ?_
  refine .pop posed.values posed.values' (posed.size.trans pair) (posed.size'.trans pair) ?_
  refine .tensorAt faces Exit.Follows.of_alike op.name 0 fun target target' targets => ?_
  refine .tensorAt faces Exit.Follows.of_alike op.name 1 fun other other' others => ?_
  refine .holding_left (moves_hide _ _) fun held atHeld => ?_
  refine .holding_right (moves_hide _ _) fun held' atHeld' => ?_
  have leaving := posed.leaving within kind shown atHeld atHeld'
  have first := targets.physicalAt? layer.level
  have second := others.physicalAt? layer.level
  generalize target.physicalAt? layer.level = given at first ⊢
  generalize target'.physicalAt? layer.level = given' at first ⊢
  generalize other.physicalAt? layer.level = added at second ⊢
  generalize other'.physicalAt? layer.level = added' at second ⊢
  cases first with
  | none =>
      cases second with
      | some => exact beside_fail (.alike (.same _))
      | none =>
          have posed :=
            leaving.posed member member undrawn undrawn (congrArg (· ++ arguments) atHeld.values)
              (congrArg (· ++ arguments') atHeld'.values) posed.size posed.size' posed.matched
          exact .pushAll (holds posed)
  | @some physical physical' matched =>
      have shape : shapeOf target' held' = .ok (target.shape held.heap) held' := by
        rw [shapeOf, read_apply, targets.toMatched.shape_eq leaving.twins.alike]
      refine .step (read_apply _ held) shape ?_
      cases second with
      | none =>
          refine .step rfl rfl ?_
          exact tallies_addStanding holds leaving member undrawn pair targets matched
            others.toMatched atHeld.values atHeld'.values
      | some batched =>
          refine (beside_padToRank holds leaving batched Exit.Follows.of_alike _).bind ?_
          intro padded reached padded' reached' _ _ returns returns' left
          rcases left with ⟨same, same', agrees, added⟩
          exact tallies_addStanding holds (leaving.returns returns returns' agrees) member undrawn
            pair targets matched added (same.trans atHeld.values) (same'.trans atHeld'.values)

/-- Where there is no rule both runs refuse, with the same error. -/
theorem tallies_missingRule (calls : Calls)
    : (Batching.missingRule.run calls op).Tallies pairing exempt op outer outer' machine twin := by
  have noted (start : Machine) (event : Event)
      : start.Returns
          { start with thread := { start.thread with log := start.thread.log ++ [event] } } :=
    .of_eq rfl rfl rfl rfl rfl
  refine .step_left (noted machine _) rfl (.step_right (noted twin _) rfl ?_)
  exact beside_fail (.alike (.same _))

/-- The same call on other arguments. -/
theorem Pairing.Posed.supplied {values values' : List Value}
    (posed : pairing.Posed exempt budget op op' owners machine twin outer outer' arguments arguments')
    (active : machine.thread.layers ≠ []) (split : values = outer ++ given)
    (split' : values' = outer' ++ given') (size : given.length = op.arity)
    (size' : given'.length = op'.arity) (faces : Value.RelatedAll pairing.Faces given given')
    : pairing.Posed exempt budget op op' owners { machine with values := values }
        { twin with values := values' } outer outer' given given' where
  calling := ⟨posed.calling.member, posed.calling.owning, posed.calling.drawn⟩
  calling' := ⟨posed.calling'.member, posed.calling'.owning, posed.calling'.drawn⟩
  twins := posed.twins.put values values'
  values := split
  values' := split'
  size := size
  size' := size'
  matched := faces.mono fun _ _ => Pairing.Faces.toMatched
  faced := fun _ _ => faces
  steps := posed.steps
  unchecked := posed.unchecked
  based := fun inactive => absurd inactive active

/-- Both runs draw numbers of the same size, since the layer is the same and sizes are read alike.
-/
theorem tallies_random (holds : pairing.Holds exempt budget)
    (posed
      : pairing.Posed exempt (budget + 1) op op (layer :: below) machine twin outer outer' arguments
          arguments')
    (within : machine.InBody layer below) (kind : layer.kind = .batching)
    (forced : machine.thread.overlay.forces .batchMode)
    (shown : machine.thread.overlay.excluded.contains .batched = false) (single : op.arity = 1)
    : (Batching.random.run (nested budget) op).Tallies pairing exempt op outer outer' machine
        twin := by
  have within' := within.other posed.calling' posed.twins
  have shown' : twin.thread.overlay.excluded.contains .batched = false := by
    rw [posed.twins.excluded]
    exact shown
  have member := posed.calling.member
  have faces := posed.faced within.inBody.entry within.top.symm
  refine .step (currentLayer_apply within.top) (currentLayer_apply within'.top) ?_
  refine .holding_left (moves_hide _ _) fun held atHeld => ?_
  refine .holding_right (moves_hide _ _) fun held' atHeld' => ?_
  have active : held.thread.layers ≠ [] := by
    rw [show held.thread.layers = layer :: below from
      (congrArg Ambient.layers atHeld.ambient).trans within.top]
    exact List.cons_ne_nil layer below
  have hidden
      : pairing.Posed exempt budget op op (layer :: below) held held' outer outer' arguments
          arguments' := {
    calling := within.hideBatchMode kind shown member atHeld.ambient
    calling' := within'.hideBatchMode kind shown' member atHeld'.ambient
    twins := posed.twins.hide atHeld atHeld'
    values := atHeld.values.trans posed.values
    values' := atHeld'.values.trans posed.values'
    size := posed.size
    size' := posed.size'
    matched := posed.matched
    faced := fun _ _ => faces
    steps := by
      have less := @Ambient.reach_hide layer below machine.ambient (.only .batchMode) .batchMode
        within.top within.inBody.entry (Or.inr rfl) forced.2 rfl
      rw [← atHeld.ambient] at less
      exact Nat.le_of_lt_succ (Nat.lt_of_lt_of_le less posed.steps)
    unchecked := by
      rw [atHeld.settings]
      exact posed.unchecked
    based := fun inactive => absurd inactive active }
  split
  · exact beside_fault trivial trivial (.alike (.same _))
  · exact beside_fail (.alike (.same _))
  · exact holds hidden
  · rename_i batch _
    refine .pop hidden.values hidden.values' (hidden.size.trans single) (hidden.size'.trans single)
      ?_
    refine .lift (sizesAt_eq faces op.name 0) (Value.plain_sizesAt _ _ _).orderly
      Exit.Follows.of_alike
      fun sizes _ => ?_
    let larger : Value := .ints ((batch :: sizes).map Size.toSigned)
    have larged : Value.RelatedAll pairing.Faces [larger] [larger] := .cons (.plain rfl) .nil
    have count : [larger].length = op.arity := single.symm
    have drawing :=
      hidden.supplied active (rfl : outer ++ [larger] = _) (rfl : outer' ++ [larger] = _) count count
        larged
    refine .step_left (.put _ _) rfl (.step_right (.put _ _) rfl (Beside.bind (holds drawing) ?_))
    intro _ called _ called' _ _ _ _ left
    rcases left with ⟨result, result', values, values', agrees, faced⟩
    exact beside_wrapResults values values' agrees faced layer.level

end

end LayeredDispatch
