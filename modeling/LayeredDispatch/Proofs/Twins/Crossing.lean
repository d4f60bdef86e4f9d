import LayeredDispatch.Proofs.Twins.Selection

/-! The kernels around layers in two runs of one call, whose arguments differ in dead tags. On the way
up both runs tag related results and look again at the tags around related arguments. Main statements:
if the calls that the kernels hand on end alike, with related results, so do the kernels.
-/

namespace LayeredDispatch

open Run Dispatcher

/-- The operators with a rule for batches. -/
def Dispatcher.ruled : List String :=
  ["add", "mul", "neg", "unsqueeze", "add_"]

/-- How the run with fewer dead tags ends where the other one gives no value. It ends alike, with one
exception: the base operators get a batch for which there is no rule, together with a live tag, and a
dead tag around the batch hides it.
-/
inductive Exit.Follows (exempt : Prop) (name : String) : Exit → Exit → Prop where
  | alike {exit exit' : Exit} (alike : exit.Alike exit') : Follows exempt name exit exit'
  | missing (exempted : exempt) (unruled : name ∉ ruled)
    (fault : Fault)
    : Follows exempt name (.fault fault) (.error (.missingBatchRule name))

/-- Both calls put a result in the place of their arguments, and the results are related. -/
def Pairing.Answers (pairing : Pairing) (outer outer' values : List Value) (memory : Memory)
    (values' : List Value) (memory' : Memory)
    : Prop :=
  ∃ result result',
    values = outer ++ [.tensor result]
    ∧ values' = outer' ++ [.tensor result']
    ∧ pairing.Agrees memory memory'
    ∧ pairing.Faces result result'

/-- A call that goes alike in two runs. -/
def Run.Tallies (body : Run Unit) (pairing : Pairing) (exempt : Prop) (op : Schema)
    (outer outer' : List Value) (machine twin : Machine)
    : Prop :=
  Beside True body body machine twin
    (fun _ values memory _ values' memory' =>
      pairing.Answers outer outer' values memory values' memory')
    (Exit.Follows exempt op.name)

/-- All calls on related arguments go alike if they nest at most `budget` deep. -/
def Pairing.Holds (pairing : Pairing) (exempt : Prop) (budget : Nat) : Prop :=
  ∀ {op : Schema} {owners : List Layer} {machine twin : Machine}
    {outer outer' arguments arguments' : List Value},
    pairing.Posed exempt budget op op owners machine twin outer outer' arguments arguments'
    → ((nested budget).dispatch op).Tallies pairing exempt op outer outer' machine twin

section

variable {pairing : Pairing} {strict exempt : Prop} {machine twin : Machine}
  {failed : Exit → Exit → Prop} {op op' : Schema} {layer : Layer} {below owners : List Layer}
  {outer outer' arguments arguments' : List Value} {budget : Nat} {result result' : Tensor}

theorem Exit.Follows.of_alike {name : String} (exit exit' : Exit) (alike : exit.Alike exit')
    : exit.Follows exempt name exit' :=
  .alike alike

-----------------------------------------------------------------------------------------
-- On the way up
-----------------------------------------------------------------------------------------

theorem Pairing.Alike.refreshAll {heap other : Heap} {tensors tensors' : List Tensor}
    (alike : pairing.Alike heap other) (faces : List.Forall₂ pairing.Faces tensors tensors')
    : pairing.Alike (tensors.foldl Heap.refresh heap) (tensors'.foldl Heap.refresh other) := by
  induction faces generalizing heap other with
  | nil => exact alike
  | cons head tail ih => exact ih (alike.refresh head)

/-- Looks again at the shapes below the tags around the values from `start` up to `stop`, and drops
these values.
-/
def Run.renew (start stop : Nat) : Run Unit := do
  let values ← read Machine.values
  forTensors ((values.take stop).drop start) fun tensor => onHeap fun heap => heap.refresh tensor
  modify fun machine =>
    { machine with values := machine.values.take start ++ machine.values.drop stop }

/-- Values below the last one are looked at again, those from the start on, and dropped. -/
theorem Run.renew_apply {last : Value} (values : machine.values = outer ++ arguments ++ [last])
    : renew outer.length (outer ++ arguments).length machine
      = .ok ()
          { machine with
            values := outer ++ [last]
            heap := (Value.tensorsAll arguments).foldl Heap.refresh machine.heap } := by
  have kept
      : machine.values.take outer.length ++ machine.values.drop (outer ++ arguments).length
        = outer ++ [last] := by
    rw [values, List.drop_left, List.append_assoc, List.take_left]
  have chosen
      : (machine.values.take (outer ++ arguments).length).drop outer.length = arguments := by
    rw [values, List.take_left, List.drop_left]
  rw [renew, bind_apply, read_apply]
  dsimp only
  rw [chosen, bind_apply, forTensors_onHeap, ← kept]
  rfl

/-- A single result is tagged, and the arguments below it are looked at again and dropped. -/
theorem tagResults_apply (values : machine.values = outer ++ arguments ++ [.tensor result])
    (size : arguments.length = op.arity) (single : op.resultCount = 1) (level : Level)
    : tagResults op level machine
      = (do
          let tagged ← tagAt result level
          modify fun machine =>
            { machine with values := outer ++ arguments ++ [.tensor tagged] }
          renew outer.length (outer ++ arguments).length : Run Unit) machine := by
  have stop : lastStart 1 machine = .ok (outer ++ arguments).length machine :=
    lastStart_append values
  have first : Size.sub? (outer ++ arguments).length op.arity = some outer.length := by
    rw [Size.sub?, List.length_append, size, if_pos (Nat.le_add_left _ _), Nat.add_sub_cancel]
  have unfolded
      : tagResults op level machine
        = (do
            mapLast 1 fun tensor => tagAt tensor level
            renew outer.length (outer ++ arguments).length : Run Unit) machine := by
    unfold tagResults mapLast renew
    simp only [single, bind_apply, stop, first]
    rfl
  have tagging := mapLast_apply values fun tensor => tagAt tensor level
  rw [unfolded, bind_apply]
  simp only [List.length_singleton] at tagging
  rw [tagging]
  simp only [Value.mapTensorsAllM, Value.mapTensorsM, bind_assoc, pure_bind, bind_apply]
  cases tagAt result level machine <;> rfl

/-- The results of both runs get new tags, and the tags around the arguments are brought up to date.
-/
theorem beside_tagResults (values : machine.values = outer ++ arguments ++ [.tensor result])
    (values' : twin.values = outer' ++ arguments' ++ [.tensor result'])
    (size : arguments.length = op.arity) (size' : arguments'.length = op'.arity)
    (single : op.resultCount = 1) (single' : op'.resultCount = 1)
    (matched : pairing.Matched result result')
    (faces : Value.RelatedAll pairing.Faces arguments arguments')
    (twins : pairing.Twins machine twin)
    (alike : ∀ exit exit', exit.Alike exit' → failed exit exit') (level : Level)
    : Beside strict (tagResults op level) (tagResults op' level) machine twin
        (fun _ values memory _ values' memory' =>
          pairing.Answers outer outer' values memory values' memory')
        failed := by
  refine .congr (tagResults_apply values size single level)
    (tagResults_apply values' size' single' level) ?_
  refine (beside_tagAt matched twins alike level).bind ?_
  intro tagged reached tagged' reached' _ _ _ _ left
  rcases left with ⟨-, -, agrees, faced⟩
  refine .step_left (.put reached _) rfl (.step_right (.put reached' _) rfl ?_)
  have renewed := agrees.heap.refreshAll faces.tensors
  refine .of_values (renew_apply rfl) (renew_apply rfl) ?_ ?_
    ⟨tagged, tagged', rfl, rfl, ⟨renewed, agrees.generator⟩, faced⟩
  · exact .of_eq rfl rfl rfl rfl (renewed.flags.trans agrees.heap.flags.symm)
  · exact .of_eq rfl rfl rfl rfl (renewed.flags'.trans agrees.heap.flags'.symm)

-----------------------------------------------------------------------------------------
-- The kernels around layers
-----------------------------------------------------------------------------------------

/-- In front of a layer both runs receive their arguments, and go on in the body of the layer with
the same outermost wrappers.
-/
theorem tallies_enter (holds : pairing.Holds exempt budget)
    (posed
      : pairing.Posed exempt (budget + 1) op op (layer :: below) machine twin outer outer' arguments
          arguments')
    (above : machine.Above layer below) (front : machine.thread.overlay.forces .entryInterceptor)
    : (entryInterceptor.run (nested budget) op).Tallies pairing exempt op outer outer' machine
        twin := by
  have receives (start : Machine)
      : (mapLast op.arity (receive layer)).Leaves start (fun _ _ _ => True) fun _ _ => True :=
    (quiet_writing.mapLast (quiet_writing.receive layer) op.arity start).mono (fun _ _ _ _ => trivial)
      fun _ _ => trivial
  exact beside_entry posed above front (Or.inl rfl) Exit.Follows.of_alike
    (fun start _ _ _ => receives start) fun _ _ _ _ _ _ _ posed _ => holds posed

/-- Results that are tagged in one run are tagged in the other one, and recorded in both. The
gradient mode is the same in both, and so is the level of the outermost tag.
-/
theorem tallies_differentiate (holds : pairing.Holds exempt budget)
    (posed
      : pairing.Posed exempt (budget + 1) op op (layer :: below) machine twin outer outer' arguments
          arguments')
    (within : machine.InBody layer below) (kind : layer.kind = .differentiation)
    (shown : machine.thread.overlay.excluded.contains .differentiation = false)
    : (differentiationBody.run (nested budget) op).Tallies pairing exempt op outer outer' machine
        twin := by
  have within' := within.other posed.calling' posed.twins
  have recording
      : Run.read (fun machine => machine.thread.grad) twin = .ok machine.thread.grad twin := by
    rw [read_apply, posed.twins.grad]
  refine .step (currentLayer_apply within.top) (currentLayer_apply within'.top) ?_
  refine .step (read_apply _ machine) recording ?_
  refine Beside.bind (beside_hidden posed within kind shown fun held held' posed _ => holds posed) ?_
  intro _ reached _ reached' _ _ returns returns' left
  rcases left with ⟨result, result', values, values', agrees, faces⟩
  have twins := posed.twins.returns returns returns' agrees
  have peeked : peek op.resultCount reached = .ok [.tensor result] reached := by
    rw [Schema.resultCount_eq_one posed.calling.member]
    exact peek_append values
  have peeked' : peek op.resultCount reached' = .ok [.tensor result'] reached' := by
    rw [Schema.resultCount_eq_one posed.calling.member]
    exact peek_append values'
  split
  · refine .step peeked peeked' ?_
    rw [forTensors_tensor, forTensors_tensor, faces.taggedLevel?_eq]
    split
    · have recorded := agrees.heap.recordGradFn faces op.name
      refine .of_values (onHeap_apply _ _) (onHeap_apply _ _) ?_ ?_
        ⟨result, result', values, values', ⟨recorded, agrees.generator⟩, faces⟩
      · exact .of_eq rfl rfl rfl rfl (recorded.flags.trans agrees.heap.flags.symm)
      · exact .of_eq rfl rfl rfl rfl (recorded.flags'.trans agrees.heap.flags'.symm)
    · exact beside_pure ⟨result, result', values, values', agrees, faces⟩
  · exact beside_pure ⟨result, result', values, values', agrees, faces⟩

/-- On the way out of a differentiation layer both runs go on without the tags of the layer. Below
it the outermost wrappers may differ in dead tags, and what comes back is tagged in both.
-/
theorem tallies_leaveDifferentiation (holds : pairing.Holds exempt budget)
    (posed
      : pairing.Posed exempt (budget + 1) op op (layer :: below) machine twin outer outer' arguments
          arguments')
    (within : machine.InBody layer below) (kind : layer.kind = .differentiation)
    : (exitInterceptor.run (nested budget) op).Tallies pairing exempt op outer outer' machine
        twin := by
  have within' := within.other posed.calling' posed.twins
  have faces := posed.faced within.inBody.entry within.top.symm
  have single := Schema.resultCount_eq_one posed.calling.member
  refine .step (currentLayer_apply within.top) (currentLayer_apply within'.top) ?_
  simp only [kind]
  refine (beside_copyUntagged posed.values posed.values' posed.size posed.size' faces posed.twins
    Exit.Follows.of_alike layer.level).bind ?_
  intro _ copied _ copied' _ _ returns returns' left
  rcases left with ⟨inner, inner', values, values', ⟨count, count'⟩, agrees, matched⟩
  have twins := posed.twins.returns returns returns' agrees
  have above : copied.Above layer below := ⟨returns.layers.trans within.top, within.grounded⟩
  refine Beside.bind
    (beside_onward posed.calling.member posed.calling.member above twins values values'
      (count.trans posed.size) (count'.trans posed.size') matched ?_ ?_ Exit.Follows.of_alike
      fun held held' posed _ => holds posed) ?_
  · rw [Ambient.reach_resumes returns.toResumes]
    exact posed.steps
  · rw [returns.settings]
    exact posed.unchecked
  intro _ reached _ reached' _ _ later later' left
  rcases left with ⟨result, result', values, values', agrees, faced⟩
  exact beside_tagResults values values' posed.size posed.size' single single faced.toMatched faces
    (twins.returns later later' agrees) Exit.Follows.of_alike layer.level

/-- On the way out of a batching layer both runs hand the call on as it is. -/
theorem tallies_leaveBatching (holds : pairing.Holds exempt budget)
    (posed
      : pairing.Posed exempt (budget + 1) op op owners machine twin outer outer' arguments
          arguments')
    (within : machine.InBody layer below) (kind : layer.kind = .batching)
    : (exitInterceptor.run (nested budget) op).Tallies pairing exempt op outer outer' machine
        twin := by
  have above' := within.toAbove.other posed.twins
  refine .step (currentLayer_apply within.top) (currentLayer_apply above'.top) ?_
  simp only [kind]
  exact beside_onward posed.calling.member posed.calling.member within.toAbove posed.twins
    posed.values posed.values' posed.size posed.size' posed.matched posed.steps posed.unchecked
    Exit.Follows.of_alike fun held held' posed _ => holds posed

end

end LayeredDispatch
