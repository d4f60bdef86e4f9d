import LayeredDispatch.Proofs.Effects.Rules
import LayeredDispatch.Proofs.Families.Rules
import LayeredDispatch.Proofs.Framing.Echoes
import LayeredDispatch.Proofs.Twins.Crossing

/-! What the parts of kernels do with the boxed values of a call. Most of them neither look at the
values nor change them; the others are about the last values only. Main statement: what a call goes
through on the way to the layer below, it goes through in the same way on top of any further values.
-/

namespace LayeredDispatch

open Run

section

variable {machine reached : Machine} {outer inner arguments items : List Value} {op : Schema}
  {count : Nat}

namespace Run

-----------------------------------------------------------------------------------------
-- The boxed values
-----------------------------------------------------------------------------------------

/-- Values that are put in the place of all. -/
theorem echoes_replaceAll {body other : Run PUnit} {values : List Value}
    (ended : body machine = .ok ⟨⟩ { machine with values })
    (again : other (machine.onto outer) = .ok ⟨⟩ { machine with values := outer ++ values })
    : body.Echoes outer other machine fun _ left => left = values :=
  .of_ok ended again rfl

/-- Values that are put on top are put on top of the further ones as well. -/
theorem echoes_pushAll (items : List Value)
    : (pushAll items).Echoes outer (pushAll items) machine
        fun _ values => values = machine.values ++ items := by
  refine echoes_replaceAll rfl ?_
  rw [← List.append_assoc]
  rfl

theorem echoes_pushTensor (tensor : Tensor)
    : (pushTensor tensor).Echoes outer (pushTensor tensor) machine
        fun _ values => values = machine.values ++ [.tensor tensor] :=
  echoes_pushAll [.tensor tensor]

theorem Machine.onto_values (values : machine.values = inner ++ items)
    : (machine.onto outer).values = outer ++ inner ++ items := by
  rw [Machine.onto, values, List.append_assoc]

/-- Taking the last values off gives the same ones, as long as they are all above the further
values.
-/
theorem echoes_pop (values : machine.values = inner ++ items) (size : items.length = count)
    : (pop count).Echoes outer (pop count) machine
        fun taken values => taken = items ∧ values = inner := by
  subst size
  exact .of_ok (pop_append values) (pop_append (Machine.onto_values values)) ⟨rfl, rfl⟩

/-- So does looking at them, which leaves them where they are. -/
theorem echoes_peek (values : machine.values = inner ++ items) (size : items.length = count)
    : (peek count).Echoes outer (peek count) machine
        fun taken values => taken = items ∧ values = inner ++ items := by
  subst size
  exact .of_ok (peek_append values) (peek_append (Machine.onto_values values)) ⟨rfl, values⟩

/-- Visiting the tensors of a list keeps the length of the list, and no visit sees the boxed values.
Induction on the list.
-/
theorem Aloof.echoes_mapTensorsAllM {replace : Tensor → Run Tensor}
    (h : ∀ tensor, Aloof (replace tensor)) (items : List Value)
    : (Value.mapTensorsAllM replace items).Echoes outer (Value.mapTensorsAllM replace items) machine
        fun replaced values => values = machine.values ∧ replaced.length = items.length := by
  induction items generalizing machine with
  | nil => exact echoes_pure ⟨rfl, rfl⟩
  | cons item items ih =>
      refine (aloof_making.mapTensorsM h item).echoes_bind fun first reached same => ?_
      refine ih.bind fun others final left => echoes_pure ⟨left.1.trans same, ?_⟩
      rw [List.length_cons, List.length_cons, left.2]

/-- As many values as before are on top of the values below.
Only the last values are visited, and these are the same ones on both sides.
-/
theorem echoes_mapLast {replace : Tensor → Run Tensor} (aloof : ∀ tensor, Aloof (replace tensor))
    (values : machine.values = inner ++ items) (size : items.length = count)
    : (mapLast count replace).Echoes outer (mapLast count replace) machine
        fun _ values => ∃ replaced, values = inner ++ replaced ∧ replaced.length = count := by
  subst size
  refine .congr (mapLast_apply values replace)
    (mapLast_apply (Machine.onto_values values) replace) ?_
  refine (Aloof.echoes_mapTensorsAllM aloof items).bind fun replaced reached left => ?_
  refine Echoes.mono (echoes_replaceAll rfl ?_) fun _ _ same => ⟨replaced, same, left.2⟩
  rw [← List.append_assoc]
  rfl

/-- Replacing the last value leaves those below it, whatever they are. -/
theorem echoes_replaceLast {last : Value} (values : machine.values = inner ++ [last])
    (value : Value)
    : (Batching.replaceLast value).Echoes outer (Batching.replaceLast value) machine
        fun _ values => values = inner ++ [value] := by
  refine echoes_replaceAll (replaceLast_apply values value) ?_
  rw [replaceLast_apply (Machine.onto_values values) value, List.append_assoc]
  rfl

/-- Marking one result as batched makes a handle, which the boxed values have no part in. -/
theorem echoes_wrapResults {result : Tensor} (values : machine.values = inner ++ [.tensor result])
    (level : Level)
    : (Batching.wrapResults 1 level).Echoes outer (Batching.wrapResults 1 level) machine
        fun _ values => ∃ result, values = inner ++ [.tensor result] := by
  refine .of_ok (wrapResults_apply values level) ?_ ⟨_, rfl⟩
  rw [wrapResults_apply (Machine.onto_values values) level, List.append_assoc]
  rfl

-----------------------------------------------------------------------------------------
-- On the way to the layer below and back
-----------------------------------------------------------------------------------------

/-- The check for captured values peeks at the arguments and takes dead tags off a copy of the first
one, so
it refuses on both sides or on none.
-/
theorem echoes_refuseCapturedMutation (values : machine.values = inner ++ arguments)
    (size : arguments.length = op.arity) (layer : Layer)
    : (refuseCapturedMutation op layer).Echoes outer (refuseCapturedMutation op layer) machine
        fun _ values => values = inner ++ arguments := by
  refine .ite (fun _ => ?_) fun _ => echoes_pure values
  refine (echoes_peek values size).bind fun taken reached left => ?_
  obtain ⟨rfl, values⟩ := left
  refine Aloof.echoes_bind (aloof_making.unwrapDead? _) fun written? seen same =>
    .ite (fun _ => ?_) fun _ => ?_
  · exact (aloof_making.log _).echoes_bind fun _ _ _ => echoes_fail _ _
  · exact echoes_pure (same.trans values)

/-- The check in front of the base is about the last values only. -/
theorem requireUnwrapped_append (values : machine.values = inner ++ items) (name : String)
    : requireUnwrapped name inner.length (inner.length + items.length) machine
      = forTensors items (requireBare name) machine := by
  unfold requireUnwrapped
  rw [bind_apply, read_apply]
  dsimp only
  rw [if_pos (by simp [values]), values, ← List.length_append, List.take_length, List.drop_left]
  rfl

/-- So it goes alike wherever these values begin.
The position at which they begin differs, but it is used only to find them.
-/
theorem echoes_requireUnwrapped {next : Run α} {left : α → List Value → Prop}
    (values : machine.values = inner ++ items) (size : items.length = count) (name : String)
    (tail
      : ∀ reached, reached.values = machine.values → next.Echoes outer next reached left)
    : Run.Echoes outer
        (do
          let start ← lastStart count
          requireUnwrapped name start (start + count)
          next)
        (do
          let start ← lastStart count
          requireUnwrapped name start (start + count)
          next)
        machine left := by
  subst size
  have checks {start : Machine} {outer : List Value} (values : start.values = outer ++ items)
      : (do
          let first ← lastStart items.length
          requireUnwrapped name first (first + items.length)
          next : Run α) start
        = (do
          forTensors items (requireBare name)
          next : Run α) start := by
    rw [bind_apply, lastStart_append values]
    dsimp only
    rw [bind_apply, requireUnwrapped_append values, ← bind_apply]
  refine .congr (checks values) (checks (Machine.onto_values values)) ?_
  refine Aloof.echoes_bind (aloof_making.forTensors (aloof_making.requireBare name) items) ?_
  exact fun _ reached same => tail reached same

/-- What a call goes through on the way down: the check in front of the base, or the overlay for the
layer
below. Neither touches the values; the overlay that is found is the same on both sides.
-/
theorem echoes_overlayBelow (values : machine.values = inner ++ arguments)
    (size : arguments.length = op.arity) (layer : Layer)
    : (overlayBelow op layer).Echoes outer (overlayBelow op layer) machine
        fun _ values => values = inner ++ arguments := by
  have leaves (start : Machine) (same : start.values = machine.values)
      : Run.Echoes outer (logDispatch (.leaving op.name) >>= fun _ => pure layer.saved)
          (logDispatch (.leaving op.name) >>= fun _ => pure layer.saved) start
          fun _ values => values = inner ++ arguments :=
    (aloof_making.logDispatch _).echoes_bind fun _ _ later =>
      echoes_pure (later.trans (same.trans values))
  unfold overlayBelow
  refine (aloof_read fun _ _ => rfl).echoes_bind fun count counted same =>
    .ite (fun _ => ?_) fun _ => ?_
  · refine (aloof_read fun _ _ => rfl).echoes_bind fun checked start later => ?_
    have atStart := later.trans same
    refine .ite (fun _ => ?_) fun _ => leaves start atStart
    refine echoes_requireUnwrapped (atStart.trans values) size op.name fun final last => ?_
    exact leaves final (last.trans atStart)
  · exact (aloof_read fun _ _ => rfl).echoes_bind fun _ _ later =>
      echoes_pure (later.trans (same.trans values))

/-- Copies of the arguments are put on top of them, and the tags of a layer taken off the copies.
-/
theorem echoes_copyUntagged (values : machine.values = inner ++ arguments)
    (size : arguments.length = op.arity) (level : Level)
    : (copyUntagged op level).Echoes outer (copyUntagged op level) machine
        fun _ values =>
          ∃ copied, values = inner ++ arguments ++ copied ∧ copied.length = op.arity := by
  refine (echoes_peek values size).bind fun taken seen left => ?_
  obtain ⟨rfl, same⟩ := left
  refine (echoes_pushAll taken).bind fun _ pushed values => ?_
  exact echoes_mapLast (fun tensor => aloof_making.unwrapAt tensor level) (same ▸ values) size

/-- The values below the arguments are not renewed. -/
theorem echoes_renew {last : Value} (values : machine.values = inner ++ arguments ++ [last])
    (values' : (machine.onto outer).values = outer ++ inner ++ arguments ++ [last])
    : (renew inner.length (inner ++ arguments).length).Echoes outer
        (renew (outer ++ inner).length (outer ++ inner ++ arguments).length) machine
        fun _ values => values = inner ++ [last] := by
  refine .of_ok (renew_apply values) ((renew_apply values').trans ?_) rfl
  rw [List.append_assoc]
  rfl

/-- On the way up the result is tagged and takes the place of the arguments, whose tags are renewed.
The positions that mark the arguments count the further values as well, so both sides find the same
ones.
-/
theorem echoes_tagResults {result : Tensor}
    (values : machine.values = inner ++ arguments ++ [.tensor result])
    (size : arguments.length = op.arity) (single : op.resultCount = 1) (level : Level)
    : (tagResults op level).Echoes outer (tagResults op level) machine
        fun _ values => ∃ result, values = inner ++ [.tensor result] := by
  have regroup (last : Value)
      : outer ++ (inner ++ arguments ++ [last]) = outer ++ inner ++ arguments ++ [last] := by
    simp only [List.append_assoc]
  refine .congr (tagResults_apply values size single level)
    (tagResults_apply ((congrArg (outer ++ ·) values).trans (regroup _)) size single level) ?_
  refine (aloof_making.tagAt result level).echoes_bind fun tagged reached _ => ?_
  refine Echoes.bind (echoes_replaceAll rfl (by rw [regroup]; rfl)) fun _ placed values => ?_
  refine (echoes_renew values ((congrArg (outer ++ ·) values).trans (regroup _))).mono ?_
  exact fun _ _ same => ⟨tagged, same⟩

end Run
end
end LayeredDispatch
