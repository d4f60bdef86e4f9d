import LayeredDispatch.Proofs.Twins.BaseKernels
import LayeredDispatch.Proofs.Twins.Rules

/-! Calls below all layers in two runs. There dead tags are taken off, as often as it takes, and what is
left is dense or a stray wrapper of a layer that is not active. Main statement: a call on related
arguments goes alike in both runs, but that a dead tag may hide a stray batch.
-/

namespace LayeredDispatch

open Run Dispatcher

mutual
/-- Replaces the tensors of a value, members of nested lists included. -/
def Value.mapTensors (replace : Tensor → Tensor) : Value → Value
  | .tensor handle => .tensor (replace handle)
  | .list items => .list (mapTensorsAll replace items)
  | .absent => .absent
  | .bool value => .bool value
  | .int value => .int value
  | .float value => .float value
  | .ints values => .ints values

/-- Replaces the tensors of several values. -/
def Value.mapTensorsAll (replace : Tensor → Tensor) : List Value → List Value
  | [] => []
  | value :: values => value.mapTensors replace :: mapTensorsAll replace values
end

section

variable {pairing : Pairing} {strict exempt : Prop} {machine twin : Machine}
  {failed : Exit → Exit → Prop} {op op' : Schema} {capability : Capability} {heap other : Heap}
  {outer outer' arguments arguments' : List Value} {budget : Nat} {calls : Calls}

-----------------------------------------------------------------------------------------
-- The hooks that arguments carry
-----------------------------------------------------------------------------------------

/-- Tensors carry no interceptors. -/
theorem carried_interceptors (heap : Heap) (values : List Value)
    : (Value.carried heap values).contains .entryInterceptor = false
      ∧ (Value.carried heap values).contains .exitInterceptor = false := by
  rw [@contains_carried .entryInterceptor (by decide), @contains_carried .exitInterceptor (by decide)]
  constructor <;>
  · rw [List.any_eq_false]
    intro tensor _
    cases tensor with
    | dense cell => simp [Tensor.capabilities, CapabilitySet.only]
    | batched handle level value => simp [Tensor.capabilities, CapabilitySet.only]
    | tagged cell level flag value =>
        rw [Tensor.capabilities]
        split <;> decide

/-- Below all layers the outermost wrappers alone select the kernel: a batch leads to its rule, a
live tag to the body of a layer that is not there, a dead one to the fallback, and dense tensors to
the base.
-/
theorem select_outside (op : Schema) (heap : Heap) (values : List Value)
    : standard.select op (Overlay.apply {} (Value.carried heap values)) =
        if (Value.carried heap values).contains .batched then some (.batched, batchRule op.name)
        else if (Value.carried heap values).contains .differentiation then
          some (.differentiation, differentiationBody)
        else if (Value.carried heap values).contains .taggedWrapper then
          some (.taggedWrapper, deadWrapperFallback)
        else (baseKernel? op.name).map fun kernel => (.backend, kernel) := by
  rcases carried_interceptors heap values with ⟨entry, exit⟩
  have random := Contract.carried_batchMode heap values
  rw [select_standard]
  simp [entry, exit, random]

-----------------------------------------------------------------------------------------
-- What is left of arguments
-----------------------------------------------------------------------------------------

variable {replace replace' : Tensor → Tensor}

mutual
theorem tensors_mapTensors (replace : Tensor → Tensor) (value : Value)
    : (value.mapTensors replace).tensors = value.tensors.map replace := by
  cases value with
  | tensor handle => rfl
  | list items => exact tensors_mapTensorsAll replace items
  | absent | bool _ | int _ | float _ | ints _ => rfl

/-- The tensors of values in which tensors have been replaced are the replacements. -/
theorem tensors_mapTensorsAll (replace : Tensor → Tensor) (values : List Value)
    : Value.tensorsAll (Value.mapTensorsAll replace values)
      = (Value.tensorsAll values).map replace := by
  cases values with
  | nil => rfl
  | cons value values =>
      rw [Value.mapTensorsAll, Value.tensorsAll, Value.tensorsAll, List.map_append,
        tensors_mapTensors replace value, tensors_mapTensorsAll replace values]
end

theorem length_mapTensorsAll (replace : Tensor → Tensor) (values : List Value)
    : (Value.mapTensorsAll replace values).length = values.length := by
  induction values with
  | nil => rfl
  | cons value values ih => rw [Value.mapTensorsAll, List.length_cons, List.length_cons, ih]

mutual
theorem mapTensors_eq_self {value : Value} (same : ∀ tensor ∈ value.tensors, replace tensor = tensor)
    : value.mapTensors replace = value := by
  cases value with
  | tensor handle => rw [Value.mapTensors, same handle (List.mem_singleton_self _)]
  | list items => rw [Value.mapTensors, mapTensorsAll_eq_self same]
  | absent | bool _ | int _ | float _ | ints _ => rfl

/-- Where each tensor is replaced by itself the values stay. -/
theorem mapTensorsAll_eq_self {values : List Value}
    (same : ∀ tensor ∈ Value.tensorsAll values, replace tensor = tensor)
    : Value.mapTensorsAll replace values = values := by
  cases values with
  | nil => rfl
  | cons value values =>
      rcases List.forall_mem_append.mp same with ⟨head, tail⟩
      rw [Value.mapTensorsAll, mapTensors_eq_self head, mapTensorsAll_eq_self tail]
end

mutual
/-- Where related tensors have the same ones put in their places, a value has that is related to
another one.
-/
theorem mapTensors_congr {among : Tensor → Tensor → Prop} {value value' : Value}
    (related : Value.Related among value value')
    (same
      : ∀ tensor ∈ value.tensors, ∀ tensor',
          among tensor tensor' → replace tensor = replace' tensor')
    : value.mapTensors replace = value'.mapTensors replace' := by
  cases related with
  | tensor related =>
      rw [Value.mapTensors, Value.mapTensors, same _ (List.mem_singleton_self _) _ related]
  | list related => rw [Value.mapTensors, Value.mapTensors, mapTensorsAll_congr related same]
  | plain plain =>
      have none {replace : Tensor → Tensor} : ∀ tensor ∈ value.tensors, replace tensor = tensor := by
        rw [plain]
        exact List.forall_mem_nil _
      rw [mapTensors_eq_self none, mapTensors_eq_self none]

/-- Where related tensors have the same ones put in their places, related values have. -/
theorem mapTensorsAll_congr {among : Tensor → Tensor → Prop} {values values' : List Value}
    (related : Value.RelatedAll among values values')
    (same
      : ∀ tensor ∈ Value.tensorsAll values, ∀ tensor',
          among tensor tensor' → replace tensor = replace' tensor')
    : Value.mapTensorsAll replace values = Value.mapTensorsAll replace' values' := by
  cases related with
  | nil => rfl
  | cons head tail =>
      rcases List.forall_mem_append.mp same with ⟨first, others⟩
      rw [Value.mapTensorsAll, Value.mapTensorsAll, mapTensors_congr head first,
        mapTensorsAll_congr tail others]
end

section

variable {visit : Tensor → Run Tensor} {passes : Tensor → Prop} {refusal : Exit → Prop}

mutual
/-- Replacing tensors that each either passes a check or is refused: all pass, and the value is the
one in which they are replaced; or some does not, and the value is refused.
-/
theorem mapTensorsM_checks
    (each
      : ∀ tensor,
          (passes tensor ∧ visit tensor machine = .ok (replace tensor) machine)
          ∨ (¬passes tensor ∧ ∃ exit, refusal exit ∧ visit tensor machine = .error exit machine))
    (value : Value)
    : ((∀ tensor ∈ value.tensors, passes tensor)
        ∧ value.mapTensorsM visit machine = .ok (value.mapTensors replace) machine)
      ∨ ((∃ tensor ∈ value.tensors, ¬passes tensor)
        ∧ ∃ exit, refusal exit ∧ value.mapTensorsM visit machine = .error exit machine) := by
  cases value with
  | tensor handle =>
      rcases each handle with ⟨passed, ended⟩ | ⟨failing, exit, refused, ended⟩
      · refine Or.inl ⟨List.forall_mem_singleton.mpr passed, ?_⟩
        rw [Value.mapTensorsM, bind_apply, ended]
        rfl
      · refine Or.inr ⟨⟨handle, List.mem_singleton_self _, failing⟩, exit, refused, ?_⟩
        rw [Value.mapTensorsM, bind_apply, ended]
  | list items =>
      rcases mapTensorsAllM_checks each items with ⟨passed, ended⟩ | ⟨failing, exit, refused, ended⟩
      · refine Or.inl ⟨passed, ?_⟩
        rw [Value.mapTensorsM, bind_apply, ended]
        rfl
      · refine Or.inr ⟨failing, exit, refused, ?_⟩
        rw [Value.mapTensorsM, bind_apply, ended]
  | absent | bool _ | int _ | float _ | ints _ => exact Or.inl ⟨List.forall_mem_nil _, rfl⟩

/-- Tensors that are checked one after another are all replaced, or the first one that does not pass
ends the check.
-/
theorem mapTensorsAllM_checks
    (each
      : ∀ tensor,
          (passes tensor ∧ visit tensor machine = .ok (replace tensor) machine)
          ∨ (¬passes tensor ∧ ∃ exit, refusal exit ∧ visit tensor machine = .error exit machine))
    (values : List Value)
    : ((∀ tensor ∈ Value.tensorsAll values, passes tensor)
        ∧ Value.mapTensorsAllM visit values machine
          = .ok (Value.mapTensorsAll replace values) machine)
      ∨ ((∃ tensor ∈ Value.tensorsAll values, ¬passes tensor)
        ∧ ∃ exit, refusal exit ∧ Value.mapTensorsAllM visit values machine = .error exit machine) := by
  cases values with
  | nil => exact Or.inl ⟨List.forall_mem_nil _, rfl⟩
  | cons value values =>
      rw [Value.mapTensorsAllM, bind_apply]
      rcases mapTensorsM_checks each value
        with ⟨passed, ended⟩ | ⟨⟨tensor, member, failing⟩, exit, refused, ended⟩
      · rw [ended]
        dsimp only
        rw [bind_apply]
        rcases mapTensorsAllM_checks each values
          with ⟨others, ended⟩ | ⟨⟨tensor, member, failing⟩, exit, refused, ended⟩
        · rw [ended]
          exact Or.inl ⟨List.forall_mem_append.mpr ⟨passed, others⟩, rfl⟩
        · rw [ended]
          exact Or.inr ⟨⟨tensor, List.mem_append_right _ member, failing⟩, exit, refused, rfl⟩
      · rw [ended]
        exact Or.inr ⟨⟨tensor, List.mem_append_left _ member, failing⟩, exit, refused, rfl⟩
end

end

/-- What is left of a tensor outside all layers, where there must be no live tag. -/
def Run.shed (name : String) (tensor : Tensor) : Run Tensor := do
  let bare ← unwrapDead tensor
  match bare.taggedLevel? with
  | some level => fault (.liveOutside level name)
  | none => return bare

/-- A tensor is left without its dead tags, unless a live tag is under them, for which there is a
fault.
-/
theorem Run.shed_cases (name : String) (tensor : Tensor)
    : ((tensor.unwrapDead machine.heap).taggedLevel? = none
        ∧ shed name tensor machine = .ok (tensor.unwrapDead machine.heap) machine)
      ∨ (¬(tensor.unwrapDead machine.heap).taggedLevel? = none
        ∧ ∃ exit,
            (∃ level, exit = .fault (.liveOutside level name))
            ∧ shed name tensor machine = .error exit machine) := by
  rw [shed, unwrapDead, bind_apply, read_apply]
  dsimp only
  cases (tensor.unwrapDead machine.heap).taggedLevel? with
  | none => exact Or.inl ⟨rfl, rfl⟩
  | some level => exact Or.inr ⟨Option.some_ne_none level, _, ⟨level, rfl⟩, rfl⟩

/-- Outside all layers dead tags are taken off, unless a live one is left. Then the call is issued
again on what is left of the arguments.
-/
theorem fallback_cases (values : machine.values = outer ++ arguments)
    (size : arguments.length = op.arity) (calls : Calls)
    : ((∀ tensor ∈ Value.tensorsAll arguments,
            (tensor.unwrapDead machine.heap).taggedLevel? = none)
        ∧ deadWrapperFallback.run calls op machine
          = (do
              let bared := Value.mapTensorsAll (Tensor.unwrapDead machine.heap) arguments
              modify fun machine => { machine with values := outer ++ bared }
              calls.dispatch op : Run Unit) machine)
      ∨ ((∃ tensor ∈ Value.tensorsAll arguments,
            ¬(tensor.unwrapDead machine.heap).taggedLevel? = none)
        ∧ ∃ level,
            deadWrapperFallback.run calls op machine
              = .error (.fault (.liveOutside level op.name)) machine) := by
  have unfolded
      : deadWrapperFallback.run calls op
        = (mapLast op.arity (shed op.name) >>= fun _ => calls.dispatch op) :=
    rfl
  rw [unfolded, bind_apply, ← size, mapLast_apply values, bind_apply]
  rcases mapTensorsAllM_checks (shed_cases op.name) arguments
    with ⟨passed, ended⟩ | ⟨failing, exit, ⟨level, same⟩, ended⟩
  · rw [ended]
    exact Or.inl ⟨passed, rfl⟩
  · rw [ended, same]
    exact Or.inr ⟨failing, level, rfl⟩

-----------------------------------------------------------------------------------------
-- Dense arguments
-----------------------------------------------------------------------------------------

/-- What is left of a tensor without dead tags is dense, a batch or tagged by a live level. -/
theorem Tensor.unwrapDead_cases (heap : Heap) (tensor : Tensor)
    : (tensor.unwrapDead heap).isDense = true
      ∨ ((tensor.unwrapDead heap).taggedLevel? = none
        ∧ ((tensor.unwrapDead heap).capabilities heap).contains .batched = true)
      ∨ (¬(tensor.unwrapDead heap).taggedLevel? = none
        ∧ ((tensor.unwrapDead heap).capabilities heap).contains .differentiation = true) := by
  induction tensor with
  | dense cell => exact Or.inl rfl
  | batched handle level value ih =>
      refine Or.inr (Or.inl ⟨rfl, ?_⟩)
      simp [Tensor.unwrapDead, Tensor.capabilities, CapabilitySet.only]
  | tagged cell level flag value ih =>
      cases alive : heap.isAlive flag with
      | false =>
          rw [Tensor.unwrapDead, alive, if_neg Bool.false_ne_true]
          exact ih
      | true =>
          rw [Tensor.unwrapDead, alive, if_pos rfl, Tensor.capabilities, alive, if_pos rfl]
          exact Or.inr (Or.inr ⟨Option.some_ne_none level, rfl⟩)

/-- Dense tensors carry no hooks. -/
theorem Tensor.capabilities_dense {tensor : Tensor} (dense : tensor.isDense = true) (heap : Heap)
    : tensor.capabilities heap = .only .backend := by
  cases tensor with
  | dense cell => rfl
  | tagged cell level flag value => cases dense
  | batched handle level value => cases dense

theorem Tensor.unwrapDead_dense {tensor : Tensor} (dense : tensor.isDense = true) (heap : Heap)
    : tensor.unwrapDead heap = tensor := by
  cases tensor with
  | dense cell => rfl
  | tagged cell level flag value => cases dense
  | batched handle level value => cases dense

/-- Tensors that carry the hook of differentiation layers have a live tag on the outside. -/
theorem Tensor.live_of_carries {tensor : Tensor}
    (carries : (tensor.capabilities heap).contains .differentiation = true)
    : ¬(tensor.unwrapDead heap).taggedLevel? = none := by
  cases tensor with
  | dense cell => simp [Tensor.capabilities, CapabilitySet.only] at carries
  | batched handle level value => simp [Tensor.capabilities, CapabilitySet.only] at carries
  | tagged cell level flag value =>
      cases alive : heap.isAlive flag with
      | false => simp [Tensor.capabilities, alive, CapabilitySet.only] at carries
      | true =>
          rw [Tensor.unwrapDead, alive, if_pos rfl]
          exact Option.some_ne_none level

theorem exists_baseKernel (member : op ∈ Base.schemas)
    : ∃ kernel, baseKernel? op.name = some kernel := by
  simp only [Base.schemas, List.mem_cons, List.not_mem_nil, or_false] at member
  rcases member with rfl | rfl | rfl | rfl | rfl | rfl | rfl | rfl | rfl | rfl <;> exact ⟨_, rfl⟩

variable {ok : Unit → List Value → Memory → Unit → List Value → Memory → Prop} {body : Run Unit}

/-- Below all layers dense arguments select a base kernel. -/
theorem select_dense (atBase : machine.AtBase) (member : op ∈ Base.schemas)
    (dense : ∀ tensor ∈ Value.tensorsAll arguments, tensor.isDense = true)
    : ∃ kernel,
        baseKernel? op.name = some kernel
        ∧ standard.select op (machine.thread.overlay.apply (Value.carried machine.heap arguments))
          = some (.backend, kernel) := by
  rcases exists_baseKernel member with ⟨kernel, found⟩
  have hookless {capability : Capability} (above : capability ≠ .backend)
      : (Value.carried machine.heap arguments).contains capability = false := by
    rw [contains_carried above, List.any_eq_false]
    intro tensor member
    rw [Tensor.capabilities_dense (dense tensor member)]
    simp [CapabilitySet.only, Ne.symm above]
  have selected := select_outside op machine.heap arguments
  rw [hookless (by decide), hookless (by decide), hookless (by decide), found] at selected
  simp only [Bool.false_eq_true, if_false, Option.map_some] at selected
  rw [← atBase.overlay] at selected
  exact ⟨kernel, found, selected⟩

theorem dispatch_dense (atBase : machine.AtBase) (member : op ∈ Base.schemas)
    (values : machine.values = outer ++ arguments) (size : arguments.length = op.arity)
    (dense : ∀ tensor ∈ Value.tensorsAll arguments, tensor.isDense = true) (budget : Nat)
    : ∃ kernel,
        baseKernel? op.name = some kernel
        ∧ (nested (budget + 1)).dispatch op machine
          = Run.traced op.name .backend (kernel.run (nested budget) op) machine := by
  obtain ⟨kernel, found, selected⟩ := select_dense atBase member dense
  exact ⟨kernel, found, dispatch_apply values size selected⟩

/-- Tensors that are dense but for dead tags carry no hook of a layer. -/
theorem Tensor.carries_of_dense {heap : Heap} {tensor : Tensor}
    (dense : (tensor.unwrapDead heap).isDense = true)
    : (tensor.capabilities heap).contains .batched = false
      ∧ (tensor.capabilities heap).contains .differentiation = false := by
  cases tensor with
  | dense cell => simp [capabilities, CapabilitySet.only]
  | batched handle level value => cases dense
  | tagged cell level flag value =>
      cases alive : heap.isAlive flag with
      | false => simp [capabilities, alive, CapabilitySet.only]
      | true =>
          rw [unwrapDead, alive, if_pos rfl] at dense
          cases dense

/-- Nor do values in which all tensors are. -/
theorem Value.carried_of_dense {heap : Heap}
    (dense : ∀ tensor ∈ tensorsAll arguments, (tensor.unwrapDead heap).isDense = true)
    : (carried heap arguments).contains .batched = false
      ∧ (carried heap arguments).contains .differentiation = false := by
  constructor <;> rw [contains_carried (by decide), List.any_eq_false] <;> intro tensor member
  · rw [(Tensor.carries_of_dense (dense tensor member)).1]
    exact Bool.false_ne_true
  · rw [(Tensor.carries_of_dense (dense tensor member)).2]
    exact Bool.false_ne_true

/-- Below all layers arguments that are dense but for dead tags get to a base kernel without them,
at once or after the fallback has taken the tags off. The other run is left where it is.
-/
theorem beside_based (atBase : machine.AtBase) (member : op ∈ Base.schemas)
    (values : machine.values = outer ++ arguments) (size : arguments.length = op.arity)
    (dense
      : ∀ tensor ∈ Value.tensorsAll arguments, (tensor.unwrapDead machine.heap).isDense = true)
    (inner
      : ∀ start calls kernel,
          baseKernel? op.name = some kernel
          → start.values
            = outer ++ Value.mapTensorsAll (Tensor.unwrapDead machine.heap) arguments
          → start.memory = machine.memory
          → Beside strict (kernel.run calls op) body start twin ok failed)
    : Beside strict ((nested (budget + 2)).dispatch op) body machine twin ok failed := by
  obtain ⟨batched, tagged⟩ := Value.carried_of_dense dense
  have selected := select_outside op machine.heap arguments
  rw [batched, tagged, ← atBase.overlay] at selected
  simp only [Bool.false_eq_true, if_false] at selected
  cases dead : (Value.carried machine.heap arguments).contains .taggedWrapper with
  | false =>
      have plain : ∀ tensor ∈ Value.tensorsAll arguments, tensor.isDense = true :=
        List.all_eq_true.mp (Value.dense_of_carried dead batched)
      rw [mapTensorsAll_eq_self fun tensor member =>
        Tensor.unwrapDead_dense (plain tensor member) machine.heap] at inner
      obtain ⟨kernel, found, ended⟩ :=
        dispatch_dense atBase member values size plain (budget + 1)
      exact .congr ended rfl (.traced_left (inner _ _ kernel found values rfl))
  | true =>
      rw [dead, if_pos rfl] at selected
      refine .congr (dispatch_apply values size selected) rfl (.traced_left ?_)
      have within : (machine.inSpan op.name .taggedWrapper).values = outer ++ arguments := values
      rcases fallback_cases within size (nested (budget + 1))
        with ⟨-, ended⟩ | ⟨⟨tensor, given, live⟩, -⟩
      · refine .congr ended rfl (.step_left (.put _ _) rfl ?_)
        let bared := Value.mapTensorsAll (Tensor.unwrapDead machine.heap) arguments
        let reached : Machine :=
          { machine.inSpan op.name .taggedWrapper with values := outer ++ bared }
        have atBase : reached.AtBase := ⟨atBase.layers, atBase.overlay⟩
        have plain : ∀ tensor ∈ Value.tensorsAll bared, tensor.isDense = true := by
          rw [tensors_mapTensorsAll]
          exact List.forall_mem_map.mpr dense
        obtain ⟨kernel, found, ended⟩ :=
          dispatch_dense atBase member rfl ((length_mapTensorsAll _ _).trans size) plain budget
        exact .congr ended rfl (.traced_left (inner _ _ kernel found rfl rfl))
      · have plain := dense tensor given
        change ¬(tensor.unwrapDead machine.heap).taggedLevel? = none at live
        cases bare : tensor.unwrapDead machine.heap with
        | dense cell =>
            rw [bare] at live
            exact absurd rfl live
        | tagged cell level flag value =>
            rw [bare] at plain
            cases plain
        | batched handle level value =>
            rw [bare] at plain
            cases plain

/-- Without active layers a call is about none, and is at the base. -/
theorem Machine.atBase_of_owners {owners : List Layer} (owning : machine.ambient.Owners owners)
    (inactive : machine.thread.layers = [])
    : machine.AtBase ∧ owners = [] := by
  generalize ambient : machine.ambient = present at owning
  cases owning with
  | base layers overlay =>
      subst ambient
      exact ⟨⟨layers, overlay⟩, rfl⟩
  | front active _ _ =>
      subst ambient
      exact absurd inactive active
  | body top _ _ _ =>
      subst ambient
      exact absurd (inactive.symm.trans top) nofun
  | leaving top _ _ _ _ =>
      subst ambient
      exact absurd (inactive.symm.trans top) nofun

/-- Arguments that are dense but for dead tags get to the same base kernel in both runs, and there
they are the same tensors.
-/
theorem tallies_based {owners : List Layer}
    (posed
      : pairing.Posed exempt (budget + 2) op op owners machine twin outer outer' arguments
          arguments')
    (inactive : machine.thread.layers = [])
    (dense
      : ∀ tensor ∈ Value.tensorsAll arguments, (tensor.unwrapDead machine.heap).isDense = true)
    : ((nested (budget + 2)).dispatch op).Tallies pairing exempt op outer outer' machine twin := by
  have alike := posed.twins.alike
  have member := posed.calling.member
  rcases Machine.atBase_of_owners posed.calling.owning inactive with ⟨atBase, -⟩
  rcases Machine.atBase_of_owners posed.calling'.owning (posed.twins.layers.trans inactive)
    with ⟨atBase', -⟩
  have dense' := (pairing.dense_iff posed.matched alike).mpr dense
  have same
      : Value.mapTensorsAll (Tensor.unwrapDead machine.heap) arguments
        = Value.mapTensorsAll (Tensor.unwrapDead twin.heap) arguments' := by
    refine mapTensorsAll_congr posed.matched fun tensor given tensor' matched => ?_
    have plain := dense tensor given
    have faces := matched.unwrapDead alike
    generalize tensor.unwrapDead machine.heap = bare at plain faces ⊢
    generalize tensor'.unwrapDead twin.heap = bare' at faces ⊢
    cases faces with
    | dense cell => rfl
    | tagged linked matched => cases plain
    | batched matched => cases plain
  refine beside_based atBase member posed.values posed.size dense ?_
  intro start calls kernel found values memory
  refine .symm (beside_based atBase' member posed.values' posed.size' dense' ?_)
  intro start' calls' kernel' found' values' memory'
  obtain rfl : kernel = kernel' := Option.some.inj (found.symm.trans found')
  rw [← same] at values'
  rw [baseKernel_calls found calls' calls op]
  refine .symm ((mirrors_baseKernel member found).beside values values' ?_ ?_
    Exit.Follows.of_alike)
  · exact (length_mapTensorsAll _ _).trans posed.size
  · rw [memory, memory']
    exact posed.twins.memory

-----------------------------------------------------------------------------------------
-- Stray wrappers
-----------------------------------------------------------------------------------------

/-- A batch is what ends a call below all layers: one that no dead tag hides, or one that gets there
while no tag around the arguments is live.
-/
def Value.StrayBatch (heap : Heap) (arguments : List Value) : Prop :=
  (carried heap arguments).contains .batched = true
  ∨ ((∀ tensor ∈ tensorsAll arguments, (tensor.unwrapDead heap).taggedLevel? = none)
    ∧ ¬∀ tensor ∈ tensorsAll arguments, (tensor.unwrapDead heap).isDense = true)

/-- How a call with stray wrappers ends: operators without a rule for batches are refused if a batch
ends it.
-/
def Exit.Strays (batch : Prop) (name : String) (exit : Exit) : Prop :=
  (batch ∧ name ∉ ruled ∧ exit = .error (.missingBatchRule name))
  ∨ (¬(batch ∧ name ∉ ruled) ∧ ∃ fault, exit = .fault fault)

theorem Exit.Strays.mono {batch batch' : Prop} {name : String} {exit : Exit}
    (h : exit.Strays batch name) (same : batch ↔ batch')
    : exit.Strays batch' name := by
  rwa [propext same] at h

theorem quiet_put (values : List Value)
    : Quiet (modify fun machine => { machine with values } : Run PUnit) :=
  quiet_modify (fun _ => rfl) (fun _ => rfl) fun _ => rfl

/-- Kernels that ask for the top layer fault without one. -/
theorem leaves_inactive {start : Machine} (inactive : start.thread.layers = [])
    (next : Layer → Run Unit)
    : (currentLayer >>= next).Leaves start (fun _ _ _ => False)
        (fun exit _ => ∃ fault, exit = .fault fault) := by
  have ended : (currentLayer >>= next) start = .error (.fault .noActiveLayer) start := by
    simp [currentLayer, topLayer?, bind_apply, read_apply, inactive, fault_apply]
  have orderly : Exit.Orderly (.fault .noActiveLayer) := trivial
  exact leaves_ended ended orderly ⟨_, rfl⟩

/-- Below all layers a batch faults, or is refused where there is no rule, because all rules ask for
the top layer and the refusal does not.
-/
theorem leaves_rule_inactive (inactive : machine.thread.layers = []) (op : Schema) (calls : Calls)
    : ((batchRule op.name).run calls op).Leaves machine (fun _ _ _ => False)
        (fun exit _ => exit.Strays True op.name) := by
  have faults {next : Layer → Run Unit} (named : op.name ∈ ruled)
      : (currentLayer >>= next).Leaves machine (fun _ _ _ => False)
          (fun exit _ => exit.Strays True op.name) :=
    (leaves_inactive inactive next).mono (fun _ _ _ => id) fun _ _ ended =>
      Or.inr ⟨fun unruled => unruled.2 named, ended⟩
  by_cases named : op.name ∈ ruled
  · have listed := named
    simp only [ruled, List.mem_cons, List.not_mem_nil, or_false] at listed
    rcases listed with same | same | same | same | same
    all_goals
      rw [same, batchRule]
      rw [same] at faults named
      exact faults named
  · have missing : batchRule op.name = Batching.missingRule := by
      simp only [ruled, List.mem_cons, List.not_mem_nil, or_false, not_or] at named
      simp [batchRule, named]
    rw [missing]
    exact (still_log _).quiet.leaves_step rfl (leaves_fail (Or.inl ⟨trivial, named, rfl⟩))

/-- Below all layers a batch that no tag hides selects the rules for batches. -/
theorem leaves_batch (atBase : machine.AtBase) (values : machine.values = outer ++ arguments)
    (size : arguments.length = op.arity)
    (batched : (Value.carried machine.heap arguments).contains .batched = true) (budget : Nat)
    : ((nested (budget + 1)).dispatch op).Leaves machine (fun _ _ _ => False)
        (fun exit _ => exit.Strays True op.name) := by
  have selected := select_outside op machine.heap arguments
  rw [if_pos batched, ← atBase.overlay] at selected
  have inactive : (machine.inSpan op.name .batched).thread.layers = [] := atBase.layers
  exact .congr (dispatch_apply values size selected)
    (.traced (leaves_rule_inactive inactive op (nested budget)))

/-- A live tag around an argument is no end of a batch. -/
theorem Value.not_strayBatch {tensor : Tensor}
    (batched : (carried heap arguments).contains .batched = false)
    (given : tensor ∈ tensorsAll arguments) (live : ¬(tensor.unwrapDead heap).taggedLevel? = none)
    : ¬StrayBatch heap arguments := by
  intro stray
  rcases stray with unhidden | ⟨bare, -⟩
  · rw [batched] at unhidden
    cases unhidden
  · exact live (bare tensor given)

/-- What dead tags alone have hidden is a batch: there is no live tag, and yet not everything is
dense.
-/
theorem Value.carried_bared
    (bare : ∀ tensor ∈ tensorsAll arguments, (tensor.unwrapDead heap).taggedLevel? = none)
    (wrapped : ¬∀ tensor ∈ tensorsAll arguments, (tensor.unwrapDead heap).isDense = true)
    : (carried heap (mapTensorsAll (Tensor.unwrapDead heap) arguments)).contains .batched = true := by
  simp only [Classical.not_forall] at wrapped
  rcases wrapped with ⟨tensor, given, wrapped⟩
  rw [contains_carried (by decide), tensors_mapTensorsAll, List.any_map, List.any_eq_true]
  refine ⟨tensor, given, ?_⟩
  rcases Tensor.unwrapDead_cases heap tensor with plain | ⟨-, batched⟩ | ⟨live, -⟩
  · exact absurd plain wrapped
  · exact batched
  · exact absurd (bare tensor given) live

/-- Below all layers a call ends without a value unless its arguments are dense but for dead tags.
Which wrapper ends it depends on which is found first: a batch on the outside, a live tag, or a
batch that the fallback has brought to the outside.
-/
theorem leaves_stray (atBase : machine.AtBase) (values : machine.values = outer ++ arguments)
    (size : arguments.length = op.arity)
    (wrapped
      : ¬∀ tensor ∈ Value.tensorsAll arguments, (tensor.unwrapDead machine.heap).isDense = true)
    (budget : Nat)
    : ((nested (budget + 2)).dispatch op).Leaves machine (fun _ _ _ => False)
        (fun exit _ => exit.Strays (Value.StrayBatch machine.heap arguments) op.name) := by
  cases batched : (Value.carried machine.heap arguments).contains .batched with
  | true =>
      refine (leaves_batch atBase values size batched _).mono (fun _ _ _ => id) ?_
      intro exit _ strays
      exact strays.mono (iff_of_true trivial (Or.inl batched))
  | false =>
      have selected := select_outside op machine.heap arguments
      rw [batched, ← atBase.overlay] at selected
      cases tagged : (Value.carried machine.heap arguments).contains .differentiation with
      | true =>
          rw [tagged, if_neg Bool.false_ne_true, if_pos rfl] at selected
          refine .congr (dispatch_apply values size selected) (.traced ?_)
          have inactive : (machine.inSpan op.name .differentiation).thread.layers = [] :=
            atBase.layers
          refine (leaves_inactive inactive _).mono (fun _ _ _ => id) fun exit _ ended => ?_
          rw [contains_carried (by decide), List.any_eq_true] at tagged
          rcases tagged with ⟨tensor, given, carries⟩
          have live := Tensor.live_of_carries carries
          exact Or.inr ⟨fun stray => Value.not_strayBatch batched given live stray.1, ended⟩
      | false =>
          rw [tagged, if_neg Bool.false_ne_true, if_neg Bool.false_ne_true] at selected
          cases dead : (Value.carried machine.heap arguments).contains .taggedWrapper with
          | false =>
              have plain := List.all_eq_true.mp (Value.dense_of_carried dead batched)
              refine absurd (fun tensor given => ?_) wrapped
              rw [Tensor.unwrapDead_dense (plain tensor given)]
              exact plain tensor given
          | true =>
              rw [dead, if_pos rfl] at selected
              refine .congr (dispatch_apply values size selected) (.traced ?_)
              have within
                  : (machine.inSpan op.name .taggedWrapper).values = outer ++ arguments :=
                values
              rcases fallback_cases within size (nested (budget + 1))
                with ⟨bare, ended⟩ | ⟨⟨tensor, given, live⟩, level, ended⟩
              · have stray : Value.StrayBatch machine.heap arguments := Or.inr ⟨bare, wrapped⟩
                let bared := Value.mapTensorsAll (Tensor.unwrapDead machine.heap) arguments
                let reached : Machine :=
                  { machine.inSpan op.name .taggedWrapper with values := outer ++ bared }
                have atBase : reached.AtBase := ⟨atBase.layers, atBase.overlay⟩
                refine .congr ended ((quiet_put _).leaves_step rfl ?_)
                refine (leaves_batch atBase rfl ((length_mapTensorsAll _ _).trans size)
                  (Value.carried_bared bare wrapped) budget).mono (fun _ _ _ => id) ?_
                intro exit _ strays
                exact strays.mono (iff_of_true trivial stray)
              · have orderly : Exit.Orderly (.fault (.liveOutside level op.name)) := trivial
                refine leaves_ended ended orderly (Or.inr ⟨fun stray => ?_, _, rfl⟩)
                exact Value.not_strayBatch batched given live stray.1

/-- No dead tag is around a tensor that is a batch on the outside, so that the other run sees the
batch too.
-/
theorem Pairing.Matched.carries_batched {tensor bare : Tensor} (h : pairing.Matched tensor bare)
    (carries : (tensor.capabilities heap).contains .batched = true)
    : (bare.capabilities other).contains .batched = true := by
  have tagless {cell level flag : Nat} {value : Tensor}
      : ((Tensor.tagged cell level flag value).capabilities heap).contains .batched = false := by
    rw [Tensor.capabilities]
    split <;> decide
  cases h with
  | dense cell => simp [Tensor.capabilities, CapabilitySet.only] at carries
  | batched matched => simp [Tensor.capabilities, CapabilitySet.only]
  | tagged linked matched =>
      rw [tagless] at carries
      cases carries
  | dropped dead matched =>
      rw [tagless] at carries
      cases carries

/-- Where fewer dead tags are around arguments, batches are hidden no better. -/
theorem Pairing.strayBatch (matched : Value.RelatedAll pairing.Matched arguments arguments')
    (alike : pairing.Alike heap other) (stray : Value.StrayBatch heap arguments)
    : Value.StrayBatch other arguments' := by
  rcases stray with unhidden | ⟨bare, wrapped⟩
  · rw [contains_carried (by decide), List.any_eq_true] at unhidden
    rcases unhidden with ⟨tensor, given, carries⟩
    cases absent : (Value.carried other arguments').contains .batched with
    | true => exact Or.inl absent
    | false =>
        rw [contains_carried (by decide), List.any_eq_false] at absent
        exact absurd carries (matched.forall_left absent
          (fun tensor tensor' matched => mt (Matched.carries_batched matched)) tensor given)
  · refine Or.inr ⟨?_, mt (pairing.dense_iff matched alike).mp wrapped⟩
    refine matched.forall_right bare fun tensor tensor' matched bare => ?_
    rwa [(matched.unwrapDead alike).taggedLevel?_eq]

/-- Calls with stray wrappers end without a value in both runs, for reasons that follow each other.
-/
theorem tallies_stray {owners : List Layer}
    (posed
      : pairing.Posed exempt (budget + 2) op op owners machine twin outer outer' arguments
          arguments')
    (inactive : machine.thread.layers = [])
    (wrapped
      : ¬∀ tensor ∈ Value.tensorsAll arguments, (tensor.unwrapDead machine.heap).isDense = true)
    : ((nested (budget + 2)).dispatch op).Tallies pairing exempt op outer outer' machine twin := by
  have alike := posed.twins.alike
  have exempted : exempt := (posed.based inactive).resolve_right wrapped
  rcases Machine.atBase_of_owners posed.calling.owning inactive with ⟨atBase, -⟩
  rcases Machine.atBase_of_owners posed.calling'.owning (posed.twins.layers.trans inactive)
    with ⟨atBase', -⟩
  have wrapped' := mt (pairing.dense_iff posed.matched alike).mp wrapped
  refine .of_errors (leaves_stray atBase posed.values posed.size wrapped budget)
    (leaves_stray atBase' posed.values' posed.size' wrapped' budget) ?_
  intro exit _ exit' _ strays strays'
  rcases strays with ⟨stray, unruled, rfl⟩ | ⟨-, fault, rfl⟩
  · rcases strays' with ⟨-, -, rfl⟩ | ⟨none, -⟩
    · exact .alike (.same _)
    · exact absurd ⟨pairing.strayBatch posed.matched alike stray, unruled⟩ none
  · rcases strays' with ⟨-, unruled, rfl⟩ | ⟨-, fault', rfl⟩
    · exact .missing exempted unruled fault
    · exact .alike (.faults fault fault')

/-- Below all layers calls on related arguments go alike, but that a dead tag may hide a batch. -/
theorem tallies_outside {owners : List Layer}
    (posed
      : pairing.Posed exempt (budget + 2) op op owners machine twin outer outer' arguments
          arguments')
    (inactive : machine.thread.layers = [])
    : ((nested (budget + 2)).dispatch op).Tallies pairing exempt op outer outer' machine twin := by
  by_cases dense
    : ∀ tensor ∈ Value.tensorsAll arguments, (tensor.unwrapDead machine.heap).isDense = true
  · exact tallies_based posed inactive dense
  · exact tallies_stray posed inactive dense

end

end LayeredDispatch
