import LayeredDispatch.Proofs.Results.Handing
import LayeredDispatch.Proofs.Twins.DeadTags

/-! In-place addition in one run beside addition in another one, on related arguments. On the way down
both runs go through the same kernels; on the way up the first one hands its target back, and the
other one wraps a new tensor. Main statements: if the target of the calls that the kernels around
layers hand on comes to hold what the other calls give, so does the target of the kernels.
-/

namespace LayeredDispatch

open Run Dispatcher

/-- The target of an in-place addition holds the members of the sum that another call gives. -/
def Tensor.Sums (target : Tensor) (outer outer' values : List Value) (memory : Memory)
    (values' : List Value) (memory' : Memory)
    : Prop :=
  ∃ result sum,
    values = outer ++ [.tensor result]
    ∧ values' = outer' ++ [.tensor sum]
    ∧ ∀ index, target.member memory.heap index = sum.member memory'.heap index

/-- If the first computation gives a value, so does the other one, and the target of the first one
holds the sum that the other one gives.
-/
def Run.Accrues (body other : Run Unit) (target : Tensor) (outer outer' : List Value)
    (machine twin : Machine)
    : Prop :=
  Beside False body other machine twin
    (fun _ values memory _ values' memory' =>
      target.Sums outer outer' values memory values' memory')
    (fun _ _ => True)

/-- States of two runs in which the first one is to add in place and the other one to add. The target
has as many dimensions as what is added.
-/
structure Pairing.Summing (pairing : Pairing) (budget : Nat) (owners : List Layer)
    (machine twin : Machine) (outer outer' : List Value) (target addend : Tensor)
    (arguments' : List Value)
    : Prop where
  posed
    : pairing.Posed True budget Base.schemas[8] Base.schemas[0] owners machine twin outer outer'
        [.tensor target, .tensor addend] arguments'
  registered : machine.Registered
  ofTarget : target.Fits machine.heap owners
  ofAddend : addend.Fits machine.heap owners
  short : (addend.shape machine.heap).rank ≤ (target.shape machine.heap).rank

/-- All in-place additions leave in their targets what additions give, if they nest at most `budget`
deep.
-/
def Pairing.Accrue (pairing : Pairing) (budget : Nat) : Prop :=
  ∀ {owners : List Layer} {machine twin : Machine} {outer outer' arguments' : List Value}
    {target addend : Tensor},
    pairing.Summing budget owners machine twin outer outer' target addend arguments'
    → ((nested budget).dispatch Base.schemas[8]).Accrues ((nested budget).dispatch Base.schemas[0])
        target outer outer' machine twin

section

variable {pairing : Pairing} {machine twin held held' : Machine} {layer : Layer}
  {below owners : List Layer} {outer outer' values values' arguments arguments' given : List Value}
  {target addend result sum : Tensor} {budget : Nat} {level : Level} {op : Schema}
  {memory memory' later later' : Memory} {heap other : Heap}

-----------------------------------------------------------------------------------------
-- Targets and sums
-----------------------------------------------------------------------------------------

/-- Elements are in storages, so that tensors have the same members in heaps with the same storages.
-/
theorem Tensor.member_congr (same : other.storages = heap.storages) (index : Level → Nat)
    (tensor : Tensor)
    : tensor.member other index = tensor.member heap index := by
  induction tensor with
  | dense cell => rw [member, member, Heap.storage, Heap.storage, same]
  | tagged cell level flag value ih => exact ih
  | batched handle level value ih => rw [member, member, ih]

/-- Tags are of no account to members, so that a target may lose or get some. -/
theorem Tensor.Sums.of_bare {inner : Tensor}
    (h : inner.Sums outer outer' values memory values' memory') (same : inner.bare = target.bare)
    : target.Sums outer outer' values memory values' memory' := by
  rcases h with ⟨result, sum, left, left', holds⟩
  refine ⟨result, sum, left, left', fun index => ?_⟩
  rw [← holds index, ← Tensor.member_bare, ← same, Tensor.member_bare]

theorem Run.Accrues.of_bare {body other : Run Unit} {inner : Tensor}
    (h : body.Accrues other inner outer outer' machine twin) (same : inner.bare = target.bare)
    : body.Accrues other target outer outer' machine twin :=
  Beside.mono h (fun _ _ _ _ _ _ sums => sums.of_bare same) fun _ _ => id

-----------------------------------------------------------------------------------------
-- States of the two runs
-----------------------------------------------------------------------------------------

/-- A call has at least as many steps before it as it takes without dead tags. -/
theorem Ambient.steps_le_reach (ambient : Ambient) : ambient.steps ≤ ambient.reach := by
  cases layers : ambient.layers with
  | nil => simp [steps, reach, layers]
  | cons layer below =>
      simp only [steps, reach, layers]
      split
      · omega
      · split <;> split <;> omega

theorem Pairing.Summing.fits
    (summing
      : pairing.Summing budget owners machine twin outer outer' target addend arguments')
    : ∀ tensor ∈ Value.tensorsAll [.tensor target, .tensor addend],
        tensor.Fits machine.heap owners :=
  List.forall_mem_cons.mpr ⟨summing.ofTarget, List.forall_mem_singleton.mpr summing.ofAddend⟩

/-- Two tensors in the places of others. -/
theorem Value.RelatedAll.pair {relation : Tensor → Tensor → Prop}
    (h : RelatedAll relation [.tensor target, .tensor addend] given)
    : ∃ first second,
        given = [.tensor first, .tensor second] ∧ relation target first ∧ relation addend second := by
  cases h with
  | cons head tail =>
      cases tail with
      | cons next rest =>
          cases rest
          obtain ⟨first, rfl, ofFirst⟩ := head.of_tensor
          obtain ⟨second, rfl, ofSecond⟩ := next.of_tensor
          exact ⟨first, second, rfl, ofFirst, ofSecond⟩

/-- Below a kernel the two runs are on their way on with what takes the places of the arguments,
which fits the layers there and has the same shapes.
-/
theorem Pairing.Summing.of_replaces {layers : List Layer} {first second : Tensor}
    (posed
      : pairing.Posed True budget Base.schemas[8] Base.schemas[0] layers held held' outer outer'
          [.tensor first, .tensor second] arguments')
    (registered : held.Registered) (ofFirst : Tensor.Replaces layers heap target held.heap first)
    (ofSecond : Tensor.Replaces layers heap addend held.heap second)
    (short : (addend.shape heap).rank ≤ (target.shape heap).rank)
    : pairing.Summing budget layers held held' outer outer' first second arguments' where
  posed := posed
  registered := registered
  ofTarget := ofFirst.fits
  ofAddend := ofSecond.fits
  short := by rwa [ofFirst.shape, ofSecond.shape]

/-- The same arguments are handed on. -/
theorem Pairing.Summing.handed {layers : List Layer}
    (posed
      : pairing.Posed True budget Base.schemas[8] Base.schemas[0] layers held held' outer outer'
          [.tensor target, .tensor addend] arguments')
    (registered : held.Registered) (same : held.heap = heap)
    (fits
      : ∀ tensor ∈ Value.tensorsAll [.tensor target, .tensor addend], tensor.Fits heap layers)
    (short : (addend.shape heap).rank ≤ (target.shape heap).rank)
    : pairing.Summing budget layers held held' outer outer' target addend arguments' := by
  subst same
  obtain ⟨ofTarget, ofAddend⟩ := List.forall_mem_cons.mp fits
  exact .of_replaces posed registered ofTarget.replaces
    (List.forall_mem_singleton.mp ofAddend).replaces short

-----------------------------------------------------------------------------------------
-- In front of a layer
-----------------------------------------------------------------------------------------

/-- In front of a layer both runs receive their arguments, and the target of the inner addition
differs in tags only.
-/
theorem accrues_enter (accrue : pairing.Accrue budget)
    (summing
      : pairing.Summing (budget + 1) (layer :: below) machine twin outer outer' target addend
          arguments')
    (above : machine.Above layer below) (front : machine.thread.overlay.forces .entryInterceptor)
    : (entryInterceptor.run (nested budget) Base.schemas[8]).Accrues
        (entryInterceptor.run (nested budget) Base.schemas[0]) target outer outer' machine twin := by
  let arguments : List Value := [.tensor target, .tensor addend]
  have receives (start : Machine) (resumes : machine.Resumes start)
      (values : start.values = machine.values) (heap : start.heap = machine.heap)
      : (Run.mapLast Base.schemas[8].arity (receive layer)).Leaves start
          (fun _ values memory =>
            ∃ given,
              values = outer ++ given
              ∧ Value.RelatedAll
                  (fun tensor result =>
                    Tensor.Replaces (layer :: below) machine.heap tensor memory.heap result)
                  arguments given)
          (fun _ _ => True) := by
    have layers : start.thread.layers = layer :: below := resumes.layers.trans above.top
    have fits := summing.fits
    rw [← heap] at fits ⊢
    refine (leaves_received (summing.registered.resumes resumes) (layers ▸ List.mem_cons_self)
      above.grounded.levelled (values.trans summing.posed.values) fits).mono ?_ fun _ _ => id
    intro _ _ _ left
    rcases left with ⟨given, values, -, related⟩
    exact ⟨given, values, related.mono fun _ _ => And.left⟩
  refine beside_entry summing.posed above front (Or.inr ⟨not_false, rfl⟩) (fun _ _ _ => trivial)
    receives ?_
  intro held held' given given' received resumes atHeld posed knows
  rcases knows with ⟨inner, values, related⟩
  obtain rfl : given = inner := List.append_cancel_left (posed.values.symm.trans values)
  obtain ⟨first, second, rfl, ofFirst, ofSecond⟩ := related.pair
  have registered : held.Registered :=
    (summing.registered.resumes resumes).shifted atHeld fun _ => id
  exact Run.Accrues.of_bare
    (accrue (.of_replaces posed registered ofFirst ofSecond summing.short)) ofFirst.bare

-----------------------------------------------------------------------------------------
-- In the body of a differentiation layer
-----------------------------------------------------------------------------------------

theorem Heap.storages_recordGradFn (heap : Heap) (name : String) (tensor : Tensor)
    : (heap.recordGradFn name tensor).storages = heap.storages
      ∧ (heap.recordGradFn name tensor).flags = heap.flags := by
  cases tensor <;> exact ⟨rfl, rfl⟩

/-- Recording what produced a result changes no storage. -/
theorem recordGradFns_apply (recording : Bool) (single : op.resultCount = 1)
    (values : machine.values = outer ++ [.tensor result])
    : ∃ final,
        (do
          if recording then
            forTensors (← peek op.resultCount) fun tensor => do
              if tensor.taggedLevel? = some level then
                onHeap fun heap => heap.recordGradFn op.name tensor : Run Unit) machine
          = .ok () final
        ∧ machine.Returns final
        ∧ final.values = machine.values
        ∧ final.heap.storages = machine.heap.storages := by
  cases recording with
  | false => exact ⟨machine, rfl, .refl machine, rfl, rfl⟩
  | true =>
      have results : peek op.resultCount machine = .ok [.tensor result] machine := by
        rw [single]
        exact peek_append values
      rw [if_pos rfl, bind_apply, results]
      dsimp only
      rw [forTensors_tensor]
      split
      · obtain ⟨storages, flags⟩ := machine.heap.storages_recordGradFn op.name result
        exact ⟨_, onHeap_apply _ _, .of_eq rfl rfl rfl rfl flags, rfl, storages⟩
      · exact ⟨machine, rfl, .refl machine, rfl, rfl⟩

/-- The bodies of a differentiation layer hand both calls on and record them, which changes no
members.
-/
theorem accrues_differentiate (accrue : pairing.Accrue budget)
    (summing
      : pairing.Summing (budget + 1) (layer :: below) machine twin outer outer' target addend
          arguments')
    (within : machine.InBody layer below) (kind : layer.kind = .differentiation)
    (shown : machine.thread.overlay.excluded.contains .differentiation = false)
    : (differentiationBody.run (nested budget) Base.schemas[8]).Accrues
        (differentiationBody.run (nested budget) Base.schemas[0]) target outer outer' machine
        twin := by
  have within' := within.other summing.posed.calling' summing.posed.twins
  refine .step (currentLayer_apply within.top) (currentLayer_apply within'.top) ?_
  refine .step (read_apply _ machine) (read_apply _ twin) ?_
  have called
      : (Run.holding (Guard.hide TransformKind.differentiation.owned)
          ((nested budget).dispatch Base.schemas[8])).Accrues
          (Run.holding (Guard.hide TransformKind.differentiation.owned)
            ((nested budget).dispatch Base.schemas[0])) target outer outer' machine twin := by
    refine beside_hidden summing.posed within kind shown fun held held' posed atHeld => ?_
    exact accrue (.handed posed (summing.registered.shifted atHeld fun _ => id) atHeld.heap
      summing.fits summing.short)
  refine Beside.bind called ?_
  intro _ reached _ reached' _ _ _ _ left
  rcases left with ⟨result, sum, values, values', holds⟩
  obtain ⟨final, ended, returns, same, storages⟩ :=
    @recordGradFns_apply reached outer result layer.level Base.schemas[8] machine.thread.grad rfl
      values
  obtain ⟨final', ended', returns', same', storages'⟩ :=
    @recordGradFns_apply reached' outer' sum layer.level Base.schemas[0] twin.thread.grad rfl
      values'
  refine .of_values ended ended' returns returns' ?_
  refine ⟨result, sum, same.trans values, same'.trans values', fun index => ?_⟩
  exact (Tensor.member_congr storages index target).trans
    ((holds index).trans (Tensor.member_congr storages' index sum).symm)

-----------------------------------------------------------------------------------------
-- On the way out of a layer
-----------------------------------------------------------------------------------------

/-- Where the level is registered, results are tagged, which changes no storage. -/
theorem tagResults_found {flag : Nat}
    (values : machine.values = outer ++ arguments ++ [.tensor result])
    (size : arguments.length = op.arity) (single : op.resultCount = 1)
    (found : machine.registry.find? level = some flag)
    : ∃ final tagged,
        tagResults op level machine = .ok () final
        ∧ machine.Returns final
        ∧ final.values = outer ++ [.tensor tagged]
        ∧ (∀ index, tagged.member final.heap index = result.member machine.heap index)
        ∧ final.heap.storages = machine.heap.storages := by
  have tagging
      : tagAt result level machine
        = .ok (machine.heap.newTagged result level flag).1
            { machine with heap := (machine.heap.newTagged result level flag).2 } := by
    simp only [tagAt, levelFlag, bind_apply, read_apply, found, pure_apply, allocate_apply]
  let tagged := machine.heap.newTagged result level flag
  let renewed := (Value.tensorsAll arguments).foldl Heap.refresh tagged.2
  obtain ⟨storages, flags⟩
      : renewed.storages = machine.heap.storages ∧ renewed.flags = machine.heap.flags :=
    tagged.2.storages_refreshAll (Value.tensorsAll arguments)
  refine ⟨{ machine with values := outer ++ [.tensor tagged.1], heap := renewed }, tagged.1, ?_, ?_,
    rfl, fun index => ?_, storages⟩
  · rw [tagResults_apply values size single, bind_apply, tagging]
    exact renew_apply rfl
  · exact .of_eq rfl rfl rfl rfl flags
  · exact Tensor.member_congr storages index result

/-- The first run tags its target again, the other one the sum. -/
theorem accrues_tagResults (values : machine.values = outer ++ arguments ++ [.tensor result])
    (values' : twin.values = outer' ++ arguments' ++ [.tensor sum])
    (size : arguments.length = Base.schemas[8].arity)
    (size' : arguments'.length = Base.schemas[0].arity) (registered : machine.Registered)
    (active : layer ∈ machine.thread.layers) (registry : twin.registry = machine.registry)
    (holds : ∀ index, target.member machine.heap index = sum.member twin.heap index)
    : (tagResults Base.schemas[8] layer.level).Accrues (tagResults Base.schemas[0] layer.level)
        target outer outer' machine twin := by
  obtain ⟨flag, found, -⟩ := registered layer active
  obtain ⟨final, tagged, ended, returns, left, -, storages⟩ :=
    tagResults_found values size rfl found
  obtain ⟨final', tagged', ended', returns', left', member, -⟩ :=
    tagResults_found values' size' rfl (registry ▸ found)
  refine .of_values ended ended' returns returns' ⟨tagged, tagged', left, left', fun index => ?_⟩
  exact (Tensor.member_congr storages index target).trans
    ((holds index).trans (member index).symm)

/-- On the way out of a differentiation layer the target goes on without its tag, which holds the
same members.
-/
theorem accrues_leaveDifferentiation (accrue : pairing.Accrue budget)
    (summing
      : pairing.Summing (budget + 1) (layer :: below) machine twin outer outer' target addend
          arguments')
    (within : machine.InBody layer below) (kind : layer.kind = .differentiation)
    : (exitInterceptor.run (nested budget) Base.schemas[8]).Accrues
        (exitInterceptor.run (nested budget) Base.schemas[0]) target outer outer' machine twin := by
  have posed := summing.posed
  have within' := within.other posed.calling' posed.twins
  have faces := posed.faced within.inBody.entry within.top.symm
  refine .step (currentLayer_apply within.top) (currentLayer_apply within'.top) ?_
  simp only [kind]
  have untagged :=
    @leaves_untagged machine Base.schemas[8] below layer [.tensor target, .tensor addend] outer
      (fun _ _ => True) kind within.grounded.levelled posed.values posed.size summing.fits
  refine Beside.bind
    ((beside_copyUntagged posed.values posed.values' posed.size posed.size' faces posed.twins
      (fun _ _ _ => trivial) layer.level).and_left untagged) ?_
  intro _ copied _ copied' _ _ returns returns' left
  rcases left with ⟨⟨inner, inner', values, values', ⟨count, count'⟩, agrees, matched⟩, given, same,
    -, related⟩
  obtain rfl : inner = given := List.append_cancel_left (values.symm.trans same)
  obtain ⟨first, second, rfl, ⟨ofFirst, -⟩, ofSecond, -⟩ := related.pair
  have twins := posed.twins.returns returns returns' agrees
  have above : copied.Above layer below := ⟨returns.layers.trans within.top, within.grounded⟩
  have registered := summing.registered.resumes returns.toResumes
  have called
      : (dispatchBelow (nested budget) Base.schemas[8] layer).Accrues
          (dispatchBelow (nested budget) Base.schemas[0] layer) target
          (outer ++ [.tensor target, .tensor addend]) (outer' ++ arguments') copied copied' := by
    refine beside_onward posed.calling.member posed.calling'.member above twins values values'
      (count.trans posed.size) (count'.trans posed.size') matched ?_ (fun _ => trivial)
      (fun _ _ _ => trivial) fun held held' posed atHeld => ?_
    · rw [Ambient.reach_resumes returns.toResumes]
      exact posed.steps
    · have registered : held.Registered := by
        refine registered.shifted atHeld ?_
        rw [above.top]
        exact fun _ => List.mem_cons_of_mem layer
      rw [← show held.heap = copied.memory.heap from atHeld.heap] at ofFirst ofSecond
      exact Run.Accrues.of_bare
        (accrue (.of_replaces posed registered ofFirst ofSecond summing.short)) ofFirst.bare
  refine Beside.bind called ?_
  intro _ reached _ reached' _ _ later later' left
  rcases left with ⟨result, sum, values, values', holds⟩
  refine accrues_tagResults values values' posed.size posed.size'
    (registered.resumes later.toResumes) ?_ ?_ holds
  · rw [later.layers, above.top]
    exact List.mem_cons_self
  · rw [later'.registry, twins.registry, later.registry]

/-- On the way out of a batching layer both calls go on as they are. -/
theorem accrues_leaveBatching (accrue : pairing.Accrue budget)
    (summing
      : pairing.Summing (budget + 1) owners machine twin outer outer' target addend arguments')
    (within : machine.InBody layer below) (kind : layer.kind = .batching)
    (unbatched
      : owners = below
        ∨ (owners = layer :: below
          ∧ (Value.carried machine.heap (machine.lastValues Base.schemas[8].arity)).contains .batched
            = false))
    : (exitInterceptor.run (nested budget) Base.schemas[8]).Accrues
        (exitInterceptor.run (nested budget) Base.schemas[0]) target outer outer' machine twin := by
  have posed := summing.posed
  have above' := within.toAbove.other posed.twins
  have fits
      : ∀ tensor ∈ Value.tensorsAll [.tensor target, .tensor addend],
          tensor.Fits machine.heap below := by
    rcases unbatched with rfl | ⟨rfl, absent⟩
    · exact summing.fits
    · rw [Machine.lastValues_append posed.values posed.size] at absent
      intro tensor member
      apply (summing.fits tensor member).of_shared kind
      exact Tensor.physicalAt?_of_carried _ (Value.unbatched_of_carried absent tensor member)
  refine .step (currentLayer_apply within.top) (currentLayer_apply above'.top) ?_
  simp only [kind]
  refine beside_onward posed.calling.member posed.calling'.member within.toAbove posed.twins
    posed.values posed.values' posed.size posed.size' posed.matched posed.steps (fun _ => trivial)
    (fun _ _ _ => trivial) fun held held' posed atHeld => ?_
  have registered : held.Registered := by
    refine summing.registered.shifted atHeld ?_
    rw [within.top]
    exact fun _ => List.mem_cons_of_mem layer
  exact accrue (.handed posed registered atHeld.heap fits summing.short)

end

end LayeredDispatch
