import LayeredDispatch.Proofs.Framing.Parts

/-! Every kernel of the standard dispatcher replaces the arguments of a call, the last boxed values, by
one result and is indifferent to the values below. Main statement: a call does the same on top of any
further values, and the same again if calls may nest deeper, as long as it is not cut short.
-/

namespace LayeredDispatch

open Run Dispatcher

/-- Both computations handle a call of an operator in the same way, the second one on top of any further
values: the arguments are taken off and one tensor is put in their place.
-/
def Run.Conforms (op : Schema) (body other : Run Unit) : Prop :=
  ∀ (outer inner arguments : List Value) (machine : Machine),
    machine.values = inner ++ arguments
    → arguments.length = op.arity
    → body.Echoes outer other machine fun _ values => ∃ result, values = inner ++ [.tensor result]

/-- Two sources of calls of the base operators, the second of which does what the first one does, on
top of any further values.
-/
structure Calls.Conform (calls other : Calls) : Prop where
  dispatch : ∀ op ∈ Base.schemas, (calls.dispatch op).Conforms op (other.dispatch op)
  schemas : other.schema? = calls.schema?
  known : ∀ name op, calls.schema? name = some op → op ∈ Base.schemas

section

variable {machine : Machine} {outer inner arguments items : List Value} {op : Schema}
  {calls other : Calls} {first second : Run Unit}

-----------------------------------------------------------------------------------------
-- Calls on values of their own
-----------------------------------------------------------------------------------------

/-- A call by name is echoed, with one result and the values around it as they were.
Both sources know the same operators, so both refuse, or dispatch the same operator on its
arguments.
-/
theorem Calls.Conform.call (conform : calls.Conform other) (name : String) (arguments : List Value)
    : (calls.call name arguments).Echoes outer (other.call name arguments) machine
        fun results values => (∃ result, results = [.tensor result]) ∧ values = machine.values := by
  have required : other.require name = calls.require name := by
    rw [Calls.require, Calls.require, conform.schemas]
  unfold Calls.call
  rw [required]
  cases found : calls.schema? name with
  | none =>
      rw [Calls.require, found]
      exact Or.inr rfl
  | some op =>
      rw [Calls.require, found]
      refine .step (lift_ok_apply op machine) (lift_ok_apply op _) ?_
      refine .ite (fun size => ?_) fun _ => echoes_fail _ _
      have inner
          : (calls.dispatch op).Echoes [] (other.dispatch op) { machine with values := arguments }
              fun _ values => ∃ result, values = [.tensor result] :=
        conform.dispatch op (conform.known name op found) [] [] arguments _ rfl size
      have called
          : (Run.onValues arguments (calls.dispatch op)).Echoes outer
              (Run.onValues arguments (other.dispatch op)) machine
              fun made values => (∃ result, made.2 = [.tensor result]) ∧ values = machine.values :=
        .onValues (inner.mono fun _ _ single => ⟨single, rfl⟩)
      exact called.bind fun made back left => echoes_pure left

/-- The result of a call by name is the one that it leaves. -/
theorem Calls.Conform.callTensor (conform : calls.Conform other) (name : String)
    (arguments : List Value)
    : (calls.callTensor name arguments).Echoes outer (other.callTensor name arguments) machine
        fun _ values => values = machine.values := by
  refine (conform.call name arguments).bind fun results reached left => ?_
  obtain ⟨⟨result, rfl⟩, same⟩ := left
  exact echoes_pure same

/-- Padding is echoed: by induction on the insertions that are left, each of which is such a call.
-/
theorem Calls.Conform.pad (conform : calls.Conform other) (rank budget : Nat) (physical : Tensor)
    : (Batching.pad calls rank budget physical).Echoes outer (Batching.pad other rank budget physical)
        machine fun _ values => values = machine.values := by
  induction budget generalizing physical machine with
  | zero =>
      unfold Batching.pad
      refine (aloof_read fun _ _ => rfl).echoes_bind fun shape reached same => ?_
      refine .ite (fun _ => ?_) fun _ => ?_
      · exact echoes_fault _ _
      · exact echoes_pure same
  | succ budget ih =>
      unfold Batching.pad
      refine (aloof_read fun _ _ => rfl).echoes_bind fun shape reached same => ?_
      refine .ite (fun _ => ?_) fun _ => ?_
      · refine (conform.callTensor "unsqueeze" _).bind fun padded later left => ?_
        exact (ih padded).mono fun _ _ kept => kept.trans (left.trans same)
      · exact echoes_pure same

-----------------------------------------------------------------------------------------
-- The kernels around layers
-----------------------------------------------------------------------------------------

namespace Run

/-- A guard that is held under a condition: in both runs it is held, or in none. -/
theorem Echoes.holdingIf {condition : Bool} {acquire : Run Guard} {body body' : Run α}
    {left : α → List Value → Prop} (acquires : Aloof acquire)
    (inner : ∀ held, held.values = machine.values → body.Echoes outer body' held left)
    : (Run.holdingIf condition acquire body).Echoes outer (Run.holdingIf condition acquire body')
        machine left :=
  .ite (fun _ => .holding acquires aloof_layering.release inner) fun _ => inner machine rfl

/-- Handing a call down conforms if the call does.
The guards are acquired on both sides; none of them sees the arguments, which are then checked and
passed
on where they are.
-/
theorem conforms_dispatchBelow (dispatches : (calls.dispatch op).Conforms op (other.dispatch op))
    (layer : Layer)
    : (dispatchBelow calls op layer).Conforms op (dispatchBelow other op layer) := by
  intro outer inner arguments machine values size
  refine .holding aloof_layering.hideTop aloof_layering.release fun popped popping => ?_
  refine Echoes.holdingIf (aloof_layering.gradMode false) fun gradSet setting => ?_
  refine Echoes.holdingIf (aloof_layering.forwardGradMode false) fun start starting => ?_
  have atStart := (starting.trans (setting.trans popping)).trans values
  refine (echoes_overlayBelow atStart size layer).bind fun overlay checked passed => ?_
  refine .holding (aloof_layering.replaceOverlay overlay) aloof_layering.release
    fun held holding => ?_
  refine (dispatches outer inner arguments held (holding.trans passed) size).bind ?_
  intro _ returned left
  refine (aloof_read fun _ _ => rfl).echoes_bind fun count counted same =>
    .ite (fun _ => ?_) fun _ => ?_
  · exact (aloof_making.logDispatch _).echoes.mono fun _ _ kept => kept.trans same ▸ left
  · exact echoes_pure (same ▸ left)

/-- The entry interceptor conforms: it refuses or prepares the last values in place, and dispatches
on them.
-/
theorem conforms_entryInterceptor (dispatches : (calls.dispatch op).Conforms op (other.dispatch op))
    : (entryInterceptor.run calls op).Conforms op (entryInterceptor.run other op) := by
  intro outer inner arguments machine values size
  refine (aloof_read fun _ _ => rfl).echoes_bind fun top? looked atLooked => ?_
  cases top? with
  | none => exact echoes_fault _ _
  | some layer =>
      refine Aloof.echoes_bind aloof_making.renderLayers fun shown rendered atRendered => ?_
      refine (aloof_making.logDispatch _).echoes_bind fun _ logged atLogged => ?_
      have atLogged := (atLogged.trans (atRendered.trans atLooked)).trans values
      refine (echoes_refuseCapturedMutation atLogged size layer).bind fun _ passed atPassed => ?_
      refine (echoes_mapLast (aloof_making.receive layer) atPassed size).bind fun _ tagged left => ?_
      obtain ⟨received, atTagged, count⟩ := left
      refine (aloof_read fun _ _ => rfl).echoes_bind fun overlay start atStart => ?_
      refine .holding (aloof_layering.replaceOverlay _) aloof_layering.release fun held atHeld => ?_
      exact dispatches outer inner received held (atHeld.trans (atStart.trans atTagged)) count

/-- The exit interceptor conforms. Under differentiation the copies that it makes become the
arguments of the
call below, and the arguments become further values below these, until the results take their place.
-/
theorem conforms_exitInterceptor (member : op ∈ Base.schemas)
    (dispatches : (calls.dispatch op).Conforms op (other.dispatch op))
    : (exitInterceptor.run calls op).Conforms op (exitInterceptor.run other op) := by
  intro outer inner arguments machine values size
  refine aloof_making.currentLayer.echoes_bind fun layer start atStart => ?_
  have atStart := atStart.trans values
  cases layer.kind with
  | batching => exact conforms_dispatchBelow dispatches layer outer inner arguments start atStart size
  | differentiation =>
      refine (echoes_copyUntagged atStart size layer.level).bind fun _ copied left => ?_
      obtain ⟨given, atCopied, count⟩ := left
      refine (conforms_dispatchBelow dispatches layer outer _ given copied atCopied count).bind ?_
      rintro _ returned ⟨result, atReturned⟩
      exact echoes_tagResults atReturned size (Schema.resultCount_eq_one member) layer.level

/-- The body of a differentiation layer conforms: recording afterwards looks at the result, which is
last.
-/
theorem conforms_differentiationBody (member : op ∈ Base.schemas)
    (dispatches : (calls.dispatch op).Conforms op (other.dispatch op))
    : (differentiationBody.run calls op).Conforms op (differentiationBody.run other op) := by
  intro outer inner arguments machine values size
  refine aloof_making.currentLayer.echoes_bind fun layer seen atSeen => ?_
  refine (aloof_read fun _ _ => rfl).echoes_bind fun recording start atStart => ?_
  have atStart := (atStart.trans atSeen).trans values
  have inside
      : Run.Echoes outer (holding (Guard.hide TransformKind.differentiation.owned) (calls.dispatch op))
          (holding (Guard.hide TransformKind.differentiation.owned) (other.dispatch op)) start
          fun _ values => ∃ result, values = inner ++ [.tensor result] :=
    .holding (aloof_layering.hide _) aloof_layering.release fun held atHeld =>
      dispatches outer inner arguments held (atHeld.trans atStart) size
  refine inside.bind fun _ returned left => .ite (fun _ => ?_) fun _ => echoes_pure left
  obtain ⟨result, atReturned⟩ := left
  have single : [Value.tensor result].length = op.resultCount :=
    (Schema.resultCount_eq_one member).symm
  refine (echoes_peek atReturned single).bind fun results peeked left => ?_
  refine Echoes.mono (Aloof.echoes (aloof_making.forTensors (fun tensor => ?_) results)) ?_
  · exact aloof_making.ite (aloof_onHeap _) (aloof_pure _)
  · exact fun _ _ same => ⟨result, same.trans left.2⟩

/-- Taking dead tags off the arguments changes neither their number nor their place. -/
theorem conforms_deadWrapperFallback
    (dispatches : (calls.dispatch op).Conforms op (other.dispatch op))
    : (deadWrapperFallback.run calls op).Conforms op (deadWrapperFallback.run other op) := by
  intro outer inner arguments machine values size
  refine (echoes_mapLast (fun tensor => ?_) values size).bind fun _ stripped left => ?_
  · exact aloof_making.unwrapOutside _ tensor
  · obtain ⟨bare, atStripped, count⟩ := left
    exact dispatches outer inner bare stripped atStripped count

-----------------------------------------------------------------------------------------
-- Rules of batching layers
-----------------------------------------------------------------------------------------

/-- Marking the result of a call as batched puts one result in its place. -/
theorem Conforms.wrapping (dispatches : first.Conforms op second) (level : Level)
    : (first >>= fun _ => Batching.wrapResults 1 level).Conforms op
        (second >>= fun _ => Batching.wrapResults 1 level) := by
  intro outer inner arguments machine values size
  refine (dispatches outer inner arguments machine values size).bind fun _ returned left => ?_
  obtain ⟨result, atReturned⟩ := left
  exact echoes_wrapResults atReturned level

/-- Values that are put on top become the arguments of a call. -/
theorem Conforms.pushing (dispatches : first.Conforms op second) (size : items.length = op.arity)
    (values : machine.values = inner)
    : Run.Echoes outer (do pushAll items; first) (do pushAll items; second) machine
        fun _ values => ∃ result, values = inner ++ [.tensor result] := by
  refine (echoes_pushAll items).bind fun _ pushed atPushed => ?_
  exact dispatches outer inner items pushed (values ▸ atPushed) size

/-- An argument that is batched is padded, and any other one goes through as it is. -/
theorem echoes_align (conform : calls.Conform other) (level : Level) (rank : Nat) (argument : Value)
    : Run.Echoes outer
        (match Batching.physicalArgument? level argument with
          | none => return argument
          | some physical => return .tensor (← Batching.padToRank calls physical rank))
        (match Batching.physicalArgument? level argument with
          | none => return argument
          | some physical => return .tensor (← Batching.padToRank other physical rank))
        machine fun _ values => values = machine.values := by
  cases Batching.physicalArgument? level argument with
  | none => exact echoes_pure rfl
  | some physical =>
      refine (conform.pad rank _ physical).bind fun padded later kept => ?_
      exact echoes_pure kept

/-- The rule for element-wise operators takes the arguments off, pads them, and puts as many back
for the call.
-/
theorem conforms_pointwise (conform : calls.Conform other) (member : op ∈ Base.schemas)
    : (Batching.pointwise.run calls op).Conforms op (Batching.pointwise.run other op) := by
  intro outer inner arguments machine values size
  have dispatches := conform.dispatch op member
  refine aloof_making.currentLayer.echoes_bind fun layer start atStart => ?_
  refine (echoes_pop (atStart.trans values) size).bind fun taken popped left => ?_
  obtain ⟨rfl, atPopped⟩ := left
  refine (aloof_read fun _ _ => rfl).echoes_bind fun rank ranked atRanked => ?_
  have atRanked := atRanked.trans atPopped
  refine .holding (aloof_layering.hide _) aloof_layering.release fun held atHeld => ?_
  refine (Echoes.mapM fun argument _ _ => echoes_align conform layer.level rank argument).bind ?_
  intro padded aligned left
  have atAligned := left.1.trans (atHeld.trans atRanked)
  refine (echoes_pushAll padded).bind fun _ pushed atPushed => ?_
  rw [atAligned] at atPushed
  refine (dispatches outer inner padded pushed atPushed (left.2.trans size)).bind ?_
  intro _ returned done
  refine .ite (fun _ => ?_) fun _ => echoes_pure done
  obtain ⟨result, atReturned⟩ := done
  rw [Schema.resultCount_eq_one member]
  exact echoes_wrapResults atReturned layer.level

/-- The rule for inserting a dimension does so with the physical value and the shifted position. -/
theorem conforms_unsqueeze (dispatches : (calls.dispatch op).Conforms op (other.dispatch op))
    (arity : op.arity = 2)
    : (Batching.unsqueeze.run calls op).Conforms op (Batching.unsqueeze.run other op) := by
  intro outer inner arguments machine values size
  refine aloof_making.currentLayer.echoes_bind fun layer start atStart => ?_
  refine (echoes_pop (atStart.trans values) (size.trans arity)).bind fun taken popped left => ?_
  obtain ⟨rfl, atPopped⟩ := left
  refine (aloof_lift _).echoes_bind fun input looked atLooked => ?_
  refine (aloof_lift _).echoes_bind fun dim read atRead => ?_
  have atRead := (atRead.trans atLooked).trans atPopped
  refine .holding (aloof_layering.hide _) aloof_layering.release fun held atHeld => ?_
  have atHeld := atHeld.trans atRead
  cases input.physicalAt? layer.level with
  | none => exact Conforms.pushing dispatches size atHeld
  | some physical =>
      refine (aloof_read fun _ _ => rfl).echoes_bind fun shape measured atMeasured => ?_
      refine .ite (fun _ => ?_) fun _ => echoes_fail _ _
      exact Conforms.pushing (Conforms.wrapping dispatches layer.level) arity.symm
        (atMeasured.trans atHeld)

/-- The rule for in-place addition puts physical values in the place of its arguments, and the
target in the
place of the result. Whether the addend is padded makes no difference to the values below.
-/
theorem conforms_addInPlace (conform : calls.Conform other) (member : op ∈ Base.schemas)
    (arity : op.arity = 2)
    : (Batching.addInPlace.run calls op).Conforms op (Batching.addInPlace.run other op) := by
  intro outer inner arguments machine values size
  have dispatches := conform.dispatch op member
  refine aloof_making.currentLayer.echoes_bind fun layer start atStart => ?_
  refine (echoes_pop (atStart.trans values) (size.trans arity)).bind fun taken popped left => ?_
  obtain ⟨rfl, atPopped⟩ := left
  refine (aloof_lift _).echoes_bind fun target looked atLooked => ?_
  refine (aloof_lift _).echoes_bind fun addend read atRead => ?_
  have atRead := (atRead.trans atLooked).trans atPopped
  refine .holding (aloof_layering.hide _) aloof_layering.release fun held atHeld => ?_
  have atHeld := atHeld.trans atRead
  have writes (physical addend : Tensor) {ready : Machine} (atReady : ready.values = held.values)
      : Run.Echoes outer
          (do
            pushAll [.tensor physical, .tensor addend]
            calls.dispatch op
            Batching.replaceLast (.tensor target))
          (do
            pushAll [.tensor physical, .tensor addend]
            other.dispatch op
            Batching.replaceLast (.tensor target))
          ready fun _ values => ∃ result, values = inner ++ [.tensor result] := by
    refine Conforms.pushing (fun outer inner arguments machine values size => ?_) arity.symm
      (atReady.trans atHeld)
    refine (dispatches outer inner arguments machine values size).bind fun _ returned left => ?_
    obtain ⟨result, atReturned⟩ := left
    exact (echoes_replaceLast atReturned _).mono fun _ _ same => ⟨target, same⟩
  cases target.physicalAt? layer.level with
  | none =>
      cases addend.physicalAt? layer.level with
      | none => exact Conforms.pushing dispatches size atHeld
      | some batch => exact echoes_fail _ _
  | some physical =>
      refine (aloof_read fun _ _ => rfl).echoes_bind fun shape measured atMeasured => ?_
      cases addend.physicalAt? layer.level with
      | none =>
          refine (aloof_pure addend).echoes_bind fun given ready atReady => ?_
          exact writes physical given (atReady.trans atMeasured)
      | some batch =>
          refine (conform.pad _ _ batch).bind fun padded ready atReady => ?_
          exact writes physical padded (atReady.trans atMeasured)

/-- A refusal is the same on top of any values. -/
theorem conforms_missingRule
    : (Batching.missingRule.run calls op).Conforms op (Batching.missingRule.run other op) :=
  fun _ _ _ _ _ _ => (aloof_making.log _).echoes_bind fun _ _ _ => echoes_fail _ _

/-- The rule for random numbers refuses, hands on the sizes, or puts longer ones in their place. -/
theorem conforms_random (dispatches : (calls.dispatch op).Conforms op (other.dispatch op))
    (arity : op.arity = 1)
    : (Batching.random.run calls op).Conforms op (Batching.random.run other op) := by
  intro outer inner arguments machine values size
  refine aloof_making.currentLayer.echoes_bind fun layer start atStart => ?_
  refine .holding (aloof_layering.hide _) aloof_layering.release fun held atHeld => ?_
  have atHeld := atHeld.trans (atStart.trans values)
  split
  · exact echoes_fault _ _
  · exact echoes_fail _ _
  · exact dispatches outer inner arguments held atHeld size
  · refine (echoes_pop atHeld (size.trans arity)).bind fun taken popped left => ?_
    refine (aloof_lift _).echoes_bind fun sizes read atRead => ?_
    exact Conforms.pushing (Conforms.wrapping dispatches layer.level) arity.symm
      (atRead.trans left.2)

-----------------------------------------------------------------------------------------
-- Base kernels
-----------------------------------------------------------------------------------------

/-- The computation puts one tensor on top of the boxed values and is indifferent to them. -/
def Crafts (body : Run Unit) : Prop :=
  ∀ (outer : List Value) (machine : Machine),
    body.Echoes outer body machine fun _ values =>
      ∃ result, values = machine.values ++ [.tensor result]

/-- What comes after an indifferent part decides what is put on top. -/
theorem Aloof.crafts_bind {first : Run α} {next : α → Run Unit} (head : Aloof first)
    (tail : ∀ value, (next value).Crafts)
    : (first >>= next).Crafts := by
  intro outer machine
  refine head.echoes_bind fun value reached same => ?_
  rw [← same]
  exact tail value outer reached

theorem crafts_fail (error : DispatchError) : (fail error : Run Unit).Crafts :=
  fun _ _ => echoes_fail _ _

theorem crafts_pushTensor (tensor : Tensor) : (pushTensor tensor).Crafts :=
  fun _ _ => (echoes_pushTensor tensor).mono fun _ _ same => ⟨tensor, same⟩

theorem crafts_pushDense (storage : Storage) : (Base.pushDense storage).Crafts :=
  (aloof_allocate _).crafts_bind crafts_pushTensor

/-- A kernel takes the arguments off and makes one tensor of them. -/
theorem Crafts.conforms {body : List Value → Run Unit} {count : Nat} (arity : op.arity = count)
    (crafts : ∀ taken, (body taken).Crafts)
    : (pop count >>= body).Conforms op (pop count >>= body) := by
  intro outer inner arguments machine values size
  refine (echoes_pop values (size.trans arity)).bind fun taken popped left => ?_
  rw [← left.2]
  exact crafts taken outer popped

/-- Element-wise operators read two operands, combine them, and make a dense tensor. -/
theorem conforms_binary (name : String) (combine : Float → Float → Float) (operator : String)
    : ((Base.binary name combine).run calls (Base.binarySchema operator)).Conforms
        (Base.binarySchema operator)
        ((Base.binary name combine).run other (Base.binarySchema operator)) :=
  Crafts.conforms rfl fun _ =>
    (aloof_making.denseAt _ _ _).crafts_bind fun _ =>
      (aloof_making.denseAt _ _ _).crafts_bind fun _ =>
        (aloof_lift _).crafts_bind crafts_pushDense

/-- Adding up a list reads one storage after the other, and refuses an empty list. -/
theorem conforms_addAll
    : (Base.addAll.run calls Base.schemas[4]).Conforms Base.schemas[4]
        (Base.addAll.run other Base.schemas[4]) := by
  refine Crafts.conforms rfl fun _ => (aloof_lift _).crafts_bind fun tensors => ?_
  split
  · exact crafts_fail _
  · refine (aloof_making.storageOf _ _ _).crafts_bind fun start => ?_
    refine Aloof.crafts_bind (aloof_making.foldlM (fun total tensor => ?_) _ start) crafts_pushDense
    exact (aloof_making.storageOf _ _ _).bind fun next => aloof_lift _

/-- Inserting a dimension makes a tensor of the elements of its operand, or refuses the position.
-/
theorem conforms_baseUnsqueeze
    : (Base.unsqueeze.run calls Base.schemas[5]).Conforms Base.schemas[5]
        (Base.unsqueeze.run other Base.schemas[5]) := by
  refine Crafts.conforms rfl fun _ => (aloof_making.denseAt _ _ _).crafts_bind fun input => ?_
  refine (aloof_lift _).crafts_bind fun dim => ?_
  split
  · exact crafts_pushDense _
  · exact crafts_fail _

/-- In-place addition writes the storage of its target and puts the target on top. -/
theorem conforms_baseAddInPlace
    : (Base.addInPlace.run calls Base.schemas[8]).Conforms Base.schemas[8]
        (Base.addInPlace.run other Base.schemas[8]) := by
  refine Crafts.conforms rfl fun _ => (aloof_lift _).crafts_bind fun target => ?_
  refine (aloof_making.denseAt _ _ _).crafts_bind fun addend => ?_
  refine (aloof_making.storageOf _ _ _).crafts_bind fun current => ?_
  refine (aloof_lift _).crafts_bind fun updated => ?_
  split
  · exact (aloof_onHeap _).crafts_bind fun _ => crafts_pushTensor target
  · exact crafts_fail _

/-- Every base kernel conforms. Each operator of the base has one; those that are a reading and a
making are
done on the spot.
-/
theorem conforms_baseKernel {kernel : Kernel} (member : op ∈ Base.schemas)
    (found : baseKernel? op.name = some kernel)
    : (kernel.run calls op).Conforms op (kernel.run other op) := by
  simp only [Base.schemas, List.mem_cons, List.not_mem_nil, or_false] at member
  rcases member with rfl | rfl | rfl | rfl | rfl | rfl | rfl | rfl | rfl | rfl
  · cases found; exact conforms_binary _ _ _
  · cases found; exact conforms_binary _ _ _
  · cases found
    exact Crafts.conforms rfl fun _ =>
      (aloof_making.denseAt _ _ _).crafts_bind fun _ => crafts_pushDense _
  · cases found
    exact Crafts.conforms rfl fun _ =>
      (aloof_making.denseAt _ _ _).crafts_bind fun _ => crafts_pushDense _
  · cases found; exact conforms_addAll
  · cases found; exact conforms_baseUnsqueeze
  · cases found
    exact Crafts.conforms rfl fun _ => (aloof_lift _).crafts_bind fun _ =>
      (aloof_lift _).crafts_bind crafts_pushDense
  · cases found
    exact Crafts.conforms rfl fun _ => (aloof_lift _).crafts_bind fun _ =>
      (aloof_lift _).crafts_bind fun _ => (aloof_making.drawUniform _).crafts_bind fun _ =>
        crafts_pushDense _
  · cases found; exact conforms_baseAddInPlace
  · cases found
    exact Crafts.conforms rfl fun _ => (aloof_lift _).crafts_bind fun target =>
      (aloof_lift _).crafts_bind fun _ => (aloof_making.storageOf _ _ _).crafts_bind fun _ =>
        (aloof_lift _).crafts_bind fun _ => (aloof_onHeap _).crafts_bind fun _ =>
          crafts_pushTensor target

-----------------------------------------------------------------------------------------
-- Calls
-----------------------------------------------------------------------------------------

/-- Every batching rule conforms; the rules that take two arguments are those of operators with two.
-/
theorem conforms_batchRule (conform : calls.Conform other) (member : op ∈ Base.schemas)
    : ((batchRule op.name).run calls op).Conforms op ((batchRule op.name).run other op) := by
  have binary : op.name = "unsqueeze" ∨ op.name = "add_" → op.arity = 2 := by
    revert op
    decide
  unfold batchRule
  split
  · exact conforms_pointwise conform member
  · exact conforms_pointwise conform member
  · exact conforms_pointwise conform member
  · exact conforms_unsqueeze (conform.dispatch op member) (binary (.inl ‹_›))
  · exact conforms_addInPlace conform member (binary (.inr ‹_›))
  · exact conforms_missingRule

/-- Whatever kernel is chosen conforms if the calls that it issues do.
The cases are the hooks in the order in which they are consulted.
-/
theorem conforms_of_select {set : CapabilitySet} {capability : Capability} {kernel : Kernel}
    (conform : calls.Conform other) (member : op ∈ Base.schemas)
    (selected : standard.select op set = some (capability, kernel))
    : (kernel.run calls op).Conforms op (kernel.run other op) := by
  have dispatches := conform.dispatch op member
  have unary : op.name = "rand" → op.arity = 1 := by
    clear selected dispatches
    revert op
    decide
  rw [select_standard] at selected
  split at selected
  · cases selected
    exact conforms_entryInterceptor dispatches
  split at selected
  · rename_i drawn
    cases selected
    exact conforms_random dispatches (unary drawn.2)
  split at selected
  · cases selected
    exact conforms_batchRule conform member
  split at selected
  · cases selected
    exact conforms_differentiationBody member dispatches
  split at selected
  · cases selected
    exact conforms_deadWrapperFallback dispatches
  split at selected
  · cases selected
    exact conforms_exitInterceptor member dispatches
  split at selected
  · obtain ⟨base, found, chosen⟩ := Option.map_eq_some_iff.mp selected
    cases chosen
    exact conforms_baseKernel member found
  · cases selected

/-- The dispatch set depends on the arguments and on the overlay, not on the values below. -/
theorem echoes_dispatchSet (values : machine.values = inner ++ arguments)
    (size : arguments.length = op.arity)
    : (dispatchSet op).Echoes outer (dispatchSet op) machine
        fun _ values => values = inner ++ arguments := by
  refine (echoes_peek values size).bind fun taken peeked left => ?_
  exact (aloof_read fun _ _ => rfl).echoes.mono fun _ _ same => same.trans left.2

end Run

/-- A call that may nest `budget` deep goes the same way on top of further values and with more room
to
nest. By induction over how deeply calls nest.
At depth zero the first run is cut short, and nothing is asked of the second one.
-/
theorem Dispatcher.conforms_dispatchWithin {budget budget' : Nat} (room : budget ≤ budget')
    (member : op ∈ Base.schemas)
    : (standard.dispatchWithin budget op).Conforms op (standard.dispatchWithin budget' op) := by
  induction budget generalizing budget' op with
  | zero => exact fun _ _ _ _ _ _ => Or.inl .nested
  | succ budget ih =>
      obtain ⟨budget', rfl⟩ := Nat.exists_eq_add_one_of_ne_zero (Nat.ne_zero_of_lt room)
      have conform
          : Calls.Conform ⟨standard.dispatchWithin budget, standard.schema?⟩
              ⟨standard.dispatchWithin budget', standard.schema?⟩ :=
        ⟨fun _ => ih (Nat.le_of_lt_succ room), rfl, fun _ _ found => (schema?_standard found).1⟩
      intro outer inner arguments machine values size
      refine (echoes_dispatchSet values size).bind fun set looked atLooked => ?_
      cases selected : standard.select op set with
      | none => exact echoes_fail _ _
      | some chosen =>
          refine Echoes.traced fun start atStart => ?_
          exact conforms_of_select conform member selected outer inner arguments start
            (atStart.trans atLooked) size

end
end LayeredDispatch
