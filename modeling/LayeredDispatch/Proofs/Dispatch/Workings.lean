import LayeredDispatch.Kernels.Batching
import LayeredDispatch.Kernels.Interception
import LayeredDispatch.Proofs.Dispatch.Outcomes
import LayeredDispatch.Proofs.Dispatch.Selection
import LayeredDispatch.Proofs.Dispatch.ValueStack

/-! Properties that computations have which issue no calls. They differ in what such a computation may do
to the state: look at it, read the boxed values, log, make something on the heap, change the boxed
values, or change layers and guards. Main statements: the parts of kernels that issue no calls have the
properties that allow what they do, and so have the base kernels and the release of a guard.
-/

namespace LayeredDispatch
namespace Run

/-- A property that computations have which look at the state apart from the boxed values, or end
without a value as allowed.
-/
structure Looking (allowed : Exit → Prop) (P : ∀ {α : Type}, Run α → Prop) : Prop
    extends Inherited Run P where
  plain {exit : Exit} (h : exit.Plain) : allowed exit
  throw {α : Type} {exit : Exit} (h : allowed exit) : P (throw exit : Run α)
  look {α : Type} {part : Machine → α}
    (same : ∀ machine values, part { machine with values } = part machine)
    : P (read part)

/-- A property that computations also have which read the boxed values. -/
structure Reading (allowed : Exit → Prop) (P : ∀ {α : Type}, Run α → Prop) : Prop
    extends Looking allowed P where
  read {α : Type} (part : Machine → α) : P (Run.read part)

/-- A property that computations also have which add to the log. -/
structure Logging (allowed : Exit → Prop) (P : ∀ {α : Type}, Run α → Prop) : Prop
    extends Looking allowed P where
  log (event : Event) : P (Run.log event)

/-- A property that computations also have which draw random numbers, or change the heap but no
liveness flag.
-/
structure Making (allowed : Exit → Prop) (P : ∀ {α : Type}, Run α → Prop) : Prop
    extends Logging allowed P where
  setGenerator (generator : Generator) : P (onThread fun thread => { thread with generator })
  onHeap {change : Heap → Heap} (flags : ∀ heap, (change heap).flags = heap.flags)
    : P (Run.onHeap change)
  allocate {α : Type} {make : Heap → α × Heap} (flags : ∀ heap, (make heap).2.flags = heap.flags)
    : P (Run.allocate make)

/-- A property that computations also have which change the layers, the overlay or the gradient modes,
or forget a level.
-/
structure Layering (allowed : Exit → Prop) (P : ∀ {α : Type}, Run α → Prop) : Prop
    extends Logging allowed P where
  misplaced (layer : Layer) (expected : Level) : allowed (.fault (.unexpectedPush layer expected))
  onThread {change : Thread → Thread} (kept : ∀ thread, (change thread).recorder = thread.recorder)
    : P (Run.onThread change)
  removeLevel (level : Level) : P (Run.removeLevel level)

/-- A property of computations that read the boxed values and log. -/
structure Noting (allowed : Exit → Prop) (P : ∀ {α : Type}, Run α → Prop) : Prop
    extends Reading allowed P, Logging allowed P

/-- A property of computations that may do anything but change layers and guards. -/
structure Writing (allowed : Exit → Prop) (P : ∀ {α : Type}, Run α → Prop) : Prop
    extends Noting allowed P, Making allowed P where
  setValues (values : Machine → List Value)
    : P (modify fun machine => { machine with values := values machine } : Run PUnit)

/-- Replaces every tensor among the values from `start` on. -/
def mapFrom (start : Nat) (replace : Tensor → Run Tensor) : Run Unit := do
  let values ← read Machine.values
  let replaced ← Value.mapTensorsAllM replace (values.drop start)
  modify fun machine => { machine with values := values.take start ++ replaced }

/-- Refuses a tensor with a wrapper other than dead tags around it. -/
def requireBare (name : String) (tensor : Tensor) : Run Unit := do
  let bare ← unwrapDead tensor
  if !bare.isDense then
    fault (.wrappedAtBase name (← read fun machine => bare.render machine.heap))

/-- Requires that only dead tags are left around the tensors among the values from `start` on. -/
def requireBareFrom (name : String) (start : Nat) : Run Unit := do
  let values ← read Machine.values
  forTensors (values.drop start) (requireBare name)

-----------------------------------------------------------------------------------------
-- Ranges that lie inside of the boxed values
-----------------------------------------------------------------------------------------

section

variable {machine : Machine} {start count : Nat}

/-- Replacing the tensors of a range that reaches to the end of the boxed values is replacing them
from its start on, since the checks of the range pass.
-/
theorem mapRange_inside {replace : Tensor → Run Tensor}
    (inside : start + count = machine.values.length)
    : mapRange start (start + count) replace machine = mapFrom start replace machine := by
  rw [mapRange, mapFrom, bind_apply, bind_apply, read_apply]
  dsimp only
  rw [if_pos ⟨Nat.le_add_right _ _, Nat.le_of_eq inside⟩, inside, List.take_length,
    List.drop_length]
  simp only [List.append_nil]

/-- The same for the check that a range has no wrappers. -/
theorem requireUnwrapped_inside {name : String} (inside : start + count = machine.values.length)
    : requireUnwrapped name start (start + count) machine
      = requireBareFrom name start machine := by
  rw [requireUnwrapped, requireBareFrom, bind_apply, bind_apply, read_apply]
  dsimp only
  rw [if_pos ⟨Nat.le_add_right _ _, Nat.le_of_eq inside⟩, inside, List.take_length]
  rfl

/-- From the start of the last values on, the first thing done is inside of the boxed values. So
ranges that kernels take may be compared as if their checks could not fail.
-/
theorem lastStart_bind_congr {next next' : Nat → Run α}
    (same
      : ∀ start machine,
          start + count = machine.values.length → next start machine = next' start machine)
    : (lastStart count >>= next) = (lastStart count >>= next') := by
  funext machine
  rw [bind_apply, bind_apply]
  cases started : lastStart count machine with
  | ok start reached =>
      obtain ⟨rfl, enough, rfl⟩ := lastStart_ok started
      exact same _ _ (Nat.sub_add_cancel enough)
  | error exit reached => rfl

/-- Sequences whose first parts end alike in a state end alike there. -/
theorem bind_congr_apply {first first' : Run α} {next : α → Run β}
    (same : first machine = first' machine)
    : (first >>= next) machine = (first' >>= next) machine := by
  rw [bind_apply, bind_apply, same]

end

variable {allowed : Exit → Prop} {P : ∀ {α : Type}, Run α → Prop}

-----------------------------------------------------------------------------------------
-- Computations that look at the state
-----------------------------------------------------------------------------------------

namespace Looking

/-- A refusal in a plain way has every property of computations that look at the state. -/
theorem fail (looking : Looking allowed P) {error : DispatchError}
    (plain : (Exit.error error).Plain)
    : P (Run.fail error : Run α) :=
  looking.throw (looking.plain plain)

/-- So has a plain fault. -/
theorem fault (looking : Looking allowed P) {fault : Fault} (plain : (Exit.fault fault).Plain)
    : P (Run.fault fault : Run α) :=
  looking.throw (looking.plain plain)

/-- A pure computation has the property if its ends are allowed ones. -/
theorem lift (looking : Looking allowed P) {outcome : Outcome α} (h : outcome.Confined allowed)
    : P (liftM outcome : Run α) := by
  cases outcome with
  | ok value => exact looking.pure value
  | error exit => exact looking.throw (h exit rfl)

/-- A pure computation that ends in a plain way has the property, whichever ends are allowed: plain
ones always are.
-/
theorem lift_plain (looking : Looking allowed P) {outcome : Outcome α}
    (h : outcome.Confined Exit.Plain)
    : P (liftM outcome : Run α) :=
  looking.lift (h.mono fun _ => looking.plain)

theorem renderLayers (looking : Looking allowed P) : P renderLayers :=
  looking.bind (looking.look fun _ _ => rfl) fun _ => looking.pure _

/-- Asking for the top layer looks at the state and faults in a plain way if there is none. -/
theorem currentLayer (looking : Looking allowed P) : P currentLayer := by
  refine looking.bind (looking.look fun _ _ => rfl) fun top? => ?_
  split
  · exact looking.pure _
  · exact looking.fault ⟨trivial, trivial⟩

/-- Asking for the flag of a level looks at the registry and faults if the level is not there. -/
theorem levelFlag (looking : Looking allowed P) (level : Level) : P (levelFlag level) := by
  refine looking.bind (looking.look fun _ _ => rfl) fun registry => ?_
  split
  · exact looking.pure _
  · exact looking.fault ⟨trivial, trivial⟩

/-- Taking the wrapper of a level off a tensor looks at nothing: a wrapper of a higher level is a
fault, and everything else is given back.
-/
theorem unwrapAt (looking : Looking allowed P) (tensor : Tensor) (level : Level)
    : P (unwrapAt tensor level) := by
  unfold Run.unwrapAt
  split
  · exact looking.ite (looking.fault ⟨trivial, trivial⟩)
      (looking.ite (looking.pure _) (looking.pure _))
  · exact looking.pure _

/-- Taking the dead tags off a tensor, if there is one. -/
theorem unwrapDead? (looking : Looking allowed P) (tensor? : Option Tensor)
    : P (tensor?.mapM unwrapDead) := by
  cases tensor? with
  | none => exact looking.pure none
  | some tensor => exact looking.map (looking.look fun _ _ => rfl) some

/-- Outside of all layers a tensor must be bare once its dead tags are off. A live tag is a fault
that names its level and the operator.
-/
theorem unwrapOutside (looking : Looking allowed P) (name : String) (tensor : Tensor)
    : P (do
        let bare ← unwrapDead tensor
        match bare.taggedLevel? with
        | some level => Run.fault (.liveOutside level name)
        | none => return bare) := by
  refine looking.bind (looking.look fun _ _ => rfl) fun bare => ?_
  split
  · exact looking.fault ⟨trivial, trivial⟩
  · exact looking.pure _

/-- A dense tensor gives its storage, and another one is refused. -/
theorem storageOf (looking : Looking allowed P) (tensor : Tensor) (name : String) (index : Nat)
    : P (Base.storageOf tensor name index) := by
  unfold Base.storageOf
  split
  · exact looking.look fun _ _ => rfl
  · exact looking.fail ⟨trivial, trivial⟩

/-- An argument of a base kernel is read, and then its storage is looked up. -/
theorem denseAt (looking : Looking allowed P) (arguments : List Value) (name : String) (index : Nat)
    : P (Base.denseAt arguments name index) :=
  looking.bind (looking.lift_plain (Value.plain_tensorAt _ _ _)) fun _ => looking.storageOf _ _ _

/-- A tensor with a wrapper that is left is a fault that shows the tensor. -/
theorem requireBare (looking : Looking allowed P) (name : String) (tensor : Tensor)
    : P (Run.requireBare name tensor) := by
  refine looking.bind (looking.look fun _ _ => rfl) fun bare => looking.ite ?_ (looking.pure _)
  exact looking.bind (looking.look fun _ _ => rfl) fun _ => looking.fault ⟨trivial, trivial⟩

end Looking

-----------------------------------------------------------------------------------------
-- Computations that read the boxed values
-----------------------------------------------------------------------------------------

namespace Reading

/-- Where the last values start is read off the boxed values; too few of them are a fault. -/
theorem lastStart (reading : Reading allowed P) (count : Nat) : P (lastStart count) :=
  reading.bind (reading.read id) fun _ =>
    reading.ite (reading.pure _) (reading.fault ⟨trivial, trivial⟩)

theorem peek (reading : Reading allowed P) (count : Nat) : P (peek count) :=
  reading.bind (reading.lastStart count) fun _ => reading.read _

/-- The check of a range looks at the boxed values and at the tensors in it. The range may lie
outside of the boxed values, so the end that stands for this must be allowed.
-/
theorem requireUnwrapped (reading : Reading allowed P) (outside : allowed (.fault .outOfBounds))
    (name : String) (start stop : Nat)
    : P (requireUnwrapped name start stop) :=
  reading.bind (reading.read _) fun _ =>
    reading.ite (reading.forTensors (reading.requireBare name) _) (reading.throw outside)

end Reading

-----------------------------------------------------------------------------------------
-- Computations that log
-----------------------------------------------------------------------------------------

/-- Dispatches are logged only if the thread asks for it, which is looked up first. -/
theorem Logging.logDispatch (logging : Logging allowed P) (event : Event) : P (logDispatch event) :=
  logging.bind (logging.look fun _ _ => rfl) fun _ => logging.ite (logging.log event) (logging.pure _)

/-- A level is forgotten once its flag is killed. What the property says of these two changes is
assumed, because they are not changes that every computation of this kind may make.
-/
theorem Logging.removeLevel (logging : Logging allowed P)
    (killFlag : ∀ flag, P (onHeap fun heap => heap.killFlag flag))
    (onRegistry
      : ∀ change : Registry → Registry,
          P (modify fun machine =>
              { machine with registry := change machine.registry } : Run PUnit))
    (level : Level)
    : P (removeLevel level) := by
  refine logging.bind (logging.look fun _ _ => rfl) fun registry => ?_
  split
  · exact logging.bind (killFlag _) fun _ => onRegistry (·.erase level)
  · exact logging.log _

/-- Coming back from the base is logged. -/
theorem Logging.reenter (logging : Logging allowed P) (name : String)
    : P (do if (← layerCount) = 0 then Run.logDispatch (.reentering name)) :=
  logging.bind (logging.look fun _ _ => rfl) fun _ =>
    logging.ite (logging.logDispatch _) (logging.pure _)

namespace Noting

/-- The check of writes to captured values looks at the written argument only, and logs a refusal
before it ends.
-/
theorem refuseCapturedMutation (noting : Noting allowed P) (op : Schema) (layer : Layer)
    : P (refuseCapturedMutation op layer) := by
  refine noting.ite (noting.bind (noting.peek _) fun arguments => ?_) (noting.pure _)
  refine noting.bind (noting.unwrapDead? _) fun written? => noting.ite ?_ (noting.pure _)
  exact noting.bind (noting.log _) fun _ => noting.fail ⟨trivial, trivial⟩

/-- Choosing the overlay below a layer checks the arguments if the layer is the last one, and logs
that the call leaves the layer.
-/
theorem overlayBelow (noting : Noting allowed P) (op : Schema) (layer : Layer)
    : P (overlayBelow op layer) := by
  have leaving : P (do Run.logDispatch (.leaving op.name); return layer.saved) :=
    noting.bind (noting.logDispatch _) fun _ => noting.pure _
  refine noting.bind (noting.read _) fun count => noting.ite ?_ ?_
  · refine noting.bind (noting.read _) fun checked => noting.ite ?_ leaving
    rw [lastStart_bind_congr fun _ _ inside => bind_congr_apply (requireUnwrapped_inside inside)]
    refine noting.bind (noting.lastStart _) fun start => noting.bind ?_ fun _ => leaving
    exact noting.bind (noting.read _) fun _ => noting.forTensors (noting.requireBare _) _
  · exact noting.bind (noting.read _) fun _ => noting.pure _

end Noting

-----------------------------------------------------------------------------------------
-- Computations that make something on the heap
-----------------------------------------------------------------------------------------

namespace Making

/-- A tag is made with the flag of its level. -/
theorem tagAt (making : Making allowed P) (tensor : Tensor) (level : Level)
    : P (tagAt tensor level) :=
  making.bind (making.levelFlag level) fun _ => making.allocate fun _ => rfl

/-- A dead or missing tag of a level is made anew, a live one is given back. -/
theorem materializeAt (making : Making allowed P) (tensor : Tensor) (level : Level)
    : P (materializeAt tensor level) := by
  unfold Run.materializeAt
  split
  · exact making.tagAt _ _
  · exact making.ite (making.pure _)
      (making.ite (making.tagAt _ _) (making.fault ⟨trivial, trivial⟩))

/-- A value that a differentiation layer receives is tagged at the level of the layer, one that a
batching layer receives is given back without its dead tags.
-/
theorem receive (making : Making allowed P) (layer : Layer) (tensor : Tensor)
    : P (receive layer tensor) := by
  refine making.bind (making.look fun _ _ => rfl) fun bare => ?_
  split
  · exact making.materializeAt _ _
  · exact making.pure _

/-- Writing to a storage touches no flag. -/
theorem setStorage (making : Making allowed P) (cell : Nat) (storage : Storage)
    : P (Run.onHeap fun heap => heap.setStorage cell storage) :=
  making.onHeap fun _ => rfl

/-- Drawing numbers checks that they fit into a buffer and moves the generator on. -/
theorem drawUniform (making : Making allowed P) (count : Size) : P (Base.drawUniform count) :=
  making.bind (making.lift_plain (Outcome.plain_checkCapacity _)) fun _ =>
    making.bind (making.look fun _ _ => rfl) fun _ =>
      making.bind (making.setGenerator _) fun _ => making.pure _

end Making

-----------------------------------------------------------------------------------------
-- Computations that change the boxed values
-----------------------------------------------------------------------------------------

namespace Writing

theorem push (writing : Writing allowed P) (value : Value) : P (push value) :=
  writing.setValues _

theorem pushAll (writing : Writing allowed P) (values : List Value) : P (pushAll values) :=
  writing.setValues _

/-- Taking values off reads them and sets what is left. -/
theorem pop (writing : Writing allowed P) (count : Nat) : P (pop count) := by
  refine writing.bind (writing.lastStart count) fun start => ?_
  change P (do
    let last ← Run.read fun machine => machine.values.drop start
    modify fun machine => { machine with values := machine.values.take start }
    return last)
  exact writing.bind (writing.read _) fun _ => writing.bind (writing.setValues _) fun _ =>
    writing.pure _

/-- Replacing tensors reads the values, runs the replacement on each tensor and sets the outcome.
-/
theorem mapFrom (writing : Writing allowed P) {replace : Tensor → Run Tensor}
    (h : ∀ tensor, P (replace tensor)) (start : Nat)
    : P (mapFrom start replace) :=
  writing.bind (writing.read _) fun _ => writing.bind (writing.mapTensorsAllM h _) fun _ =>
    writing.setValues _

/-- Replacing the tensors of the last values is such a replacement, from where these values start.
-/
theorem mapLast (writing : Writing allowed P) {replace : Tensor → Run Tensor}
    (h : ∀ tensor, P (replace tensor)) (count : Nat)
    : P (mapLast count replace) := by
  rw [Run.mapLast, lastStart_bind_congr fun _ _ inside => mapRange_inside inside]
  exact writing.bind (writing.lastStart count) fun _ => writing.mapFrom h _

/-- Copies of the arguments are boxed and then stripped of the tags of a level. -/
theorem copyUntagged (writing : Writing allowed P) (op : Schema) (level : Level)
    : P (copyUntagged op level) :=
  writing.bind (writing.peek _) fun _ => writing.bind (writing.pushAll _) fun _ =>
    writing.mapLast (fun tensor => writing.unwrapAt tensor level) _

/-- The results are tagged where they lie, and the copies of the arguments below them are removed.
The range of the results is inside of the boxed values, so no check of it can fail.
-/
theorem tagResults (writing : Writing allowed P) (op : Schema) (level : Level)
    : P (tagResults op level) := by
  rw [LayeredDispatch.tagResults,
    lastStart_bind_congr fun _ _ inside => bind_congr_apply (mapRange_inside inside)]
  refine writing.bind (writing.lastStart _) fun stop => ?_
  refine writing.bind (writing.mapFrom (fun tensor => writing.tagAt tensor level) _) fun _ => ?_
  refine writing.bind (writing.lift_plain (Outcome.plain_orOverflow _)) fun start => ?_
  refine writing.bind (writing.read _) fun values => ?_
  refine writing.bind (writing.forTensors (fun tensor => writing.onHeap fun heap => ?_) _)
    fun _ => writing.setValues _
  cases tensor <;> rfl

/-- Recording which operator produced the results touches no liveness flag, whether the results are
tagged or not.
-/
theorem recordGradFns (writing : Writing allowed P) (op : Schema) (level : Level)
    (recording : Bool)
    : P (do
        if recording then
          forTensors (← peek op.resultCount) fun tensor => do
            if tensor.taggedLevel? = some level then
              Run.onHeap fun heap => heap.recordGradFn op.name tensor) := by
  refine writing.ite (writing.bind (writing.peek _) fun results => ?_) (writing.pure _)
  refine writing.forTensors (fun tensor => writing.ite ?_ (writing.pure _)) _
  refine writing.onHeap fun heap => ?_
  cases tensor <;> rfl

/-- The results of a batching rule are wrapped one by one and put back. Values that are no tensors
stay as they are.
-/
theorem wrapResults (writing : Writing allowed P) (count : Nat) (level : Level)
    : P (Batching.wrapResults count level) := by
  refine writing.bind (writing.read _) fun values => ?_
  refine writing.bind (writing.lift_plain (Outcome.plain_orOverflow _)) fun start => ?_
  refine writing.bind (writing.mapM (fun value => ?_) _) fun wrapped => writing.setValues _
  split
  · exact writing.bind (writing.allocate fun _ => rfl) fun _ => writing.pure _
  · exact writing.pure _

/-- The last boxed value is replaced by another one. -/
theorem replaceLast (writing : Writing allowed P) (value : Value)
    : P (Batching.replaceLast value) :=
  writing.bind (writing.read _) fun _ =>
    writing.bind (writing.lift_plain (Outcome.plain_orOverflow _)) fun _ => writing.setValues _

-----------------------------------------------------------------------------------------
-- Base kernels
-----------------------------------------------------------------------------------------

theorem pushDense (writing : Writing allowed P) (storage : Storage)
    : P (Base.pushDense storage) :=
  writing.bind (writing.allocate fun _ => rfl) fun _ => writing.push _

section

variable (tame : ∀ {exit}, Exit.Tame exit → allowed exit) (calls : Calls) (op : Schema)

include tame

/-- Combining two storages is pure and comes to a tame end. -/
theorem broadcastBinary (writing : Writing allowed P) (name : String) (left right : Storage)
    (combine : Float → Float → Float)
    : P (liftM (Storage.broadcastBinary name left right combine) : Run Storage) :=
  writing.lift ((Storage.tame_broadcastBinary name left right combine).mono fun _ => tame)

/-- The base kernels of binary operators read both operands, combine them and box the outcome. -/
theorem binary (writing : Writing allowed P) (name : String) (combine : Float → Float → Float)
    : P ((Base.binary name combine).run calls op) :=
  writing.bind (writing.pop 2) fun _ => writing.bind (writing.denseAt _ _ _) fun _ =>
    writing.bind (writing.denseAt _ _ _) fun _ =>
      writing.bind (writing.broadcastBinary tame _ _ _ _) fun _ => writing.pushDense _

/-- The base kernel of sums of lists folds the operands from the left, so an empty list is refused
and each further operand is one more combination.
-/
theorem addAll (writing : Writing allowed P) : P (Base.addAll.run calls op) := by
  refine writing.bind (writing.pop 1) fun arguments => ?_
  refine writing.bind (writing.lift_plain (Value.plain_tensorsAt _ _ _)) fun tensors => ?_
  split
  · exact writing.fail ⟨trivial, trivial⟩
  · refine writing.bind (writing.storageOf _ _ _) fun start => ?_
    refine writing.bind (writing.foldlM (fun total tensor => ?_) _ _) fun total =>
      writing.pushDense _
    exact writing.bind (writing.storageOf _ _ _) fun next => writing.broadcastBinary tame _ _ _ _

/-- The base kernel of sums in place combines the operands and writes the outcome to the cell of the
target, unless the outcome has another shape.
-/
theorem addInPlace (writing : Writing allowed P) : P (Base.addInPlace.run calls op) := by
  refine writing.bind (writing.pop 2) fun arguments => ?_
  refine writing.bind (writing.lift_plain (Value.plain_tensorAt _ _ _)) fun target => ?_
  refine writing.bind (writing.denseAt _ _ _) fun addend => ?_
  refine writing.bind (writing.storageOf _ _ _) fun current => ?_
  refine writing.bind (writing.broadcastBinary tame _ _ _ _) fun updated => writing.ite ?_ ?_
  · exact writing.bind (writing.setStorage _ _) fun _ => writing.push _
  · exact writing.fail ⟨trivial, trivial⟩

end

section

variable (calls : Calls) (op : Schema)

/-- The base kernel for a new dimension refuses positions outside of the shape in a plain way. -/
theorem unsqueeze (writing : Writing allowed P) : P (Base.unsqueeze.run calls op) := by
  refine writing.bind (writing.pop 2) fun arguments => ?_
  refine writing.bind (writing.denseAt _ _ _) fun input => ?_
  refine writing.bind (writing.lift_plain (Value.plain_intAt _ _ _)) fun dim => ?_
  split
  · exact writing.pushDense _
  · exact writing.fail ⟨trivial, trivial⟩

theorem zeros (writing : Writing allowed P) : P (Base.zeros.run calls op) :=
  writing.bind (writing.pop 1) fun _ =>
    writing.bind (writing.lift_plain (Value.plain_sizesAt _ _ _)) fun _ =>
      writing.bind (writing.lift_plain (Storage.plain_zeros _)) fun _ => writing.pushDense _

theorem rand (writing : Writing allowed P) : P (Base.rand.run calls op) :=
  writing.bind (writing.pop 1) fun _ =>
    writing.bind (writing.lift_plain (Value.plain_sizesAt _ _ _)) fun _ =>
      writing.bind (writing.lift_plain (Outcome.plain_orOverflow _)) fun _ =>
        writing.bind (writing.drawUniform _) fun _ => writing.pushDense _

/-- The base kernel for resizing writes the cut or extended storage to the cell of the target. -/
theorem resizeInPlace (writing : Writing allowed P) : P (Base.resizeInPlace.run calls op) := by
  refine writing.bind (writing.pop 2) fun arguments => ?_
  refine writing.bind (writing.lift_plain (Value.plain_tensorAt _ _ _)) fun target => ?_
  refine writing.bind (writing.lift_plain (Value.plain_sizesAt _ _ _)) fun sizes => ?_
  refine writing.bind (writing.storageOf _ _ _) fun current => ?_
  refine writing.bind (writing.lift_plain (Storage.plain_resize _ _)) fun resized => ?_
  exact writing.bind (writing.setStorage _ _) fun _ => writing.push _

end

/-- No base kernel issues a call, and each of them comes to a tame end. So a base kernel has every
property that allows to write and to end in this way. The cases are those of `baseKernel?`.
-/
theorem baseKernel {name : String} {kernel : Kernel} (writing : Writing allowed P)
    (tame : ∀ {exit}, Exit.Tame exit → allowed exit)
    (found : Dispatcher.baseKernel? name = some kernel) (calls : Calls) (op : Schema)
    : P (kernel.run calls op) := by
  have unary (result : Storage → Storage)
      : P (do
          let arguments ← Run.pop 1
          let input ← Base.denseAt arguments op.name 0
          Base.pushDense (result input)) :=
    writing.bind (writing.pop 1) fun _ => writing.bind (writing.denseAt _ _ _) fun _ =>
      writing.pushDense _
  unfold Dispatcher.baseKernel? at found
  split at found <;> cases found
  · exact writing.binary tame calls op _ _
  · exact writing.binary tame calls op _ _
  · exact unary _
  · exact unary _
  · exact writing.addAll tame calls op
  · exact writing.unsqueeze calls op
  · exact writing.zeros calls op
  · exact writing.rand calls op
  · exact writing.addInPlace tame calls op
  · exact writing.resizeInPlace calls op

end Writing

-----------------------------------------------------------------------------------------
-- Computations that change layers and guards
-----------------------------------------------------------------------------------------

namespace Layering

theorem setOverlay (layering : Layering allowed P) (overlay : Overlay) : P (setOverlay overlay) :=
  layering.onThread fun _ => rfl

theorem onOverlay (layering : Layering allowed P) (change : Overlay → Overlay)
    : P (onOverlay change) :=
  layering.onThread fun _ => rfl

theorem setGrad (layering : Layering allowed P) (grad : Bool) : P (setGrad grad) :=
  layering.onThread fun _ => rfl

theorem setForwardGrad (layering : Layering allowed P) (forwardGrad : Bool)
    : P (setForwardGrad forwardGrad) :=
  layering.onThread fun _ => rfl

/-- A layer is pushed after its level has been compared with the number of layers. The first layer
includes the interceptors, which changes the overlay.
-/
theorem pushLayer (layering : Layering allowed P) (layer : Layer) : P (pushLayer layer) := by
  refine layering.bind (layering.look fun _ _ => rfl) fun below => ?_
  refine layering.ite ?_ (layering.throw (layering.misplaced _ _))
  refine layering.bind (layering.onThread fun _ => rfl) fun _ => layering.ite ?_ (layering.pure _)
  exact layering.bind (layering.logDispatch _) fun _ =>
    layering.bind (layering.onThread fun _ => rfl) fun _ => layering.pure _

/-- The top layer is removed, or there is none and the fault is plain. The last layer takes the
interceptors with it.
-/
theorem popLayer (layering : Layering allowed P) : P popLayer := by
  refine layering.bind (layering.look fun _ _ => rfl) fun layers => ?_
  split
  · exact layering.fault ⟨trivial, trivial⟩
  · refine layering.bind (layering.onThread fun _ => rfl) fun _ =>
      layering.ite ?_ (layering.pure _)
    exact layering.bind (layering.logDispatch _) fun _ =>
      layering.bind (layering.onThread fun _ => rfl) fun _ => layering.pure _

/-- Closing a layer removes it, forgets its level and logs the exit. -/
theorem closeLayer (layering : Layering allowed P) : P closeLayer :=
  layering.bind layering.popLayer fun _ => layering.bind (layering.removeLevel _) fun _ =>
    layering.bind (layering.log _) fun _ => layering.pure _

/-- Layers are put back from the bottom up after their levels have been checked, and the
interceptors follow the layers.
-/
theorem restoreLayers (layering : Layering allowed P) (bottomFirst : List Layer)
    : P (restoreLayers bottomFirst) := by
  refine layering.bind (layering.forM (fun item => ?_) _) fun _ => ?_
  · exact layering.ite (layering.fault ⟨trivial, trivial⟩) (layering.pure _)
  · refine layering.bind (layering.look fun _ _ => rfl) fun layers => ?_
    refine layering.bind (layering.onThread fun _ => rfl) fun _ => ?_
    exact layering.ite (layering.onThread fun _ => rfl) (layering.pure _)

theorem install (layering : Layering allowed P) (context : Context) : P context.install :=
  layering.bind (layering.restoreLayers _) fun _ => layering.setOverlay _

theorem capture (layering : Layering allowed P) : P Context.capture :=
  layering.bind (layering.look fun _ _ => rfl) fun _ =>
    layering.bind (layering.look fun _ _ => rfl) fun _ => layering.pure _

theorem enter (layering : Layering allowed P) (context : Context) : P (Guard.enter context) :=
  layering.bind layering.capture fun _ => layering.bind (layering.install context) fun _ =>
    layering.pure _

/-- Guards are made by reading a part of the thread and replacing it. The guard keeps what was read.
-/
theorem acquire (layering : Layering allowed P) {part : Machine → α} {change : α → Run Unit}
    (same : ∀ machine values, part { machine with values } = part machine)
    (changes : ∀ previous, P (change previous)) (guard : α → Guard)
    : P (do
        let previous ← Run.read part
        change previous
        return guard previous) :=
  layering.bind (layering.look same) fun previous => layering.bind (changes previous) fun _ =>
    layering.pure _

theorem hide (layering : Layering allowed P) (set : CapabilitySet) : P (Guard.hide set) :=
  layering.acquire (fun _ _ => rfl) (fun _ => layering.setOverlay _) _

theorem forceOn (layering : Layering allowed P) (set : CapabilitySet) : P (Guard.forceOn set) :=
  layering.acquire (fun _ _ => rfl) (fun _ => layering.setOverlay _) _

theorem replaceOverlay (layering : Layering allowed P) (overlay : Overlay)
    : P (Guard.replaceOverlay overlay) :=
  layering.acquire (fun _ _ => rfl) (fun _ => layering.setOverlay _) _

theorem gradMode (layering : Layering allowed P) (enabled : Bool) : P (Guard.gradMode enabled) :=
  layering.acquire (fun _ _ => rfl) (fun _ => layering.setGrad _) _

theorem forwardGradMode (layering : Layering allowed P) (enabled : Bool)
    : P (Guard.forwardGradMode enabled) :=
  layering.acquire (fun _ _ => rfl) (fun _ => layering.setForwardGrad _) _

theorem hideTop (layering : Layering allowed P) : P Guard.hideTop :=
  layering.bind layering.popLayer fun _ => layering.pure _

/-- Guards are released in whatever order. The cases are those of guards: each puts back what it
keeps, and the guard of a hidden layer pushes the layer again, which may find another level there.
-/
theorem release (layering : Layering allowed P) (guard : Guard) : P guard.release := by
  cases guard with
  | overlay saved => exact layering.setOverlay saved
  | exclusion added | inclusion added =>
      rw [Guard.release]
      exact layering.onOverlay _
  | grad previous => exact layering.setGrad previous
  | forwardGrad previous => exact layering.setForwardGrad previous
  | withoutTop popped => exact layering.map (layering.pushLayer popped) _
  | layer level =>
      refine layering.bind (layering.look fun _ _ => rfl) fun top? => layering.ite ?_ ?_
      · exact layering.map layering.closeLayer _
      · exact layering.bind (layering.log _) fun _ => layering.removeLevel level
  | context outer => exact layering.install outer

end Layering
end Run
end LayeredDispatch
