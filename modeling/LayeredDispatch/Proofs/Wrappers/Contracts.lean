import LayeredDispatch.Proofs.Dispatch.Exchange
import LayeredDispatch.Proofs.Dispatch.Replacing
import LayeredDispatch.Proofs.Wrappers.Ownership

/-! Contracts of calls under stacked layers. Where a call is decides which kernels can handle it, and
each of them leads to a place nearer to the base. Main statement: a contract that every kernel keeps
where it handles calls, given that the calls that it issues keep it, is kept by all calls.
-/

namespace LayeredDispatch

open Run Dispatcher

/-- The calls that a kernel of the standard dispatcher may issue if these nest at most `budget` deep.
-/
def Dispatcher.nested (budget : Nat) : Calls where
  dispatch := standard.dispatchWithin budget
  schema? := standard.schema?

/-- What is asked of a computation that handles a call of an operator: it may depend on how deep calls
nest, on the layers that own the wrappers around the arguments, and on the state.
-/
abbrev Contract :=
  (budget : Nat) → (owners : List Layer) → Schema → Machine → Run Unit → Prop

/-- A state in which a registered operator is called. On the way out of a batching layer random
operators have been taken care of.
-/
structure Machine.Calling (machine : Machine) (op : Schema) (owners : List Layer) : Prop where
  member : op ∈ Base.schemas
  owning : machine.ambient.Owners owners
  drawn
    : op.name = "rand"
      → owners = machine.thread.layers
        ∨ machine.thread.overlay.excluded.contains .batchMode = true

/-- The in-place operators. -/
theorem Schema.inPlace_cases {op : Schema} (member : op ∈ Base.schemas) (inPlace : op.isInPlace = true)
    : op = Base.schemas[8] ∨ op = Base.schemas[9] := by
  simp only [Base.schemas, List.mem_cons, List.not_mem_nil, or_false] at member
  rcases member with rfl | rfl | rfl | rfl | rfl | rfl | rfl | rfl | rfl | rfl
  all_goals first | exact Or.inl rfl | exact Or.inr rfl | cases inPlace

/-- All calls that nest at most `budget` deep keep a contract. -/
def Contract.Holds (contract : Contract) (budget : Nat) : Prop :=
  ∀ {op : Schema} {machine : Machine} {owners : List Layer},
    machine.Calling op owners
    → contract budget owners op machine (standard.dispatchWithin budget op)

/-- A state in which a registered operator is called, with enough boxed values for its arguments. -/
structure Machine.Poses (machine : Machine) (op : Schema) : Prop where
  member : op ∈ Base.schemas
  enough : op.arity ≤ machine.values.length

/-- Some argument of a call has a hook. -/
def Machine.Carries (machine : Machine) (op : Schema) (capability : Capability) : Prop :=
  (Value.carried machine.heap (machine.lastValues op.arity)).contains capability = true

/-- The ways in which a call ends that no kernel handles. -/
inductive Exit.Unhandled : Exit → Prop where
  | nested : Unhandled (.fault .diverged)
  | short (needed present : Nat) : Unhandled (.fault (.stackUnderflow needed present))
  | inactive : Unhandled (.fault .noActiveLayer)
  | outside (op : String) : Unhandled (.fault (.entryWithoutLayer op))
  | unknown (op : String) (set : CapabilitySet) : Unhandled (.error (.noKernel op set))

/-- The ways in which a kernel ends that needs a layer where none is active. -/
inductive Exit.Inactive : Exit → Prop where
  | body : Inactive (.fault .noActiveLayer)
  | entry (op : String) : Inactive (.fault (.entryWithoutLayer op))

/-- The ways in which a call ends for which no kernel is selected. -/
inductive Exit.Unselected : Exit → Prop where
  | short (needed present : Nat) : Unselected (.fault (.stackUnderflow needed present))
  | unknown (op : String) (set : CapabilitySet) : Unselected (.error (.noKernel op set))

/-- A kernel that misses its layer has not handled the call. -/
theorem Exit.Inactive.unhandled {exit : Exit} (h : exit.Inactive) : exit.Unhandled := by
  cases h with
  | body => exact .inactive
  | entry op => exact .outside op

/-- A call without a kernel is not handled. -/
theorem Exit.Unselected.unhandled {exit : Exit} (h : exit.Unselected) : exit.Unhandled := by
  cases h with
  | short needed present => exact .short needed present
  | unknown op set => exact .unknown op set

/-- Calls that are not handled end in order. -/
theorem Exit.Unhandled.orderly {exit : Exit} (h : exit.Unhandled) : exit.Orderly := by
  cases h <;> trivial

/-- A state below all layers. -/
structure Machine.AtBase (machine : Machine) : Prop where
  layers : machine.thread.layers = []
  overlay : machine.thread.overlay = {}

/-- A state with an active layer on top of layers that can be left. -/
structure Machine.Above (machine : Machine) (layer : Layer) (below : List Layer) : Prop where
  top : machine.thread.layers = layer :: below
  grounded : Layer.Grounded (layer :: below)

/-- A state in the body of the top layer. -/
structure Machine.InBody (machine : Machine) (layer : Layer) (below : List Layer) : Prop
    extends machine.Above layer below where
  inBody : machine.thread.overlay.InBody layer.kind

/-- What the kernels of the standard dispatcher have to do to keep a contract, each where it handles
calls. -/
structure Contract.Kept (contract : Contract) : Prop where
  /-- Only what the computation does from the state counts. -/
  congr
    : ∀ {budget owners op machine} {body other : Run Unit},
        body machine = other machine
        → contract budget owners op machine other
        → contract budget owners op machine body
  /-- Calls that no kernel handles. -/
  unhandled
    : ∀ {budget owners op machine exit} {body : Run Unit},
        body machine = .error exit machine
        → exit.Unhandled
        → contract budget owners op machine body
  /-- Trace nodes are of no account. -/
  traced
    : ∀ {budget owners op machine capability} {body : Run Unit},
        contract budget owners op (machine.inSpan op.name capability) body
        → contract budget owners op machine (Run.traced op.name capability body)
  base
    : ∀ {budget op machine kernel},
        machine.Poses op
        → machine.AtBase
        → baseKernel? op.name = some kernel
        → (Value.tensorsAll (machine.lastValues op.arity)).all Tensor.isDense = true
        → contract (budget + 1) [] op machine (kernel.run (nested budget) op)
  outside
    : ∀ {budget op machine},
        contract.Holds budget
        → machine.Poses op
        → machine.AtBase
        → contract (budget + 1) [] op machine (deadWrapperFallback.run (nested budget) op)
  enter
    : ∀ {budget op machine layer below},
        contract.Holds budget
        → machine.Poses op
        → machine.Above layer below
        → machine.thread.overlay.forces .entryInterceptor
        → contract (budget + 1) (layer :: below) op machine
            (entryInterceptor.run (nested budget) op)
  differentiate
    : ∀ {budget op machine layer below},
        contract.Holds budget
        → machine.Poses op
        → machine.InBody layer below
        → layer.kind = .differentiation
        → machine.thread.overlay.excluded.contains .differentiation = false
        → machine.Carries op .differentiation
        → contract (budget + 1) (layer :: below) op machine
            (differentiationBody.run (nested budget) op)
  leaveDifferentiation
    : ∀ {budget op machine layer below},
        contract.Holds budget
        → machine.Poses op
        → machine.InBody layer below
        → layer.kind = .differentiation
        → (machine.Carries op .differentiation
          → machine.thread.overlay.excluded.contains .differentiation = true)
        → contract (budget + 1) (layer :: below) op machine
            (exitInterceptor.run (nested budget) op)
  /-- Batches have been taken care of, or there are none, and so have random operators. -/
  leaveBatching
    : ∀ {budget op machine layer below owners},
        contract.Holds budget
        → machine.Poses op
        → machine.InBody layer below
        → layer.kind = .batching
        → (op.name = "rand" → ¬machine.thread.overlay.forces .batchMode)
        → owners = below
          ∨ (owners = layer :: below
            ∧ (Value.carried machine.heap (machine.lastValues op.arity)).contains .batched = false)
        → contract (budget + 1) owners op machine (exitInterceptor.run (nested budget) op)
  pointwise
    : ∀ {budget op machine layer below},
        contract.Holds budget
        → machine.Poses op
        → machine.InBody layer below
        → layer.kind = .batching
        → machine.thread.overlay.excluded.contains .batched = false
        → machine.Carries op .batched
        → op.name ∈ ["add", "mul", "neg"]
        → contract (budget + 1) (layer :: below) op machine
            (Batching.pointwise.run (nested budget) op)
  unsqueeze
    : ∀ {budget op machine layer below},
        contract.Holds budget
        → machine.Poses op
        → machine.InBody layer below
        → layer.kind = .batching
        → machine.thread.overlay.excluded.contains .batched = false
        → machine.Carries op .batched
        → op = Base.schemas[5]
        → contract (budget + 1) (layer :: below) op machine
            (Batching.unsqueeze.run (nested budget) op)
  addInPlace
    : ∀ {budget op machine layer below},
        contract.Holds budget
        → machine.Poses op
        → machine.InBody layer below
        → layer.kind = .batching
        → machine.thread.overlay.excluded.contains .batched = false
        → machine.Carries op .batched
        → op = Base.schemas[8]
        → contract (budget + 1) (layer :: below) op machine
            (Batching.addInPlace.run (nested budget) op)
  missingRule
    : ∀ {budget op machine owners},
        contract (budget + 1) owners op machine (Batching.missingRule.run (nested budget) op)
  /-- Random operators come to their rule before batches are taken care of. -/
  random
    : ∀ {budget op machine layer below},
        contract.Holds budget
        → machine.Poses op
        → machine.InBody layer below
        → layer.kind = .batching
        → machine.thread.overlay.forces .batchMode
        → machine.thread.overlay.excluded.contains .batched = false
        → op = Base.factorySchema "rand"
        → contract (budget + 1) (layer :: below) op machine
            (Batching.random.run (nested budget) op)

/-- In front of a layer and in its body all active layers own wrappers, so nothing needs to be known
of random operators.
-/
theorem Machine.Calling.of_layers {machine : Machine} {op : Schema} {owners : List Layer}
    (member : op ∈ Base.schemas) (owning : machine.ambient.Owners owners)
    (layers : machine.thread.layers = owners)
    : machine.Calling op owners :=
  ⟨member, owning, fun _ => Or.inl layers.symm⟩

/-- An operator that draws no numbers is called wherever the owners are known. -/
theorem Machine.Calling.of_name {machine : Machine} {op : Schema} {owners : List Layer}
    (member : op ∈ Base.schemas) (owning : machine.ambient.Owners owners)
    (named : op.name ≠ "rand")
    : machine.Calling op owners :=
  ⟨member, owning, fun random => absurd random named⟩

/-- A call may be issued from a state that has been handed back. The layers are the same, and no
hook has been hidden or shown.
-/
theorem Machine.Calling.resumes {machine reached : Machine} {op : Schema} {owners : List Layer}
    (h : machine.Calling op owners) (resumes : machine.Resumes reached)
    : reached.Calling op owners := by
  refine ⟨h.member, h.owning.resumes resumes, fun named => ?_⟩
  rw [resumes.layers, resumes.excluded]
  exact h.drawn named

/-- Where the calls of the kernels go: each step takes a call nearer to the base. From the front of
a layer it is the body.
-/
theorem Machine.Above.enter {machine held : Machine} {layer : Layer} {below : List Layer}
    {op : Schema} (h : machine.Above layer below) (member : op ∈ Base.schemas)
    (atHeld : held.ambient = machine.ambient.enter layer.kind)
    : held.Calling op (layer :: below) := by
  refine .of_layers member ?_ ?_
  · rw [atHeld]
    exact .enter h.top h.grounded
  · exact (congrArg Ambient.layers atHeld).trans h.top

/-- From the body of a layer it is the front of the next one, or the base. -/
theorem Machine.Above.leave {machine held : Machine} {layer : Layer} {below : List Layer}
    {op : Schema} (h : machine.Above layer below) (member : op ∈ Base.schemas)
    (atHeld : held.ambient = machine.ambient.leave layer below)
    : held.Calling op below := by
  refine .of_layers member ?_ (congrArg Ambient.layers atHeld)
  rw [atHeld]
  exact .leave h.top h.grounded

/-- The body of a differentiation layer goes on in the body, with its hooks hidden. -/
theorem Machine.InBody.hideDifferentiation {machine held : Machine} {layer : Layer}
    {below : List Layer} {op : Schema} (h : machine.InBody layer below)
    (kind : layer.kind = .differentiation) (member : op ∈ Base.schemas)
    (atHeld : held.ambient = machine.ambient.hide TransformKind.differentiation.owned)
    : held.Calling op (layer :: below) := by
  refine .of_layers member ?_ ((congrArg Ambient.layers atHeld).trans h.top)
  rw [atHeld]
  refine .hide_differentiation h.top h.grounded kind ?_
  have inBody := h.inBody
  rwa [kind] at inBody

/-- The rules of batching layers go on in the body, on the way out. Random operators do not come to
these rules, so the mode may still be shown.
-/
theorem Machine.InBody.hideBatched {machine held : Machine} {layer : Layer}
    {below : List Layer} {op : Schema} (h : machine.InBody layer below)
    (kind : layer.kind = .batching) (member : op ∈ Base.schemas) (named : op.name ≠ "rand")
    (atHeld : held.ambient = machine.ambient.hide (.only .batched))
    : held.Calling op below := by
  refine .of_name member ?_ named
  rw [atHeld]
  refine .hide_batched h.top h.grounded kind ?_
  have inBody := h.inBody
  rwa [kind] at inBody

/-- The rule for random operators goes on in the body with the mode hidden, and with batches still
to be taken care of.
-/
theorem Machine.InBody.hideBatchMode {machine held : Machine} {layer : Layer}
    {below : List Layer} {op : Schema} (h : machine.InBody layer below)
    (kind : layer.kind = .batching)
    (shown : machine.thread.overlay.excluded.contains .batched = false)
    (member : op ∈ Base.schemas)
    (atHeld : held.ambient = machine.ambient.hide (.only .batchMode))
    : held.Calling op (layer :: below) := by
  refine .of_layers member ?_ ((congrArg Ambient.layers atHeld).trans h.top)
  rw [atHeld]
  have inBody := h.inBody
  refine .body h.top h.grounded ?_ fun _ => ?_
  · rw [kind] at inBody ⊢
    exact inBody.hide rfl
  · exact (CapabilitySet.contains_union _ _ _).trans (Bool.or_eq_false_iff.mpr ⟨shown, rfl⟩)

namespace Contract

variable {contract : Contract} {budget : Nat} {op : Schema} {machine : Machine}
  {owners below : List Layer} {layer : Layer} {capability : Capability} {kernel : Kernel}

/-- No value carries the hook for random operators, because no tensor does. -/
theorem carried_batchMode (heap : Heap) (values : List Value)
    : (Value.carried heap values).contains .batchMode = false := by
  rw [contains_carried (by decide), List.any_eq_false]
  intro tensor member
  cases tensor with
  | dense cell => simp [Tensor.capabilities, CapabilitySet.only]
  | tagged cell level flag inner =>
      rw [Tensor.capabilities]
      split <;> decide
  | batched handle level inner => simp [Tensor.capabilities, CapabilitySet.only]

/-- Random operators come to their rule where it is forced on. -/
theorem apply_batchMode {overlay : Overlay} {heap : Heap} {values : List Value}
    : (overlay.apply (Value.carried heap values)).contains .batchMode = true
      ↔ overlay.forces .batchMode := by
  simp [Overlay.contains_apply, carried_batchMode, Overlay.forces]

/-- There is one operator of this name. -/
theorem eq_rand (member : op ∈ Base.schemas) (named : op.name = "rand")
    : op = Base.factorySchema "rand" := by
  simp only [Base.schemas, List.mem_cons, List.not_mem_nil, or_false] at member
  rcases member with rfl | rfl | rfl | rfl | rfl | rfl | rfl | rfl | rfl | rfl <;>
    first | rfl | exact absurd named (by decide)

end Contract

/-- What is known of the kernels of the standard dispatcher, each on the hook and in the states where it
handles calls.
-/
structure Dispatcher.Handling (budget : Nat)
    (handles : List Layer → Schema → Machine → Capability → Kernel → Prop)
    : Prop where
  /-- Kernels that need a layer where none is active. -/
  unhandled
    : ∀ {owners op machine capability exit} {kernel : Kernel},
        kernel.run (nested budget) op machine = .error exit machine
        → exit.Inactive
        → handles owners op machine capability kernel
  base
    : ∀ {op machine kernel},
        machine.Poses op
        → machine.AtBase
        → baseKernel? op.name = some kernel
        → (Value.tensorsAll (machine.lastValues op.arity)).all Tensor.isDense = true
        → handles [] op machine .backend kernel
  outside
    : ∀ {op machine},
        machine.Poses op
        → machine.AtBase
        → machine.Carries op .taggedWrapper
        → handles [] op machine .taggedWrapper deadWrapperFallback
  enter
    : ∀ {op machine layer below},
        machine.Poses op
        → machine.Above layer below
        → machine.thread.overlay.forces .entryInterceptor
        → handles (layer :: below) op machine .entryInterceptor entryInterceptor
  differentiate
    : ∀ {op machine layer below},
        machine.Poses op
        → machine.InBody layer below
        → layer.kind = .differentiation
        → machine.thread.overlay.excluded.contains .differentiation = false
        → machine.Carries op .differentiation
        → handles (layer :: below) op machine .differentiation differentiationBody
  leaveDifferentiation
    : ∀ {op machine layer below},
        machine.Poses op
        → machine.InBody layer below
        → layer.kind = .differentiation
        → (machine.Carries op .differentiation
          → machine.thread.overlay.excluded.contains .differentiation = true)
        → handles (layer :: below) op machine .exitInterceptor exitInterceptor
  /-- Batches have been taken care of, or there are none, and so have random operators. -/
  leaveBatching
    : ∀ {op machine layer below owners},
        machine.Poses op
        → machine.InBody layer below
        → layer.kind = .batching
        → (op.name = "rand" → ¬machine.thread.overlay.forces .batchMode)
        → (owners = below ∧ machine.thread.overlay.excluded.contains .batched = true)
          ∨ (owners = layer :: below
            ∧ (Value.carried machine.heap (machine.lastValues op.arity)).contains .batched = false)
        → handles owners op machine .exitInterceptor exitInterceptor
  pointwise
    : ∀ {op machine layer below},
        machine.Poses op
        → machine.InBody layer below
        → layer.kind = .batching
        → machine.thread.overlay.excluded.contains .batched = false
        → machine.Carries op .batched
        → op.name ∈ ["add", "mul", "neg"]
        → handles (layer :: below) op machine .batched Batching.pointwise
  unsqueeze
    : ∀ {op machine layer below},
        machine.Poses op
        → machine.InBody layer below
        → layer.kind = .batching
        → machine.thread.overlay.excluded.contains .batched = false
        → machine.Carries op .batched
        → op = Base.schemas[5]
        → handles (layer :: below) op machine .batched Batching.unsqueeze
  addInPlace
    : ∀ {op machine layer below},
        machine.Poses op
        → machine.InBody layer below
        → layer.kind = .batching
        → machine.thread.overlay.excluded.contains .batched = false
        → machine.Carries op .batched
        → op = Base.schemas[8]
        → handles (layer :: below) op machine .batched Batching.addInPlace
  missingRule
    : ∀ {op machine owners}, handles owners op machine .batched Batching.missingRule
  /-- Random operators come to their rule before batches are taken care of. -/
  random
    : ∀ {op machine layer below},
        machine.Poses op
        → machine.InBody layer below
        → layer.kind = .batching
        → machine.thread.overlay.forces .batchMode
        → machine.thread.overlay.excluded.contains .batched = false
        → op = Base.factorySchema "rand"
        → handles (layer :: below) op machine .batchMode Batching.random

namespace Dispatcher.Handling

open Contract

variable {budget : Nat} {handles : List Layer → Schema → Machine → Capability → Kernel → Prop}
  {op : Schema} {machine : Machine} {owners below : List Layer} {layer : Layer}
  {capability : Capability} {kernel : Kernel}

/-- Without an active layer a kernel that asks for it ends where it starts. -/
theorem inactive (handling : Handling budget handles) (inactive : machine.thread.layers = [])
    (next : Layer → Run Unit)
    (asks : kernel.run (nested budget) op = currentLayer >>= next)
    : handles owners op machine capability kernel := by
  refine @unhandled _ _ handling owners op machine capability (.fault .noActiveLayer) kernel ?_
    .body
  rw [asks]
  simp [currentLayer, topLayer?, bind_apply, read_apply, inactive, fault_apply]

/-- The rules of batching layers, where some argument is batched. The cases are the base operators:
three share the rule for element-wise operators, two have their own, and the others have none.
-/
theorem batchRule (handling : Handling budget handles) (poses : machine.Poses op)
    (within : machine.InBody layer below) (kind : layer.kind = .batching)
    (shown : machine.thread.overlay.excluded.contains .batched = false)
    (carries : machine.Carries op .batched)
    : handles (layer :: below) op machine .batched (Dispatcher.batchRule op.name) := by
  have listed := poses.member
  simp only [Base.schemas, List.mem_cons, List.not_mem_nil, or_false] at listed
  rcases listed with rfl | rfl | rfl | rfl | rfl | rfl | rfl | rfl | rfl | rfl
  · exact handling.pointwise poses within kind shown carries (by decide)
  · exact handling.pointwise poses within kind shown carries (by decide)
  · exact handling.pointwise poses within kind shown carries (by decide)
  · exact handling.missingRule
  · exact handling.missingRule
  · exact handling.unsqueeze poses within kind shown carries rfl
  · exact handling.missingRule
  · exact handling.missingRule
  · exact handling.addInPlace poses within kind shown carries rfl
  · exact handling.missingRule

/-- Without an active layer no rule of batching layers handles a call. -/
theorem batchRule_inactive (handling : Handling budget handles)
    (inactive : machine.thread.layers = []) (name : String)
    : handles owners op machine .batched (Dispatcher.batchRule name) := by
  unfold Dispatcher.batchRule
  split
  · exact handling.inactive inactive _ rfl
  · exact handling.inactive inactive _ rfl
  · exact handling.inactive inactive _ rfl
  · exact handling.inactive inactive _ rfl
  · exact handling.inactive inactive _ rfl
  · exact handling.missingRule

/-- Below all layers the chain of kernels comes down to three cases: a kernel that misses its layer,
the fallback for dead tags, or the base kernel on dense arguments.
-/
theorem select_base (handling : Handling budget handles) (poses : machine.Poses op)
    (atBase : machine.AtBase)
    (selected
      : standard.select op
          (machine.thread.overlay.apply
            (Value.carried machine.heap (machine.lastValues op.arity)))
        = some (capability, kernel))
    : handles [] op machine capability kernel := by
  by_cases backend : capability = .backend
  · subst backend
    obtain ⟨found, -, batched, -, tagged, -⟩ := select_backend selected
    refine handling.base poses atBase found ?_
    simp only [atBase.overlay, Overlay.contains_apply, CapabilitySet.contains_empty, Bool.or_false,
      Bool.not_false, Bool.and_true, reduceCtorEq, decide_false] at batched tagged
    exact Value.dense_of_carried tagged batched
  have inactive := atBase.layers
  rw [select_standard] at selected
  split at selected
  · cases selected
    refine @unhandled _ _ handling _ op machine _ (.fault (.entryWithoutLayer op.name)) _ ?_
      (.entry op.name)
    simp [entryInterceptor, topLayer?, bind_apply, read_apply, inactive, fault_apply]
  split at selected
  · cases selected
    exact handling.inactive inactive _ rfl
  split at selected
  · cases selected
    exact handling.batchRule_inactive inactive op.name
  split at selected
  · cases selected
    exact handling.inactive inactive _ rfl
  split at selected
  · rename_i tagged
    cases selected
    refine handling.outside poses atBase ?_
    simpa [Machine.Carries, atBase.overlay, Overlay.contains_apply] using tagged
  split at selected
  · cases selected
    exact handling.inactive inactive _ rfl
  split at selected
  · obtain ⟨base, -, chosen⟩ := Option.map_eq_some_iff.mp selected
    cases chosen
    exact absurd rfl backend
  · cases selected

/-- Wherever a call is, what is known holds of the kernel that handles it. For each place the
overlay says which hooks are hidden and which are forced on, and this leaves the kernels that the
fields of `Handling` speak of.
-/
theorem select (handling : Handling budget handles) (poses : machine.Poses op)
    (calling : machine.Calling op owners)
    (selected
      : standard.select op
          (machine.thread.overlay.apply
            (Value.carried machine.heap (machine.lastValues op.arity)))
        = some (capability, kernel))
    : handles owners op machine capability kernel := by
  obtain ⟨-, owning, drawn⟩ := calling
  generalize ambient : machine.ambient = present at owning
  cases owning with
  | base layers overlay =>
      subst ambient
      exact handling.select_base poses ⟨layers, overlay⟩ selected
  | front active grounded front =>
      subst ambient
      have front : machine.thread.overlay.forces .entryInterceptor := front
      rw [select_front _ front] at selected
      cases selected
      cases layers : machine.ambient.layers with
      | nil => exact absurd layers active
      | cons layer below =>
          rw [layers] at grounded
          exact handling.enter poses ⟨layers, grounded⟩ front
  | body top grounded inBody shown =>
      rename_i layer below
      subst ambient
      have within : machine.InBody layer below := ⟨⟨top, grounded⟩, inBody⟩
      have inBody : machine.thread.overlay.InBody layer.kind := inBody
      cases kind : layer.kind with
      | differentiation =>
          rw [kind] at inBody
          rw [select_differentiation _ inBody] at selected
          split at selected
          · rename_i reachable
            cases selected
            obtain ⟨carries, shown⟩ := Bool.and_eq_true_iff.mp reachable
            refine handling.differentiate poses within kind ?_ carries
            simpa using shown
          · rename_i unreachable
            cases selected
            refine handling.leaveDifferentiation poses within kind fun carries => ?_
            have carries
                : (Value.carried machine.heap (machine.lastValues op.arity)).contains .differentiation
                  = true :=
              carries
            simpa [carries] using unreachable
      | batching =>
          rw [kind] at inBody
          have shown : machine.thread.overlay.excluded.contains .batched = false := shown kind
          rw [select_batching _ inBody] at selected
          split at selected
          · rename_i random
            cases selected
            exact handling.random poses within kind (apply_batchMode.mp random.1) shown
              (eq_rand poses.member random.2)
          rename_i drawn
          split at selected
          · rename_i reachable
            cases selected
            exact handling.batchRule poses within kind shown (Bool.and_eq_true_iff.mp reachable).1
          · rename_i absent
            cases selected
            refine handling.leaveBatching poses within kind ?_ (Or.inr ⟨rfl, ?_⟩)
            · exact fun named forces => drawn ⟨apply_batchMode.mpr forces, named⟩
            · simpa [shown] using absent
  | leaving top grounded kind inBody hidden =>
      rename_i layer
      subst ambient
      have inBody : machine.thread.overlay.InBody .batching := inBody
      have hidden : machine.thread.overlay.excluded.contains .batched = true := hidden
      have within : machine.InBody layer owners := ⟨⟨top, grounded⟩, by rwa [kind]⟩
      rw [select_batching _ inBody, hidden, Bool.not_true, Bool.and_false] at selected
      split at selected
      · rename_i random
        cases selected
        have shown := (apply_batchMode.mp random.1).2
        rcases drawn random.2 with same | hides
        · rw [within.top] at same
          exact absurd same List.ne_cons_self
        · rw [shown] at hides
          cases hides
      · rename_i unselected
        cases selected
        refine handling.leaveBatching poses within kind ?_ (Or.inl ⟨rfl, hidden⟩)
        exact fun named forces => unselected ⟨apply_batchMode.mpr forces, named⟩

end Dispatcher.Handling

namespace Contract

variable {contract : Contract} {budget : Nat} {op : Schema} {machine : Machine}

/-- A kernel that keeps a contract where it handles calls keeps it on whatever hook. The fields of
both structures correspond one by one.
-/
theorem Kept.handling (kept : contract.Kept) (holds : contract.Holds budget)
    : Handling budget fun owners op machine _ kernel =>
        contract (budget + 1) owners op machine (kernel.run (nested budget) op) where
  unhandled ended inactive := kept.unhandled ended inactive.unhandled
  base := kept.base
  outside poses atBase _ := kept.outside holds poses atBase
  enter := kept.enter holds
  differentiate := kept.differentiate holds
  leaveDifferentiation := kept.leaveDifferentiation holds
  leaveBatching poses within kind past owned :=
    kept.leaveBatching holds poses within kind past (owned.imp And.left id)
  pointwise := kept.pointwise holds
  unsqueeze := kept.unsqueeze holds
  addInPlace := kept.addInPlace holds
  missingRule := kept.missingRule
  random := kept.random holds

/-- A call with too few boxed values ends where it starts, when its dispatch set is asked for. -/
theorem dispatchSet_short (short : ¬op.arity ≤ machine.values.length)
    : dispatchSet op machine
      = .error (.fault (.stackUnderflow op.arity machine.values.length)) machine := by
  have counted
      : lastStart op.arity machine
        = .error (.fault (.stackUnderflow op.arity machine.values.length)) machine := by
    rw [lastStart, bind_apply]
    change (if op.arity ≤ machine.values.length then pure _ else fault _ : Run Nat) machine = _
    rw [if_neg short]
    rfl
  rw [dispatchSet, bind_apply, peek, bind_apply, counted]

/-- A call is handled by the kernel that its dispatch set selects, or refused if there is none. This
is the definition of dispatch, with the state of the dispatch set worked out.
-/
theorem dispatchWithin_apply (enough : op.arity ≤ machine.values.length) (budget : Nat)
    : standard.dispatchWithin (budget + 1) op machine
      = (match
          standard.select op
            (machine.thread.overlay.apply
              (Value.carried machine.heap (machine.lastValues op.arity))) with
        | some (capability, kernel) =>
            Run.traced op.name capability (kernel.run (nested budget) op)
        | none =>
            fail (.noKernel op.name
              (machine.thread.overlay.apply
                (Value.carried machine.heap (machine.lastValues op.arity))))) machine := by
  have found
      : dispatchSet op machine
        = .ok
            (machine.thread.overlay.apply
              (Value.carried machine.heap (machine.lastValues op.arity)))
            machine := by
    rw [dispatchSet, bind_apply, peek_apply enough]
    rfl
  rw [dispatchWithin, bind_apply, found]
  rfl

/-- A contract that calls keep as far as the kernels that are selected for them do is kept by all
calls, however deep they nest. It may be another one for calls that may not nest at all. The
induction is on the room to nest; every other statement of this kind is a case of this one.
-/
theorem holds_of_kernels
    (congr
      : ∀ {budget owners op machine} {body other : Run Unit},
          body machine = other machine
          → contract budget owners op machine other
          → contract budget owners op machine body)
    (cut
      : ∀ {owners op machine},
          machine.Calling op owners → contract 0 owners op machine (fault .diverged))
    (unselected
      : ∀ {budget owners op machine exit} {body : Run Unit},
          body machine = .error exit machine
          → exit.Unselected
          → contract (budget + 1) owners op machine body)
    (selects
      : ∀ {budget owners op machine capability kernel},
          contract.Holds budget
          → machine.Poses op
          → machine.Calling op owners
          → standard.select op
                (machine.thread.overlay.apply
                  (Value.carried machine.heap (machine.lastValues op.arity)))
              = some (capability, kernel)
          → contract (budget + 1) owners op machine
              (Run.traced op.name capability (kernel.run (nested budget) op)))
    (budget : Nat)
    : contract.Holds budget := by
  induction budget with
  | zero => exact cut
  | succ budget ih =>
      intro op machine owners calling
      by_cases enough : op.arity ≤ machine.values.length
      · refine congr (dispatchWithin_apply enough budget) ?_
        split
        · rename_i capability kernel selected
          exact selects ih ⟨calling.member, enough⟩ calling selected
        · exact unselected (fail_apply _ machine) (.unknown _ _)
      · have short
            : standard.dispatchWithin (budget + 1) op machine
              = .error (.fault (.stackUnderflow op.arity machine.values.length)) machine := by
          rw [dispatchWithin, bind_apply, dispatchSet_short enough]
        exact unselected short (.short _ _)

/-- The same where it is of no account which calls are not handled. -/
theorem holds_of_selected
    (congr
      : ∀ {budget owners op machine} {body other : Run Unit},
          body machine = other machine
          → contract budget owners op machine other
          → contract budget owners op machine body)
    (unhandled
      : ∀ {budget owners op machine exit} {body : Run Unit},
          body machine = .error exit machine
          → exit.Unhandled
          → contract budget owners op machine body)
    (selects
      : ∀ {budget owners op machine capability kernel},
          contract.Holds budget
          → machine.Poses op
          → machine.Calling op owners
          → standard.select op
                (machine.thread.overlay.apply
                  (Value.carried machine.heap (machine.lastValues op.arity)))
              = some (capability, kernel)
          → contract (budget + 1) owners op machine
              (Run.traced op.name capability (kernel.run (nested budget) op)))
    (budget : Nat)
    : contract.Holds budget := by
  refine @holds_of_kernels contract congr ?_ ?_ selects budget
  · exact fun _ => unhandled (fault_apply .diverged _) .nested
  · exact fun ended unselected => unhandled ended unselected.unhandled

/-- A contract that every kernel keeps is kept by all calls, however deep they nest. The kernels
need not be looked at together: each field of `Kept` speaks of one kernel where it handles calls.
-/
theorem Kept.holds (kept : contract.Kept) (budget : Nat) : contract.Holds budget := by
  refine @holds_of_selected contract kept.congr kept.unhandled ?_ budget
  intro _ owners op machine capability _ holds poses calling selected
  have poses : (machine.inSpan op.name capability).Poses op := ⟨poses.member, poses.enough⟩
  have calling : (machine.inSpan op.name capability).Calling op owners :=
    ⟨calling.member, calling.owning, calling.drawn⟩
  exact kept.traced ((kept.handling holds).select poses calling selected)

end Contract

/-- Under a built stack a call by name leaves what the call of the operator leaves. -/
theorem Dispatcher.leaves_standard {machine : Machine} {name : String} {arguments : List Value}
    {ok : List Value → List Value → Memory → Prop} {failed : Exit → Memory → Prop}
    (built : machine.Built)
    (refused
      : ∀ error,
          (∀ op, standard.schema? name = some op → arguments.length ≠ op.arity)
          → failed (.error error) machine.memory)
    (inner
      : ∀ op,
          op.name = name
          → arguments.length = op.arity
          → Machine.Calling { machine with values := arguments } op machine.thread.layers
          → ((nested (standard.budget machine.thread.layers.length)).dispatch op).Leaves
              { machine with values := arguments }
              (fun _ left memory => ok left machine.values memory) failed)
    : (standard.call name arguments).Leaves machine ok failed := by
  refine (quiet_read _).leaves_step rfl (.call refused ?_)
  intro op found count
  rcases schema?_standard found with ⟨member, named⟩
  exact inner op named count (.of_layers member built.founded.owners rfl)

end LayeredDispatch
