import LayeredDispatch.Proofs.Dispatch.Ends

/-! The part of a state that decides where calls go, and computations that hand it back. A
computation may leave the interceptors included where layers are active: the guards around it
repair this. Main statement: computations that hand the state back compose.
-/

namespace LayeredDispatch

/-- What decides where calls go: the layers, the overlay and the gradient modes. -/
structure Ambient where
  layers : List Layer
  overlay : Overlay
  grad : Bool
  forwardGrad : Bool
  deriving DecidableEq

/-- The ambient state of the running thread. -/
def Machine.ambient (machine : Machine) : Ambient where
  layers := machine.thread.layers
  overlay := machine.thread.overlay
  grad := machine.thread.grad
  forwardGrad := machine.thread.forwardGrad

/-- The levels of the layers, given top first, count down to one at the bottom. -/
def Layer.Levelled : List Layer → Prop
  | [] => True
  | layer :: below => layer.level = below.length + 1 ∧ Levelled below

/-- The calls that have not ended, innermost first. Each call that ends adds a child to the innermost
one, whose children are left out for this reason.
-/
def Recorder.spans (recorder : Recorder) : List TraceNode :=
  match recorder.opened with
  | [] => []
  | innermost :: outer => { innermost with children := [] } :: outer

/-- Closing a node leaves the nodes around it open.
The children of the innermost open node do not count as part of what is open, so it makes no
difference
that the closed node is added to them.
-/
theorem Recorder.spans_leave {before after : Recorder} {op : String} {capability : Capability}
    (h : after.spans = (before.enter op capability).spans)
    : after.leave.spans = before.spans := by
  obtain ⟨opened, roots⟩ := after
  obtain ⟨outer, earlier⟩ := before
  cases opened with
  | nil => cases h
  | cons node around =>
      obtain rfl : around = outer := (List.cons.inj h).2
      cases around <;> rfl

/-- The state in which a kernel runs: its trace node is open, if a trace is being recorded. -/
def Machine.inSpan (machine : Machine) (op : String) (capability : Capability) : Machine :=
  { machine with thread := { machine.thread with
    recorder := machine.thread.recorder.map fun recorder => recorder.enter op capability } }

namespace Ambient

/-- The ambient state with hooks hidden. -/
def hide (ambient : Ambient) (set : CapabilitySet) : Ambient :=
  { ambient with
    overlay := { ambient.overlay with excluded := ambient.overlay.excluded ∪ set } }

/-- The ambient state in which the body of a layer of some kind runs. -/
def enter (ambient : Ambient) (kind : TransformKind) : Ambient :=
  { ambient with overlay := kind.entryOverlay ambient.overlay }

/-- The ambient state in which a call goes on below the top layer. -/
def leave (ambient : Ambient) (layer : Layer) (below : List Layer) : Ambient where
  layers := below
  overlay := if below.isEmpty then layer.saved else ambient.overlay.front
  grad := if layer.transform.priorGrad? = some false then false else ambient.grad
  forwardGrad :=
    if layer.transform.priorForwardGrad? = some false then false else ambient.forwardGrad

/-- The ambient state with the interceptors included. -/
def intercepting (ambient : Ambient) : Ambient :=
  { ambient with overlay := ambient.overlay.setInterception true }

end Ambient

/-- `held` is `machine` with another ambient state. -/
structure Machine.Shifted (machine : Machine) (ambient : Ambient) (held : Machine) : Prop where
  ambient : held.ambient = ambient
  values : held.values = machine.values
  heap : held.heap = machine.heap
  registry : held.registry = machine.registry
  settings : held.settings = machine.settings
  generator : held.thread.generator = machine.thread.generator

theorem Machine.Shifted.refl (machine : Machine) : machine.Shifted machine.ambient machine :=
  ⟨rfl, rfl, rfl, rfl, rfl, rfl⟩

/-- Two shifts in a row lead to the second ambient state, with everything else as it was. -/
theorem Machine.Shifted.trans {machine middle held : Machine} {ambient ambient' : Ambient}
    (first : machine.Shifted ambient middle) (second : middle.Shifted ambient' held)
    : machine.Shifted ambient' held :=
  ⟨second.ambient, second.values.trans first.values, second.heap.trans first.heap,
    second.registry.trans first.registry, second.settings.trans first.settings,
    second.generator.trans first.generator⟩

-----------------------------------------------------------------------------------------
-- States that are handed back
-----------------------------------------------------------------------------------------

/-- What a call may do to a state as far as routing, levels and traces are concerned: nothing but
include the interceptors where layers are active.
-/
structure Machine.Resumes (start reached : Machine) : Prop where
  layers : reached.thread.layers = start.thread.layers
  overlay
    : reached.thread.overlay = start.thread.overlay
      ∨ (start.thread.layers ≠ []
        ∧ reached.thread.overlay = start.thread.overlay.setInterception true)
  grad : reached.thread.grad = start.thread.grad
  forwardGrad : reached.thread.forwardGrad = start.thread.forwardGrad
  spans
    : reached.thread.recorder.map Recorder.spans = start.thread.recorder.map Recorder.spans
  registry : reached.registry = start.registry
  flags : reached.heap.flags = start.heap.flags

/-- The hooks that are hidden are the same: including the interceptors changes the other mask. -/
theorem Machine.Resumes.excluded {start reached : Machine} (h : start.Resumes reached)
    : reached.thread.overlay.excluded = start.thread.overlay.excluded := by
  rcases h.overlay with same | ⟨_, included⟩
  · rw [same]
  · rw [included]
    rfl

/-- Including the interceptors twice is including them once. -/
theorem Overlay.setInterception_idem (overlay : Overlay)
    : (overlay.setInterception true).setInterception true = overlay.setInterception true := by
  simp only [setInterception, setIncluded, CapabilitySet.set, CapabilitySet.insert, if_true,
    Overlay.mk.injEq, CapabilitySet.mk.injEq, and_true]
  grind

/-- Including them again after they were taken out is including them, bit by bit. -/
theorem Overlay.setInterception_false_true (overlay : Overlay)
    : (overlay.setInterception false).setInterception true = overlay.setInterception true := by
  simp only [setInterception, setIncluded, CapabilitySet.set, CapabilitySet.insert,
    CapabilitySet.erase, if_true, if_false, Bool.false_eq_true, Overlay.mk.injEq,
    CapabilitySet.mk.injEq, and_true]
  ext i
  simp
  grind

namespace Machine.Resumes

theorem refl (machine : Machine) : machine.Resumes machine :=
  ⟨rfl, Or.inl rfl, rfl, rfl, rfl, rfl, rfl⟩

/-- Values, heap cells, log and generator are of no account. -/
theorem of_eq {start reached : Machine} (ambient : reached.ambient = start.ambient)
    (recorder : reached.thread.recorder = start.thread.recorder)
    (registry : reached.registry = start.registry)
    (flags : reached.heap.flags = start.heap.flags)
    : start.Resumes reached where
  layers := congrArg Ambient.layers ambient
  overlay := Or.inl (congrArg Ambient.overlay ambient)
  grad := congrArg Ambient.grad ambient
  forwardGrad := congrArg Ambient.forwardGrad ambient
  spans := congrArg (Option.map Recorder.spans) recorder
  registry := registry
  flags := flags

/-- What is handed back twice has been handed back.
If either part has included the interceptors, both have; including them again changes nothing.
-/
theorem trans {start middle reached : Machine} (first : start.Resumes middle)
    (second : middle.Resumes reached)
    : start.Resumes reached where
  layers := second.layers.trans first.layers
  overlay := by
    rcases second.overlay with same | ⟨active, included⟩
    · rw [same]
      exact first.overlay
    · rw [first.layers] at active
      rcases first.overlay with same | ⟨_, already⟩
      · exact Or.inr ⟨active, by rw [included, same]⟩
      · exact Or.inr ⟨active, by rw [included, already, Overlay.setInterception_idem]⟩
  grad := second.grad.trans first.grad
  forwardGrad := second.forwardGrad.trans first.forwardGrad
  spans := second.spans.trans first.spans
  registry := second.registry.trans first.registry
  flags := second.flags.trans first.flags

/-- The ambient state that is handed back is the one before, or that with the interceptors. -/
theorem ambient {start reached : Machine} (h : start.Resumes reached)
    : reached.ambient = start.ambient
      ∨ (start.thread.layers ≠ [] ∧ reached.ambient = start.ambient.intercepting) := by
  rcases h.overlay with same | ⟨active, included⟩
  · left
    simp only [Machine.ambient, h.layers, same, h.grad, h.forwardGrad]
  · right
    refine ⟨active, ?_⟩
    simp only [Machine.ambient, Ambient.intercepting, h.layers, included, h.grad, h.forwardGrad]

end Machine.Resumes

/-- Ways of ending that the kernels of the standard dispatcher have: none aborts, none is a push
at a wrong level, and none is worded by a kernel of another dispatcher.
-/
def Exit.Orderly : Exit → Prop
  | .error _ => True
  | .fault (.unexpectedPush ..) => False
  | .fault (.stated _) => False
  | .fault _ => True
  | .abort => False

/-- A pure computation that gives a value or ends in order. -/
def Outcome.Orderly (outcome : Outcome α) : Prop :=
  ∀ exit, outcome = .error exit → exit.Orderly

end LayeredDispatch
