import LayeredDispatch.Proofs.Dispatch.Exchange

/-! Every call of the standard dispatcher restores the running thread, whether it gives values, is
refused or faults. Main statement: layers, overlay, gradient modes, registered levels and open trace
nodes are afterwards what they were before.
-/

namespace LayeredDispatch

open Run

/-- The levels of the layers count up from one at the bottom, and the interceptors are included
exactly while a layer is active.
-/
structure Thread.Standing (thread : Thread) : Prop where
  levelled : Layer.Levelled thread.layers
  entry : thread.overlay.included.contains .entryInterceptor = !thread.layers.isEmpty
  exit : thread.overlay.included.contains .exitInterceptor = !thread.layers.isEmpty

/-- What a call may not change. -/
structure Machine.Restored (start reached : Machine) : Prop where
  layers : reached.thread.layers = start.thread.layers
  overlay : reached.thread.overlay = start.thread.overlay
  grad : reached.thread.grad = start.thread.grad
  forwardGrad : reached.thread.forwardGrad = start.thread.forwardGrad
  registry : reached.registry = start.registry
  spans
    : reached.thread.recorder.map Recorder.spans = start.thread.recorder.map Recorder.spans

/-- Adding a member changes nothing, the unnamed bits included. The sets are compared bit by bit,
and the bit of the member is on already.
-/
theorem CapabilitySet.insert_eq_self {set : CapabilitySet} {capability : Capability}
    (member : set.contains capability = true)
    : set.insert capability = set := by
  refine congrArg CapabilitySet.mk (BitVec.eq_of_getLsbD_eq ?_)
  intro i inRange
  rw [BitVec.getLsbD_or, bit, BitVec.getLsbD_twoPow]
  by_cases same : capability.priority = i
  · subst same
    have present : set.bits.getLsbD capability.priority = true := member
    rw [present, Bool.true_or]
  · rw [decide_eq_false same, Bool.and_false, Bool.or_false]

/-- Interceptors that are included already are included without a change. -/
theorem Overlay.setInterception_included {overlay : Overlay}
    (entry : overlay.included.contains .entryInterceptor = true)
    (exit : overlay.included.contains .exitInterceptor = true)
    : overlay.setInterception true = overlay := by
  simp only [setInterception, setIncluded, CapabilitySet.set, if_true,
    CapabilitySet.insert_eq_self entry, CapabilitySet.insert_eq_self exit]

/-- On a standing thread a state that resumes is restored: the one thing that may differ is the
inclusion of the interceptors, which were included already.
-/
theorem Machine.Resumes.restored {start reached : Machine} (standing : start.thread.Standing)
    (h : start.Resumes reached)
    : start.Restored reached := by
  refine { h with overlay := ?_ }
  rcases h.overlay with same | ⟨active, included⟩
  · exact same
  · have active : start.thread.layers.isEmpty = false := by simpa using active
    have entry := standing.entry
    have exit := standing.exit
    rw [active] at entry exit
    rw [included, Overlay.setInterception_included entry exit]

/-- All states whose layers have the levels of their positions. -/
def Regime.levels : Regime where
  admits ambient := Layer.Levelled ambient.layers
  levelled h := h
  intercepting h _ := h
  hide h _ _ _ := h
  enter h _ := h
  leave h top := by
    rw [top] at h
    exact h.2

/-- Base kernels agree with themselves. With this the statements about exchanges of base kernels
speak of one dispatcher, of which they say that its calls hand the state back.
-/
theorem Regime.baseAgrees_id (regime : Regime) : regime.BaseAgrees id := by
  intro machine op set kernel calls other _ _ selected
  exact Dispatcher.agree_baseKernel (Dispatcher.select_backend selected).1 calls other op _

/-- A call that ends, in whatever way, leaves the thread as it was. No layer that a guard pushes
back during this is pushed at a wrong level.
-/
theorem Dispatcher.call_restores (machine : Machine) (name : String) (arguments : List Value)
    (standing : machine.thread.Standing)
    : (standard.call name arguments).Ends machine
        (fun _ reached => machine.Restored reached)
        (fun exit reached =>
          exit ≠ .abort
          ∧ (∀ layer expected, exit ≠ .fault (.unexpectedPush layer expected))
          ∧ machine.Restored reached) := by
  have agree := Regime.agree_call Regime.levels.baseAgrees_id name arguments machine
    standing.levelled
  refine Ends.mono agree.meets (fun _ _ left => left.1.restored standing) ?_
  rintro exit reached ⟨orderly, resumes, -⟩
  refine ⟨?_, ?_, resumes.restored standing⟩
  · rintro rfl
    exact orderly
  · rintro layer expected rfl
    exact orderly

/-- Witness: batching over differentiation, gradients off, one hook and one bit without a name hidden
by the caller. The sum of a batch is refused for want of a rule, by the layer on top; the negative of
a value that is tagged above both layers faults, in the layer below. Both leave the thread as it was.
-/
theorem Dispatcher.call_restores_without_rule
    : ∃ machine refused faulted : Machine,
        machine.thread.Standing
        ∧ machine.thread.layers.map Layer.kind = [.batching, .differentiation]
        ∧ machine.thread.overlay.excluded = ⟨0x8010⟩
        ∧ machine.thread.grad = false
        ∧ standard.call "sum" [.tensor (.batched 0 2 (.dense 0))] machine
          = .error (.error (.missingBatchRule "sum")) refused
        ∧ machine.Restored refused
        ∧ standard.call "neg" [.tensor (.tagged 0 3 2 (.dense 0))] machine
          = .error (.fault (.escaped 3 1)) faulted
        ∧ machine.Restored faulted := by
  let start : Machine :=
    { thread :=
        { layers := [⟨.batching 2 .error, 2, {}⟩, ⟨.differentiation (some false) none, 1, {}⟩]
          overlay :=
            { included := .ofList [.entryInterceptor, .exitInterceptor]
              excluded := ⟨0x8010⟩ }
          grad := false }
      registry := { entries := [(1, 0), (2, 1)] }
      heap := { storages := #[⟨⟨[2, 3]⟩, #[1, 2, 3, 4, 5, 6]⟩], flags := #[true, true, true] } }
  obtain ⟨machine, standing, kinds, hidden, grad, unruled, escapes⟩
      : ∃ machine : Machine,
          machine.thread.Standing
          ∧ machine.thread.layers.map Layer.kind = [.batching, .differentiation]
          ∧ machine.thread.overlay.excluded = ⟨0x8010⟩
          ∧ machine.thread.grad = false
          ∧ (standard.call "sum" [.tensor (.batched 0 2 (.dense 0))]).exit? machine
            = some (.error (.missingBatchRule "sum"))
          ∧ (standard.call "neg" [.tensor (.tagged 0 3 2 (.dense 0))]).exit? machine
            = some (.fault (.escaped 3 1)) :=
    ⟨start, ⟨⟨rfl, rfl, trivial⟩, by decide, by decide⟩, rfl, rfl, rfl, by decide +kernel,
      by decide +kernel⟩
  obtain ⟨refused, ended⟩ := exit?_eq_some.mp unruled
  obtain ⟨faulted, ended'⟩ := exit?_eq_some.mp escapes
  refine ⟨machine, refused, faulted, standing, kinds, hidden, grad, ended, ?_, ended', ?_⟩
  · exact (Ends.of_error (call_restores machine _ _ standing) ended).2.2
  · exact (Ends.of_error (call_restores machine _ _ standing) ended').2.2

end LayeredDispatch
