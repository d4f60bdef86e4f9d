import LayeredDispatch.Proofs.Dispatch.Scoping

/-! Computations a part of which is exchanged for one that does the same where it is used. Main
statements: such computations compose, also under guards.
-/

namespace LayeredDispatch
namespace Run

/-- From `machine`, `other` does what `body` does, which ends in order and hands the state back. -/
structure Agree (machine : Machine) (body other : Run α) : Prop where
  same : other machine = body machine
  meets : body.Meets machine (fun _ _ _ => True) (fun _ => True)

variable {machine : Machine}

/-- Sequences agree if their parts do, the second ones from wherever the first part has handed the
state back.
-/
theorem Agree.bind {first first' : Run α} {next next' : α → Run β}
    (head : Agree machine first first')
    (tail
      : ∀ value reached, first machine = .ok value reached → machine.Resumes reached
        → Agree reached (next value) (next' value))
    : Agree machine (first >>= next) (first' >>= next') := by
  constructor
  · simp only [bind_apply, head.same]
    cases started : first machine with
    | ok value reached =>
        exact (tail value reached started (head.meets.resumes started)).same
    | error exit reached => rfl
  · exact head.meets.bind fun value reached started resumes _ =>
      (tail value reached started resumes).meets

/-- What hands every state back agrees with itself. -/
theorem Quiet.agree {body : Run α} (h : Quiet body) (machine : Machine)
    : Agree machine body body :=
  ⟨rfl, h machine⟩

/-- A choice agrees with the same choice if each way does where it is taken. -/
theorem Agree.ite {condition : Prop} [Decidable condition]
    {first first' second second' : Run α}
    (yes : condition → Agree machine first first')
    (no : ¬ condition → Agree machine second second')
    : Agree machine (if condition then first else second)
        (if condition then first' else second') := by
  split
  · exact yes ‹_›
  · exact no ‹_›

/-- Bodies under a guard agree if they do wherever the guard may be held.
Acquiring it moves to a known ambient state and cannot fail, so both runs hold the same guard.
-/
theorem Agree.holding {acquire : Run Guard} {ambient : Ambient} {body body' : Run α}
    (moves : Moves acquire machine ambient)
    (inner : ∀ held, machine.Shifted ambient held → Agree held body body')
    : Agree machine (Run.holding acquire body) (Run.holding acquire body') := by
  refine ⟨?_, .holding moves fun held shifted => (inner held shifted).meets⟩
  obtain ⟨guard, held, acquired, shifted, -⟩ := moves
  simp only [Run.holding, bind_apply, acquired, Run.ensuring, (inner held shifted).same]

/-- The same for a guard that is held under a condition: where it does not hold, the state is as it
was.
-/
theorem Agree.holdingIf {condition : Bool} {acquire : Run Guard} {ambient : Ambient}
    {body body' : Run α} (moves : Moves acquire machine ambient)
    (inner
      : ∀ held,
          machine.Shifted (if condition then ambient else machine.ambient) held
          → Agree held body body')
    : Agree machine (Run.holdingIf condition acquire body)
        (Run.holdingIf condition acquire body') := by
  cases condition with
  | true => exact .holding moves inner
  | false => exact inner machine (.refl machine)

/-- Values of a call's own are of no account to the state around it.
What is left of them is read and given along with the value, and then the outer ones are put back.
-/
theorem Agree.onValues {values : List Value} {body body' : Run α}
    (inner : Agree { machine with values } body body')
    : Agree machine (Run.onValues values body) (Run.onValues values body') := by
  have returned
      : Agree { machine with values } (do return (← body, ← read Machine.values))
          (do return (← body', ← read Machine.values)) :=
    inner.bind fun _ reached _ _ => ((quiet_read _).bind fun _ => quiet_pure _).agree reached
  refine ⟨?_, .onValues (inner.meets.mono (fun _ _ _ _ => trivial) (fun _ _ => trivial))⟩
  rw [onValues_apply, onValues_apply, Run.ensuring, Run.ensuring, returned.same]

/-- A trace node that is opened around a body is closed again. -/
theorem Agree.traced {op : String} {capability : Capability} {body body' : Run α}
    (inner : Agree (machine.inSpan op capability) body body')
    : Agree machine (Run.traced op capability body) (Run.traced op capability body') := by
  refine ⟨?_, .traced inner.meets⟩
  rw [traced_apply, traced_apply, Run.ensuring, Run.ensuring, inner.same]

/-- A call that goes on below the top layer hands the state back.
The guards are taken one by one: the top layer is hidden, the gradient modes are set, and the
overlay is
replaced. What they lead to is the ambient state below the layer.
-/
theorem Agree.dispatchBelow {layer : Layer} {below : List Layer} {calls calls' : Calls}
    {op : Schema} (top : machine.thread.layers = layer :: below)
    (level : layer.level = below.length + 1)
    (inner
      : ∀ held : Machine,
          machine.Shifted (machine.ambient.leave layer below) held
          → Agree held (calls.dispatch op) (calls'.dispatch op))
    : Agree machine (dispatchBelow calls op layer) (dispatchBelow calls' op layer) := by
  refine .holding (moves_hideTop top level) ?_
  intro popped atPopped
  refine .holdingIf (moves_gradMode false popped) ?_
  intro gradSet atGradSet
  refine .holdingIf (moves_forwardGradMode false gradSet) ?_
  intro start atStart
  refine ((quiet_writing.overlayBelow op layer).agree start).bind ?_
  intro overlay checked ran _
  refine .holding (moves_replaceOverlay overlay checked) ?_
  intro held atHeld
  refine (inner held (shifted_leave atPopped atGradSet atStart ran atHeld)).bind ?_
  intro _ reached _ _
  exact Quiet.agree (quiet_writing.reenter _) reached

end Run
end LayeredDispatch
