import LayeredDispatch.Dispatcher.Standard
import LayeredDispatch.Proofs.Dispatch.Ends
import LayeredDispatch.Guard
import Mathlib.Logic.Relation

/-! Programs that nest scopes to any depth. A program calls operators, tags values and opens scopes;
each of these may give values, an error or a fault, and the program may go on after all three, or end
in any of them wherever it is. Main statement: what a program does is what its parts do one after
another.
-/

namespace LayeredDispatch

open Run

/-- How a computation ends unless it aborts. -/
inductive Ending where
  | gives (values : List Value)
  | refuses (error : DispatchError)
  | faults (fault : Fault)

/-- The computation that ends in this way. -/
def Ending.finish : Ending → Run (List Value)
  | .gives values => return values
  | .refuses error => fail error
  | .faults fault => Run.fault fault

/-- Goes on after a computation, however it ends, unless it aborts. -/
def Run.andThen (body : Run (List Value)) (next : Ending → Run (List Value)) : Run (List Value) :=
  fun machine =>
    match body machine with
    | .ok values reached => next (.gives values) reached
    | .error (.error error) reached => next (.refuses error) reached
    | .error (.fault fault) reached => next (.faults fault) reached
    | .error .abort reached => .error .abort reached

/-- What a program may do that leaves the scopes alone. -/
inductive Program.Action where
  | call (name : String) (arguments : List Value)
  | tag (value : Tensor) (level : Level)

namespace Program.Action

def run : Action → Run (List Value)
  | .call name arguments => Dispatcher.standard.call name arguments
  | .tag value level => do return [.tensor (← tagAt value level)]

/-- The values that the action is given. -/
def arguments : Action → List Value
  | .call _ arguments => arguments
  | .tag value _ => [.tensor value]

end Program.Action

/-- A scope with a layer of its own. -/
inductive LayerScope where
  | differentiation
  | batching (size : Size) (randomness : Randomness)

/-- Opens the scope. -/
def LayerScope.acquire : LayerScope → Run Scope
  | .differentiation => Scope.differentiation
  | .batching size randomness => Scope.batching size randomness

/-- Runs `body` inside the scope. -/
def LayerScope.run : LayerScope → (Level → Run α) → Run α
  | .differentiation, body => gradScope body
  | .batching size randomness, body => batchScope size randomness body

/-- A scope with a guard. -/
inductive GuardScope where
  | grad (enabled : Bool)
  | forwardGrad (enabled : Bool)
  | exclusion (set : CapabilitySet)

def GuardScope.acquire : GuardScope → Run Guard
  | .grad enabled => Guard.gradMode enabled
  | .forwardGrad enabled => Guard.forwardGradMode enabled
  | .exclusion set => Guard.hide set

/-- A program. The body of a scope with a layer is told the level of the layer, and what follows an
action or a scope is told how it has ended.
-/
inductive Program where
  | finish (ending : Ending)
  | act (action : Program.Action) (next : Ending → Program)
  | layer (scope : LayerScope) (body : Level → Program) (next : Ending → Program)
  | guard (scope : GuardScope) (body : Program) (next : Ending → Program)

namespace Program

def run : Program → Run (List Value)
  | .finish ending => ending.finish
  | .act action next => action.run.andThen fun ending => (next ending).run
  | .layer scope body next =>
      (scope.run fun level => (body level).run).andThen fun ending => (next ending).run
  | .guard scope body next =>
      (holding scope.acquire body.run).andThen fun ending => (next ending).run

end Program

/-- A point in the run of a program: what is left of the program, or of the body of the innermost scope
that is open, and the state.
-/
structure Program.Point where
  program : Program
  machine : Machine

/-- From `machine` the computation ends as `ending` says. -/
def Run.EndsIn (body : Run (List Value)) (machine : Machine) (ending : Ending) (reached : Machine)
    : Prop :=
  body machine = ending.finish reached

/-- The run of a program goes from one point to the next one: past an action, into the body of a scope,
or past a scope whose body has ended.
-/
inductive Program.Step : Program.Point → Program.Point → Prop where
  | acted {action : Action} {next : Ending → Program} {machine reached : Machine} {ending : Ending}
    (ended : action.run.EndsIn machine ending reached)
    : Step ⟨.act action next, machine⟩ ⟨next ending, reached⟩
  | opened {scope : LayerScope} {body : Level → Program} {next : Ending → Program}
    {machine entered : Machine} {opened : Scope}
    (acquired : scope.acquire machine = .ok opened entered)
    : Step ⟨.layer scope body next, machine⟩ ⟨body opened.level, entered⟩
  | closed {scope : LayerScope} {body : Level → Program} {next : Ending → Program}
    {machine left : Machine} {ending : Ending}
    (ended : (scope.run fun level => (body level).run).EndsIn machine ending left)
    : Step ⟨.layer scope body next, machine⟩ ⟨next ending, left⟩
  | held {scope : GuardScope} {body : Program} {next : Ending → Program}
    {machine entered : Machine} {guard : Guard}
    (acquired : scope.acquire machine = .ok guard entered)
    : Step ⟨.guard scope body next, machine⟩ ⟨body, entered⟩
  | released {scope : GuardScope} {body : Program} {next : Ending → Program}
    {machine left : Machine} {ending : Ending}
    (ended : (holding scope.acquire body.run).EndsIn machine ending left)
    : Step ⟨.guard scope body next, machine⟩ ⟨next ending, left⟩

/-- The points that the run of a program meets from a point on. -/
abbrev Program.Meets : Program.Point → Program.Point → Prop :=
  Relation.ReflTransGen Program.Step

/-- Past something that has ended, a program goes on with what follows. -/
theorem Run.andThen_apply {body : Run (List Value)} {next : Ending → Run (List Value)}
    {machine reached : Machine} {ending : Ending} (ended : body.EndsIn machine ending reached)
    : body.andThen next machine = next ending reached := by
  unfold EndsIn at ended
  unfold andThen
  rw [ended]
  cases ending <;> rfl

/-- What is released however a body ends leaves the end of the body as it is. If the cleanup gives a
value, the end of the whole is the one of the body, in the state after the cleanup.
-/
theorem Run.EndsIn.ensuring {body : Run (List Value)} {cleanup : Run Unit}
    {machine reached cleared : Machine} {ending : Ending}
    (ended : body.EndsIn machine ending reached) (cleaned : cleanup reached = .ok () cleared)
    : (Run.ensuring body cleanup).EndsIn machine ending cleared := by
  unfold EndsIn at ended ⊢
  unfold Run.ensuring
  rw [ended]
  cases ending with
  | gives values | refuses error | faults fault =>
      simp only [Ending.finish, pure_apply, fail_apply, fault_apply, cleaned]

/-- A computation ends in one way and in one state. -/
theorem Run.EndsIn.unique {body : Run (List Value)} {machine reached other : Machine}
    {ending final : Ending} (ended : body.EndsIn machine ending reached)
    (again : body.EndsIn machine final other)
    : ending = final ∧ reached = other := by
  have same : ending.finish reached = final.finish other := ended.symm.trans again
  cases ending <;> cases final <;> cases same <;> exact ⟨rfl, rfl⟩

/-- Running a body inside a scope is acquiring the scope and closing it on the way out, for both
kinds of layers.
-/
theorem LayerScope.run_eq (scope : LayerScope) (body : Level → Run α)
    : scope.run body = within scope.acquire body := by
  cases scope <;> rfl

end LayeredDispatch
