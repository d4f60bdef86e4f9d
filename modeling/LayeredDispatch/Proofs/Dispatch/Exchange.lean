import LayeredDispatch.Proofs.Dispatch.Regime

/-! Dispatchers whose base kernels are exchanged for others. Main statement: if a base kernel and
what it is exchanged for agree wherever calls reach the base, then all calls of the two dispatchers
agree.
-/

namespace LayeredDispatch

open Run

/-- The table with the kernel of the base exchanged. -/
def KernelTable.overBase (change : Kernel → Kernel) (table : KernelTable) : KernelTable :=
  fun capability =>
    if capability = .backend then (table capability).map change else table capability

namespace Dispatcher

/-- The dispatcher with all base kernels exchanged. -/
def overBase (change : Kernel → Kernel) (dispatcher : Dispatcher) : Dispatcher where
  operators :=
    dispatcher.operators.map fun operator =>
      { operator with kernels := operator.kernels.overBase change }
  fallbacks := dispatcher.fallbacks.overBase change

variable (change : Kernel → Kernel) (dispatcher : Dispatcher)

/-- The same names are known to the dispatcher under an exchange, and the operator found under a
name is the old one but for the kernel of the base.
-/
theorem operator?_overBase (name : String)
    : (dispatcher.overBase change).operator? name =
        (dispatcher.operator? name).map fun operator =>
          { operator with kernels := operator.kernels.overBase change } := by
  simp only [operator?, overBase, List.find?_map]
  rfl

/-- An exchange of base kernels changes no schema, so calls by name find the same operators. -/
theorem schema?_overBase : (dispatcher.overBase change).schema? = dispatcher.schema? := by
  funext name
  simp only [schema?, operator?_overBase, Option.map_map]
  rfl

/-- The table of an operator under an exchange is the old table with the base exchanged. The
fallbacks are exchanged too, which is what makes this hold of operators that are not in the list.
-/
theorem kernel?_overBase (op : Schema)
    : (dispatcher.overBase change).kernel? op
      = KernelTable.overBase change (dispatcher.kernel? op) := by
  have fallbacks
      : (dispatcher.overBase change).fallbacks = dispatcher.fallbacks.overBase change :=
    rfl
  funext capability
  simp only [kernel?, operator?_overBase, fallbacks, KernelTable.overBase]
  cases dispatcher.operator? op.name with
  | none => simp
  | some operator =>
      by_cases base : capability = .backend
      · simp only [base, Option.map_some, Option.bind_some, KernelTable.overBase, if_true]
        cases operator.kernels .backend <;> rfl
      · simp [base, KernelTable.overBase]

/-- The same hooks are chosen for every dispatch set, and the chosen kernel is the old one unless
the hook is the base. The walk along the hooks is the same for both tables, so the comparison is
done hook by hook.
-/
theorem select_overBase (op : Schema) (set : CapabilitySet)
    : (dispatcher.overBase change).select op set =
        (dispatcher.select op set).map fun chosen =>
          (chosen.1, if chosen.1 = .backend then change chosen.2 else chosen.2) := by
  simp only [select, kernel?_overBase, List.map_findSome?]
  congr 1
  funext capability
  simp only [KernelTable.overBase, Function.comp_apply]
  by_cases base : capability = .backend
  · cases dispatcher.kernel? op capability <;> simp [base]
  · cases dispatcher.kernel? op capability <;> simp [base]

/-- Calls have the same room to nest, since that depends on the number of layers and operators only.
-/
theorem budget_overBase (layers : Nat)
    : (dispatcher.overBase change).budget layers = dispatcher.budget layers := by
  simp only [budget, overBase, List.length_map]

end Dispatcher

/-- Base kernels hand every state back, from whatever state they start. This is the instance for
quiet computations of the general statement about base kernels.
-/
theorem Dispatcher.quiet_baseKernel {name : String} {kernel : Kernel}
    (found : baseKernel? name = some kernel) (calls : Calls) (op : Schema)
    : Quiet (kernel.run calls op) :=
  quiet_writing.baseKernel (fun tame => tame.orderly) found calls op

/-- Base kernels issue no calls: they compute the same from any source of calls. -/
theorem Dispatcher.baseKernel_calls {name : String} {kernel : Kernel}
    (found : baseKernel? name = some kernel) (calls other : Calls) (op : Schema)
    : kernel.run other op = kernel.run calls op := by
  unfold baseKernel? at found
  split at found <;> cases found <;> rfl

/-- A base kernel agrees with itself, from whatever sources of calls it may be run on the two sides.
-/
theorem Dispatcher.agree_baseKernel {name : String} {kernel : Kernel}
    (found : baseKernel? name = some kernel) (calls other : Calls) (op : Schema)
    (machine : Machine)
    : Run.Agree machine (kernel.run calls op) (kernel.run other op) := by
  rw [baseKernel_calls found calls other op]
  exact (quiet_baseKernel found calls op).agree machine

/-- Finding the dispatch set of a call looks at the arguments and at the overlay of the thread. -/
theorem Dispatcher.quiet_dispatchSet (op : Schema) : Quiet (dispatchSet op) :=
  (quiet_writing.peek _).bind fun _ => quiet_read _

/-- The dispatch set of a call is found without a change of the state. It is what the overlay makes
of the hooks that the arguments carry, and it is found only if all arguments are there.
-/
theorem Dispatcher.dispatchSet_ok {op : Schema} {machine reached : Machine} {set : CapabilitySet}
    (ended : dispatchSet op machine = .ok set reached)
    : reached = machine
      ∧ op.arity ≤ machine.values.length
      ∧ set =
          machine.thread.overlay.apply
            (Value.carried machine.heap (machine.lastValues op.arity)) := by
  obtain ⟨arguments, peeked, looked, ended⟩ := bind_ok ended
  obtain ⟨rfl, enough, rfl⟩ := peek_ok looked
  cases ended
  exact ⟨rfl, enough, rfl⟩

namespace Regime

open Dispatcher

variable {regime : Regime} {change : Kernel → Kernel}

/-- The base kernels and what they are exchanged for agree wherever calls reach the base. -/
def BaseAgrees (regime : Regime) (change : Kernel → Kernel) : Prop :=
  ∀ (machine : Machine) (op : Schema) (set : CapabilitySet) (kernel : Kernel) (calls other : Calls),
    regime.admits machine.ambient
    → dispatchSet op machine = .ok set machine
    → standard.select op set = some (.backend, kernel)
    → Run.Agree (machine.inSpan op.name .backend) (kernel.run calls op)
        ((change kernel).run other op)

/-- Every kernel that is selected above the base makes agreeing calls into agreeing computations.
The choice is written out by `select_standard`, and each of its cases is a kernel whose steadiness
is proved in its own right.
-/
theorem steady_of_select {op : Schema} {set : CapabilitySet} {capability : Capability}
    {kernel : Kernel} (selected : standard.select op set = some (capability, kernel))
    (above : capability ≠ .backend)
    : regime.Steady kernel := by
  rw [select_standard] at selected
  split at selected
  · cases selected
    exact steady_entryInterceptor
  split at selected
  · cases selected
    exact steady_random
  split at selected
  · cases selected
    exact steady_batchRule op.name
  split at selected
  · cases selected
    exact steady_differentiationBody
  split at selected
  · cases selected
    exact steady_deadWrapperFallback
  split at selected
  · cases selected
    exact steady_exitInterceptor
  split at selected
  · obtain ⟨base, -, chosen⟩ := Option.map_eq_some_iff.mp selected
    cases chosen
    exact absurd rfl above
  · cases selected

/-- What one call does, all the calls that its kernel issues included. The induction is on the room
to nest: the calls of the kernel have less of it, so they agree, and a kernel above the base makes
agreeing calls into agreeing computations. Only at the base the assumption about the exchange is
used.
-/
theorem agree_dispatchWithin (base : regime.BaseAgrees change) (budget : Nat) (op : Schema)
    : regime.Agree (standard.dispatchWithin budget op)
        ((standard.overBase change).dispatchWithin budget op) := by
  induction budget generalizing op with
  | zero => exact .of_quiet (quiet_fault trivial)
  | succ budget ih =>
      intro machine admitted
      refine ((quiet_dispatchSet op).agree machine).bind ?_
      intro set reached found _
      obtain ⟨rfl, -, -⟩ := dispatchSet_ok found
      rw [select_overBase]
      cases selected : standard.select op set with
      | none => exact (quiet_fail _).agree reached
      | some chosen =>
          obtain ⟨capability, kernel⟩ := chosen
          refine .traced ?_
          by_cases below : capability = .backend
          · subst below
            exact base reached op set kernel _ _ admitted found selected
          · simp only [below, if_false]
            refine steady_of_select selected below _ _ op ⟨ih, ?_⟩ _ ?_
            · exact schema?_overBase change standard
            · exact admitted

/-- Calls by name agree under an exchange of base kernels, from all states of the regime. Boxing the
arguments and taking the results off are quiet, so what is left is the dispatch between them.
-/
theorem agree_call (base : regime.BaseAgrees change) (name : String) (arguments : List Value)
    : regime.Agree (standard.call name arguments)
        ((standard.overBase change).call name arguments) := by
  intro machine admitted
  have inner (budget : Nat)
      : regime.CallsAgree ⟨standard.dispatchWithin budget, standard.schema?⟩
          ⟨(standard.overBase change).dispatchWithin budget,
            (standard.overBase change).schema?⟩ :=
    ⟨agree_dispatchWithin base budget, schema?_overBase change standard⟩
  have started (dispatcher : Dispatcher)
      : dispatcher.call name arguments machine
        = Calls.call
            ⟨dispatcher.dispatchWithin (dispatcher.budget machine.thread.layers.length),
              dispatcher.schema?⟩ name arguments machine :=
    rfl
  have agree := (inner (standard.budget machine.thread.layers.length)).call name arguments machine
    admitted
  refine ⟨by rw [started, started, budget_overBase, agree.same], ?_⟩
  have meets := agree.meets
  unfold Meets Ends at meets ⊢
  rwa [started]

end Regime
end LayeredDispatch
