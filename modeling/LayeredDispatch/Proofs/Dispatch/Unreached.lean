import LayeredDispatch.Proofs.Dispatch.Confinement
import LayeredDispatch.Proofs.Dispatch.Exchange

/-! Operators without a rule for batches. A batching layer refuses a call of one of them before the call
has come any further, and nothing that runs after a base kernel refuses it. Main statement: where a call
of such an operator is refused, no base kernel has run, as with any others in their places the call does
the same.
-/

namespace LayeredDispatch

open Run

/-- A refusal for want of a rule for batches. -/
inductive Exit.Unruled : Exit → Prop where
  | refused (name : String) : Unruled (.error (.missingBatchRule name))

/-- Operators that only lack a rule for batches. They write to none of their arguments, and draw no
random numbers.
-/
def Dispatcher.ruleless : List String := ["sum", "add_n", "zeros"]

/-- Where `body` is refused for want of a rule for batches, `other` comes to the same end. -/
def Run.RefusesAlike (body other : Run α) : Prop :=
  ∀ machine exit reached,
    exit.Unruled → body machine = .error exit reached → other machine = .error exit reached

/-- No end of a computation's own is a refusal for want of a rule. -/
theorem Exit.Own.not_unruled {exit : Exit} (h : exit.Own) : ¬exit.Unruled := by
  rintro ⟨name⟩
  exact h

namespace Run

variable {body other : Run α} {next next' : α → Run β}

/-- A computation that is never refused by itself may go on in whatever way. -/
theorem Confined.not_refused (h : body.Confined Exit.Own) {machine reached : Machine} {exit : Exit}
    (ended : body machine = .error exit reached)
    : ¬exit.Unruled :=
  (Ends.of_error (h machine) ended).not_unruled

-----------------------------------------------------------------------------------------
-- Computations that are refused alike
-----------------------------------------------------------------------------------------

namespace RefusesAlike

theorem refl (body : Run α) : RefusesAlike body body :=
  fun _ _ _ _ ended => ended

/-- Whatever a computation is compared with, it refuses alike if it is never refused for want of a
rule.
-/
theorem of_own (own : body.Confined Exit.Own) : RefusesAlike body other :=
  fun _ _ _ unruled ended => absurd unruled (own.not_refused ended)

/-- The first part is the same on both sides, so only the second parts need to be compared. -/
theorem after (first : Run α) (tail : ∀ value, RefusesAlike (next value) (next' value))
    : RefusesAlike (first >>= next) (first >>= next') := by
  intro machine exit reached unruled ended
  rw [bind_apply] at ended ⊢
  cases head : first machine with
  | ok value middle =>
      rw [head] at ended
      exact tail value middle exit reached unruled ended
  | error early middle => rwa [head] at ended

/-- The last part is never refused by itself, so that it is the first one that has been refused. The
last parts of the two sides may then differ.
-/
theorem before (head : RefusesAlike body other) (own : ∀ value, (next value).Confined Exit.Own)
    : RefusesAlike (body >>= next) (other >>= next') := by
  intro machine exit reached unruled ended
  rw [bind_apply] at ended ⊢
  cases first : body machine with
  | ok value middle =>
      rw [first] at ended
      exact absurd unruled ((own value).not_refused ended)
  | error early middle =>
      rw [first] at ended
      cases ended
      rw [head machine exit reached unruled first]

/-- Branches that are decided alike refuse alike. -/
theorem ite {condition : Prop} [Decidable condition] {body' other' : Run α}
    (yes : RefusesAlike body other) (no : RefusesAlike body' other')
    : RefusesAlike (if condition then body else body') (if condition then other else other') := by
  split
  · exact yes
  · exact no

/-- A cleanup that ends by itself lets refusals through. It runs after the refusal on both sides and
from the same state, so it leads to the same state.
-/
theorem ensuring (h : RefusesAlike body other) {cleanup : Run Unit} (own : cleanup.Confined Exit.Own)
    : RefusesAlike (Run.ensuring body cleanup) (Run.ensuring other cleanup) := by
  intro machine exit reached unruled ended
  obtain ⟨middle, inner⟩ : ∃ middle, body machine = .error exit middle := by
    unfold Run.ensuring at ended
    split at ended
    · split at ended
      · cases ended
      · rename_i released
        cases ended
        exact absurd unruled (own.not_refused released)
    · cases ended
      cases unruled
    · rename_i inner
      split at ended
      · cases ended
        exact ⟨_, inner⟩
      · rename_i released
        cases ended
        exact absurd unruled (own.not_refused released)
    · split at ended <;>
      · cases ended
        cases unruled
  have same : other machine = body machine := by
    rw [inner]
    exact h machine exit middle unruled inner
  rw [← ended, Run.ensuring, Run.ensuring, same]

/-- Guards let refusals through, since none of their releases is refused for want of a rule. -/
theorem holding (h : RefusesAlike body other) (acquire : Run Guard)
    : RefusesAlike (Run.holding acquire body) (Run.holding acquire other) :=
  .after acquire fun guard =>
    h.ensuring ((regular_layering.release guard).mono fun _ => Exit.Regular.own)

theorem holdingIf (h : RefusesAlike body other) (condition : Bool) (acquire : Run Guard)
    : RefusesAlike (Run.holdingIf condition acquire body) (Run.holdingIf condition acquire other) :=
  .ite (h.holding acquire) h

/-- Trace nodes let refusals through too. -/
theorem traced (h : RefusesAlike body other) (op : String) (capability : Capability)
    : RefusesAlike (Run.traced op capability body) (Run.traced op capability other) :=
  .after _ fun _ => .ite (h.ensuring (confined_onThread _)) h

/-- So do the values of a call's own. -/
theorem onValues (h : RefusesAlike body other) (values : List Value)
    : RefusesAlike (Run.onValues values body) (Run.onValues values other) := by
  refine .after _ fun outer => .after _ fun _ => .ensuring (h.before fun value => ?_) ?_
  · exact (confined_read _).bind fun left => confined_pure (value, left)
  · exact confined_modify _

end RefusesAlike
end Run

-----------------------------------------------------------------------------------------
-- Kernels of operators without a rule
-----------------------------------------------------------------------------------------

namespace Dispatcher

variable {calls other : Calls} {op : Schema} {name : String}

theorem ruleless_cases (ruleless : name ∈ ruleless)
    : name = "sum" ∨ name = "add_n" ∨ name = "zeros" := by
  simpa only [Dispatcher.ruleless, List.mem_cons, List.not_mem_nil, or_false] using ruleless

theorem ne_of_ruleless (ruleless : name ∈ ruleless) {other : String}
    (ruled : other ∉ Dispatcher.ruleless)
    : name ≠ other := by
  rintro rfl
  exact ruled ruleless

/-- In the table of batching rules these operators have the kernel that refuses. -/
theorem batchRule_ruleless (ruleless : name ∈ ruleless) : batchRule name = Batching.missingRule := by
  rcases ruleless_cases ruleless with rfl | rfl | rfl <;> rfl

/-- The entry interceptor refuses alike if the call that it issues does. All that comes before the
call is the same on both sides.
-/
theorem refusesAlike_entryInterceptor
    (inner : (calls.dispatch op).RefusesAlike (other.dispatch op))
    : (entryInterceptor.run calls op).RefusesAlike (entryInterceptor.run other op) := by
  refine .after _ fun top? => ?_
  cases top? with
  | none => exact .refl _
  | some layer =>
      refine .after _ fun shown => .after _ fun _ => .after _ fun _ => .after _ fun _ => ?_
      exact .after _ fun overlay => inner.holding _

/-- A call below the top layer refuses alike. Only the note about coming back follows it, which is
not refused.
-/
theorem refusesAlike_dispatchBelow (inner : (calls.dispatch op).RefusesAlike (other.dispatch op))
    (layer : Layer)
    : (dispatchBelow calls op layer).RefusesAlike (dispatchBelow other op layer) := by
  refine .holding (.holdingIf (.holdingIf (.after _ fun overlay => .holding ?_ _) _ _) _ _) _
  exact inner.before fun _ => own_writing.reenter _

/-- The same for the exit interceptor of either kind of layer. -/
theorem refusesAlike_exitInterceptor (inner : (calls.dispatch op).RefusesAlike (other.dispatch op))
    : (exitInterceptor.run calls op).RefusesAlike (exitInterceptor.run other op) := by
  refine .after _ fun layer => ?_
  have below := refusesAlike_dispatchBelow inner layer
  cases layer.kind with
  | batching => exact below
  | differentiation =>
      refine .after _ fun _ => below.before fun _ => ?_
      exact own_writing.tagResults op layer.level

/-- The same for the body of differentiation layers, which only records the operator after its call.
-/
theorem refusesAlike_differentiationBody
    (inner : (calls.dispatch op).RefusesAlike (other.dispatch op))
    : (differentiationBody.run calls op).RefusesAlike (differentiationBody.run other op) := by
  refine .after _ fun layer => .after _ fun recording => (inner.holding _).before fun _ => ?_
  exact own_writing.recordGradFns op layer.level recording

/-- Above the base every kernel of an operator without a rule hands calls on, or refuses them. The
rule for random operators is not among them, because these operators draw nothing.
-/
theorem refusesAlike_of_select (ruleless : op.name ∈ ruleless)
    (inner : (calls.dispatch op).RefusesAlike (other.dispatch op)) {set : CapabilitySet}
    {capability : Capability} {kernel : Kernel}
    (selected : standard.select op set = some (capability, kernel)) (above : capability ≠ .backend)
    : (kernel.run calls op).RefusesAlike (kernel.run other op) := by
  rw [select_standard, batchRule_ruleless ruleless] at selected
  split at selected
  · cases selected
    exact refusesAlike_entryInterceptor inner
  split at selected
  · rename_i random
    exact absurd random.2 (ne_of_ruleless ruleless (by decide))
  split at selected
  · cases selected
    exact .refl _
  split at selected
  · cases selected
    exact refusesAlike_differentiationBody inner
  split at selected
  · cases selected
    exact .after _ fun _ => inner
  split at selected
  · cases selected
    exact refusesAlike_exitInterceptor inner
  split at selected
  · obtain ⟨base, -, chosen⟩ := Option.map_eq_some_iff.mp selected
    cases chosen
    exact absurd rfl above
  · cases selected

-----------------------------------------------------------------------------------------
-- All calls
-----------------------------------------------------------------------------------------

/-- However deep calls nest, a base kernel is never what refuses a batch. At the base the two sides
run different kernels, but the old one comes to an end of its own; above it both run the same kernel
on calls with less room to nest.
-/
theorem refusesAlike_dispatchWithin (ruleless : op.name ∈ ruleless) (change : Kernel → Kernel)
    (budget : Nat)
    : (standard.dispatchWithin budget op).RefusesAlike
        ((standard.overBase change).dispatchWithin budget op) := by
  induction budget with
  | zero => exact .refl _
  | succ budget ih =>
      refine .after _ fun set => ?_
      rw [select_overBase]
      cases selected : standard.select op set with
      | none => exact .refl _
      | some chosen =>
          obtain ⟨capability, kernel⟩ := chosen
          refine .traced ?_ op.name capability
          by_cases base : capability = .backend
          · subst base
            exact .of_own (Base.confined_baseKernel (select_backend selected).1 _ op)
          · simp only [base, if_false]
            exact refusesAlike_of_select ruleless ih selected base

/-- Calls by name refuse alike if the dispatches do. -/
theorem refusesAlike_call (schemas : other.schema? = calls.schema?)
    (inner
      : ∀ op,
          calls.schema? name = some op → (calls.dispatch op).RefusesAlike (other.dispatch op))
    (arguments : List Value)
    : (calls.call name arguments).RefusesAlike (other.call name arguments) := by
  have require : other.require name = calls.require name := by
    rw [Calls.require, Calls.require, schemas]
  unfold Calls.call
  rw [require, Calls.require]
  cases found : calls.schema? name with
  | none => exact .refl _
  | some op =>
      refine .ite ?_ (.refl _)
      exact ((inner op found).onValues arguments).before fun result => confined_pure result.2

/-- A call of an operator without a rule that is refused has run no base kernel: with any other base
kernels in place it is refused just so, and ends in the same state.
-/
theorem call_unreached (ruleless : name ∈ ruleless) (change : Kernel → Kernel)
    {arguments : List Value} {machine reached : Machine} {exit : Exit} (unruled : exit.Unruled)
    (ended : standard.call name arguments machine = .error exit reached)
    : (standard.overBase change).call name arguments machine = .error exit reached := by
  have started (dispatcher : Dispatcher)
      : dispatcher.call name arguments machine
        = Calls.call
            ⟨dispatcher.dispatchWithin (dispatcher.budget machine.thread.layers.length),
              dispatcher.schema?⟩ name arguments machine :=
    rfl
  rw [started] at ended ⊢
  rw [budget_overBase, schema?_overBase]
  generalize standard.budget machine.thread.layers.length = budget at ended ⊢
  refine @refusesAlike_call ⟨standard.dispatchWithin budget, standard.schema?⟩
    ⟨(standard.overBase change).dispatchWithin budget, standard.schema?⟩ name rfl
    (fun op found => ?_) arguments machine exit reached unruled ended
  obtain ⟨-, rfl⟩ := schema?_standard found
  exact refusesAlike_dispatchWithin ruleless change budget

end Dispatcher
end LayeredDispatch
