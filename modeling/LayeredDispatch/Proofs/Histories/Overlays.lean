import LayeredDispatch.Proofs.Dispatch.Scoping
import LayeredDispatch.Proofs.Histories.Programs

/-! Guards on the overlay compose. Guards that hide hooks or force them on remember only the bits that
they have added, and take these from whatever mask they find when they are released. Main statement: a
program that nests such guards, and guards that replace the whole overlay, has after each scope the very
overlay of before, however the scope is left; and while a guard is held its hooks are hidden or forced
on, unless the overlay has been replaced inside.
-/

namespace LayeredDispatch

open Run

/-- A scope with a guard on the overlay. -/
inductive OverlayScope where
  | replace (overlay : Overlay)
  | hide (set : CapabilitySet)
  | forceOn (set : CapabilitySet)

namespace OverlayScope

def acquire : OverlayScope → Run Guard
  | .replace overlay => Guard.replaceOverlay overlay
  | .hide set => Guard.hide set
  | .forceOn set => Guard.forceOn set

/-- The overlay inside the scope. -/
def enter : OverlayScope → Overlay → Overlay
  | .replace inside, _ => inside
  | .hide set, overlay => { overlay with excluded := overlay.excluded ∪ set }
  | .forceOn set, overlay => { overlay with included := overlay.included ∪ set }

/-- Whether the scope disregards the overlay around it. -/
def replaces : OverlayScope → Bool
  | .replace _ => true
  | .hide _ | .forceOn _ => false

/-- The hooks of the scope are in the mask that its guard adds to. -/
def Marks : OverlayScope → Overlay → Prop
  | .replace _, _ => True
  | .hide set, overlay => ∀ capability ∈ set, capability ∈ overlay.excluded
  | .forceOn set, overlay => ∀ capability ∈ set, capability ∈ overlay.included

/-- What the scope promises of dispatch sets. Base operators cannot be hidden, and hiding wins over
forcing on.
-/
def Governs : OverlayScope → Overlay → Prop
  | .replace _, _ => True
  | .hide set, overlay =>
      ∀ capability ∈ set, capability ≠ .backend → ∀ carried, capability ∉ overlay.apply carried
  | .forceOn set, overlay =>
      ∀ capability ∈ set,
        capability ∉ overlay.excluded → ∀ carried, capability ∈ overlay.apply carried

end OverlayScope

/-- A program that nests scopes with guards on the overlay. What follows a scope is told how it has
ended.
-/
inductive OverlayProgram where
  | finish (ending : Ending)
  | guarded (scope : OverlayScope) (body : OverlayProgram) (next : Ending → OverlayProgram)

namespace OverlayProgram

def run : OverlayProgram → Run (List Value)
  | .finish ending => ending.finish
  | .guarded scope body next =>
      (holding scope.acquire body.run).andThen fun ending => (next ending).run

/-- How the program ends. -/
def ending : OverlayProgram → Ending
  | .finish ending => ending
  | .guarded _ body next => (next body.ending).ending

/-- A moment in the run of a program: what is left of the program, or of the body of the innermost scope
that is open, the open scopes, innermost first, and the state.
-/
structure Point where
  program : OverlayProgram
  opened : List OverlayScope
  machine : Machine

/-- From one moment to the next one: into the body of a scope, or past a scope whose body has ended. -/
inductive Step : Point → Point → Prop where
  | entered {scope : OverlayScope} {body : OverlayProgram} {next : Ending → OverlayProgram}
    {opened : List OverlayScope} {machine inside : Machine} {guard : Guard}
    (acquired : scope.acquire machine = .ok guard inside)
    : Step ⟨.guarded scope body next, opened, machine⟩ ⟨body, scope :: opened, inside⟩
  | left {scope : OverlayScope} {body : OverlayProgram} {next : Ending → OverlayProgram}
    {opened : List OverlayScope} {machine reached : Machine} {ending : Ending}
    (ended : (holding scope.acquire body.run).EndsIn machine ending reached)
    : Step ⟨.guarded scope body next, opened, machine⟩ ⟨next ending, opened, reached⟩

/-- The moments that the run of a program meets. -/
abbrev Meets (program : OverlayProgram) (machine : Machine) : Point → Prop :=
  Relation.ReflTransGen Step ⟨program, [], machine⟩

end OverlayProgram

section

variable {scope other : OverlayScope} {machine reached : Machine} {program : OverlayProgram}
  {point next : OverlayProgram.Point} {overlay : Overlay}

-----------------------------------------------------------------------------------------
-- What a scope promises
-----------------------------------------------------------------------------------------

namespace OverlayScope

/-- Inside a scope its hooks are in the mask that it adds to. -/
theorem Marks.of_enter (scope : OverlayScope) (overlay : Overlay)
    : scope.Marks (scope.enter overlay) := by
  cases scope with
  | replace inside => trivial
  | hide set | forceOn set =>
      intro capability member
      rw [CapabilitySet.mem_iff] at member
      simp only [enter, CapabilitySet.mem_iff, CapabilitySet.contains_union, member, Bool.or_true]

/-- Scopes inside add to the masks, unless they replace them, so the hooks of an outer scope stay.
-/
theorem Marks.enter (marks : scope.Marks overlay) (keeps : other.replaces = false)
    : scope.Marks (other.enter overlay) := by
  have more {mask : CapabilitySet} (set : CapabilitySet) {capability : Capability}
      (member : capability ∈ mask)
      : capability ∈ mask ∪ set := by
    rw [CapabilitySet.mem_iff] at member ⊢
    rw [CapabilitySet.contains_union, member, Bool.true_or]
  cases other with
  | replace inside => cases keeps
  | hide set =>
      cases scope with
      | replace inside => trivial
      | hide own => exact fun capability member => more set (marks capability member)
      | forceOn own => exact marks
  | forceOn set =>
      cases scope with
      | replace inside => trivial
      | hide own => exact marks
      | forceOn own => exact fun capability member => more set (marks capability member)

/-- Hooks that are in the mask of a scope are hidden from every dispatch set, or forced into it. -/
theorem Marks.governs (marks : scope.Marks overlay) : scope.Governs overlay := by
  cases scope with
  | replace inside => trivial
  | hide set =>
      intro capability member apart carried
      have excluded : overlay.excluded.contains capability = true := marks capability member
      rw [CapabilitySet.mem_iff, Overlay.contains_apply, excluded]
      simp [Ne.symm apart]
  | forceOn set =>
      intro capability member shown carried
      have included : overlay.included.contains capability = true := marks capability member
      rw [CapabilitySet.mem_iff, Bool.not_eq_true] at shown
      rw [CapabilitySet.mem_iff, Overlay.contains_apply, included, shown]
      simp

/-- While no scope inside has replaced the overlay, an open scope governs it. The induction is on
the scopes inside.
-/
theorem Marks.of_open {inner outer : List OverlayScope}
    (kept : ∀ other ∈ inner, other.replaces = false) (start : Overlay)
    : scope.Marks ((inner ++ scope :: outer).foldr OverlayScope.enter start) := by
  induction inner with
  | nil => exact .of_enter scope _
  | cons other inner ih =>
      obtain ⟨keeps, kept⟩ := List.forall_mem_cons.mp kept
      exact (ih kept).enter keeps

-----------------------------------------------------------------------------------------
-- What a scope hands back
-----------------------------------------------------------------------------------------

/-- A guard that is released on the overlay that it has made leaves the one it has found, unnamed
bits included. It has kept the bits that it has added, and these are the ones that it takes.
-/
theorem acquire_apply (scope : OverlayScope) (machine : Machine)
    : ∃ guard inside,
        scope.acquire machine = .ok guard inside
        ∧ inside.thread.overlay = scope.enter machine.thread.overlay
        ∧ guard.release inside = .ok () machine := by
  cases scope with
  | replace overlay => exact ⟨_, _, rfl, rfl, rfl⟩
  | hide set =>
      refine ⟨_, _, rfl, rfl, ?_⟩
      simp only [Guard.release, onOverlay, onThread_apply, CapabilitySet.union_sdiff_added]
  | forceOn set =>
      refine ⟨_, _, rfl, rfl, ?_⟩
      simp only [Guard.release, onOverlay, onThread_apply, CapabilitySet.union_sdiff_added]

end OverlayScope

/-- A scope ends as its body does, if the body gives the state back in which it started. -/
theorem OverlayScope.holding_endsIn {body : Run (List Value)} {ending : Ending}
    (ended : ∀ inside, body.EndsIn inside ending inside)
    : (holding scope.acquire body).EndsIn machine ending machine := by
  obtain ⟨guard, inside, acquired, -, released⟩ := scope.acquire_apply machine
  unfold EndsIn holding
  rw [bind_apply, acquired]
  exact EndsIn.ensuring (ended inside) released

-----------------------------------------------------------------------------------------
-- Programs
-----------------------------------------------------------------------------------------

namespace OverlayProgram

/-- A program ends as it says, and the state is as it was. The induction is on the program: the body
of a scope gives the state back, so the release of its guard does, and what follows starts there.
-/
theorem run_endsIn (program : OverlayProgram) (machine : Machine)
    : program.run.EndsIn machine program.ending machine := by
  induction program generalizing machine with
  | finish ending => exact (rfl : ending.finish machine = ending.finish machine)
  | guarded scope body next body_ih next_ih =>
      have ended := @OverlayScope.holding_endsIn scope machine body.run body.ending body_ih
      exact (andThen_apply ended).trans (next_ih body.ending machine)

/-- The scopes that are open make the overlay of what they found. -/
def Point.Layered (start : Overlay) (point : Point) : Prop :=
  point.machine.thread.overlay = point.opened.foldr OverlayScope.enter start

/-- A step into a scope adds it to the open ones, and a step past a scope changes neither the open
scopes nor the overlay.
-/
theorem Step.layered (step : Step point next) (layered : point.Layered overlay)
    : next.Layered overlay := by
  cases step with
  | @entered scope body following opened machine inside guard acquired =>
      obtain ⟨other, found, again, entered, -⟩ := scope.acquire_apply machine
      rw [acquired] at again
      cases again
      exact entered.trans (congrArg scope.enter layered)
  | @left scope body following opened machine reached ending ended =>
      have handed := @OverlayScope.holding_endsIn scope machine body.run body.ending body.run_endsIn
      obtain ⟨-, rfl⟩ := ended.unique handed
      exact layered

/-- At every moment the overlay is that of the open scopes, by induction on the steps to the moment.
-/
theorem Meets.layered (met : Meets program machine point)
    : point.Layered machine.thread.overlay := by
  induction met with
  | refl => rfl
  | tail _ step ih => exact step.layered ih

/-- Guards on the overlay compose when they are nested. Whenever a program comes to a scope, the scope
ends, in a value, an error or a fault, and then the overlay is bit for bit what it was when the scope
began, and all else of the state too. At every moment an open scope that hides hooks keeps them out of
the dispatch set of any call, and an open scope that forces hooks on keeps them in unless they are
excluded, as long as no scope that replaces the overlay is open inside it.
-/
theorem guards_compose (met : Meets program machine point)
    : (∀ scope body next,
        point.program = .guarded scope body next
        → (holding scope.acquire body.run).EndsIn point.machine body.ending point.machine)
      ∧ ∀ inner scope outer,
          point.opened = inner ++ scope :: outer
          → (∀ other ∈ inner, other.replaces = false)
          → scope.Governs point.machine.thread.overlay := by
  constructor
  · intro scope body next _
    exact OverlayScope.holding_endsIn body.run_endsIn
  · intro inner scope outer opened kept
    rw [met.layered, opened]
    exact (OverlayScope.Marks.of_open kept _).governs

/-- Witness: a scope that is left by a fault hides hooks and unnamed bits, of which some are hidden
already and some forced on by the scope around it.
-/
theorem guards_compose_overlapping
    : ∃ (program body : OverlayProgram) (machine : Machine) (outside inside : Point)
        (forced hidden : CapabilitySet) (next : Ending → OverlayProgram),
        Meets program machine outside
        ∧ outside.program = .guarded (.hide hidden) body next
        ∧ (holding (Guard.hide hidden) body.run).EndsIn outside.machine (.faults .noActiveLayer)
          outside.machine
        ∧ Meets program machine inside
        ∧ inside.opened = [.hide hidden, .forceOn forced]
        ∧ (OverlayScope.hide hidden).Governs inside.machine.thread.overlay
        ∧ (OverlayScope.forceOn forced).Governs inside.machine.thread.overlay := by
  let forced : CapabilitySet := ⟨0x0030⟩
  let hidden : CapabilitySet := ⟨0xF0A0⟩
  let body : OverlayProgram := .finish (.faults .noActiveLayer)
  let nested : OverlayProgram := .guarded (.hide hidden) body .finish
  let program : OverlayProgram := .guarded (.forceOn forced) nested .finish
  let machine : Machine := { thread := { overlay := ⟨⟨0x0010⟩, ⟨0x8080⟩⟩ } }
  have outer : Meets program machine ⟨nested, [.forceOn forced], _⟩ :=
    .single (.entered (rfl : Guard.forceOn forced machine = .ok _ _))
  have inner : Meets program machine ⟨body, [.hide hidden, .forceOn forced], _⟩ :=
    outer.tail (.entered (rfl : Guard.hide hidden _ = .ok _ _))
  refine ⟨program, body, machine, _, _, forced, hidden, .finish, outer, rfl,
    (guards_compose outer).1 (.hide hidden) body .finish rfl, inner, rfl, ?_, ?_⟩
  · exact (guards_compose inner).2 [] (.hide hidden) [.forceOn forced] rfl (by decide)
  · exact (guards_compose inner).2 [.hide hidden] (.forceOn forced) [] rfl (by decide)

end OverlayProgram

end

end LayeredDispatch
