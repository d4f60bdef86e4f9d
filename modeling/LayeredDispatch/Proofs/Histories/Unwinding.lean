import LayeredDispatch.Proofs.Histories.Scopes
import LayeredDispatch.Proofs.Wrappers.Provenance

/-! Scopes unwind cleanly. Main statement: however a program nests scopes, and however each of them is
left, the thread is afterwards what it was when the scope was entered; inside, the levels of the layers
and the registered levels count up from one; and what was tagged at the level of a scope is dead from
its end on.
-/

namespace LayeredDispatch

open Run Dispatcher

/-- A thread on which nothing has happened yet that concerns layers. -/
structure Machine.Fresh (machine : Machine) : Prop where
  layers : machine.thread.layers = []
  overlay : machine.thread.overlay = {}
  registry : machine.registry = {}

/-- The action makes the tag: a value that it gives has it, and none that it is given does. -/
def Program.Action.Makes (action : Program.Action) (machine : Machine) (stamp : Stamp) : Prop :=
  ∃ results reached,
    action.run machine = .ok results reached
    ∧ stamp ∈ Value.stamps results
    ∧ stamp ∉ Value.stamps action.arguments

/-- What comes after a state of a thread: layers, interceptors and registered levels fit together, what
was registered still is, and no flag that was dead is alive.
-/
structure Machine.Leads (start reached : Machine) : Prop where
  tidy : reached.Tidy
  ages : start.Ages reached
  registered
    : ∀ level flag,
        start.registry.find? level = some flag → reached.registry.find? level = some flag

/-- The levels of the layers, bottom first, and the registered levels are both one, two and so on up to
the number of layers.
-/
def Machine.CountsUp (machine : Machine) : Prop :=
  machine.thread.layers.reverse.map Layer.level = List.range' 1 machine.thread.layers.length
  ∧ machine.registry.levels = List.range' 1 machine.thread.layers.length

/-- If a scope is entered here, it ends with values, an error or a fault and hands back layers, overlay,
gradient modes and registered levels. If it is one with a layer, whatever tag of its level is made on
the way by an action of its body is dead afterwards, wherever the program gets to.
-/
def Program.Point.Unwinds (point : Program.Point) : Prop :=
  match point.program with
  | .finish _ | .act .. => True
  | .guard scope body _ =>
      ∃ ending left,
        (holding scope.acquire body.run).EndsIn point.machine ending left
        ∧ point.machine.Restored left
  | .layer scope body next =>
      ∃ opened entered ending left,
        scope.acquire point.machine = .ok opened entered
        ∧ (scope.run fun level => (body level).run).EndsIn point.machine ending left
        ∧ point.machine.Restored left
        ∧ ∀ action rest inner stamp,
            Program.Meets ⟨body opened.level, entered⟩ ⟨.act action rest, inner⟩
            → action.Makes inner stamp
            → stamp.level = opened.level
            → ∀ later, Program.Meets ⟨next ending, left⟩ later →
                later.machine.heap.isAlive stamp.flag = false

section

variable {start middle reached machine entered left : Machine} {opened : Scope}
  {point other : Program.Point}

/-- On a fresh thread layers, interceptors and levels fit together: there are none. -/
theorem Machine.Fresh.tidy (fresh : machine.Fresh) : machine.Tidy := by
  obtain ⟨layers, overlay, registry⟩ := fresh
  refine ⟨⟨?_, ?_, ?_⟩, ?_⟩
  · rw [layers]
    trivial
  · rw [layers, overlay]
    rfl
  · rw [layers, overlay]
    rfl
  · rw [layers, registry]
    rfl

/-- Where they fit together, levels count up. -/
theorem Machine.Tidy.countsUp (tidy : machine.Tidy) : machine.CountsUp :=
  ⟨tidy.standing.levelled.levels_eq, tidy.levels⟩

theorem Machine.Leads.refl (tidy : machine.Tidy) : machine.Leads machine :=
  ⟨tidy, .of_eq rfl, fun _ _ => id⟩

/-- What comes after something that comes after a state comes after that state. -/
theorem Machine.Leads.trans (first : start.Leads middle) (second : middle.Leads reached)
    : start.Leads reached :=
  ⟨second.tidy, first.ages.trans second.ages,
    fun level flag found => second.registered level flag (first.registered level flag found)⟩

/-- A rewound thread comes after what it was. -/
theorem Machine.Rewound.leads (rewound : start.Rewound reached) (tidy : start.Tidy)
    : start.Leads reached := by
  refine ⟨tidy.rewound rewound, rewound.ages, fun level flag found => ?_⟩
  rwa [rewound.restored.registry]

/-- The inside of a scope comes after the state in front of it. -/
theorem Machine.Entered.leads (h : machine.Entered opened entered) (tidy : machine.Tidy)
    : machine.Leads entered :=
  ⟨h.tidy tidy, h.ages, fun _ _ found => h.kept tidy found⟩

-----------------------------------------------------------------------------------------
-- Programs
-----------------------------------------------------------------------------------------

/-- Every program rewinds the thread. By induction over the program, whose scopes may be left in any
way. What follows an action or a scope starts on a thread that has been rewound.
-/
theorem Program.run_rewinds (program : Program) (tidy : machine.Tidy)
    : program.run.Rewinds machine := by
  induction program generalizing machine with
  | finish ending =>
      cases ending with
      | gives values => exact .refl machine
      | refuses error => exact ⟨nofun, .refl machine⟩
      | faults fault => exact ⟨nofun, .refl machine⟩
  | act action next ih =>
      refine (rewinds_action action tidy.standing).andThen fun ending reached rewound => ?_
      exact ih ending (tidy.rewound rewound)
  | layer scope body next bodyIh nextIh =>
      have unwinds : (scope.run fun level => (body level).run).Returns machine machine.Unwound :=
        Run.unwinds_layer tidy fun opened _ h => bodyIh opened.level (h.tidy tidy)
      have rewinds := unwinds.mono fun _ => Machine.Unwound.rewound
      refine Rewinds.andThen rewinds fun ending reached rewound => ?_
      exact nextIh ending (tidy.rewound rewound)
  | guard scope body next bodyIh nextIh =>
      refine (rewinds_guard tidy fun entered => bodyIh).andThen fun ending reached rewound => ?_
      exact nextIh ending (tidy.rewound rewound)

/-- Every scope with a layer unwinds the thread, since its body is a program. -/
theorem Program.unwinds_layer (scope : LayerScope) (body : Level → Program) (tidy : machine.Tidy)
    : (scope.run fun level => (body level).run).Returns machine machine.Unwound :=
  Run.unwinds_layer tidy fun opened _ h => (body opened.level).run_rewinds (h.tidy tidy)

theorem Program.rewinds_guard (scope : GuardScope) (body : Program) (tidy : machine.Tidy)
    : (holding scope.acquire body.run).Rewinds machine :=
  Run.rewinds_guard tidy fun _ => body.run_rewinds

/-- What one step of a program leads to comes after the point from which it starts. The steps into a
scope are the only ones that register a level.
-/
theorem Program.Step.leads (step : Program.Step point other) (tidy : point.machine.Tidy)
    : point.machine.Leads other.machine := by
  cases step with
  | acted ended =>
      exact (Returns.of_endsIn (rewinds_action _ tidy.standing) ended).leads tidy
  | @opened scope _ _ _ _ _ acquired =>
      exact (Ends.of_ok (ends_acquire scope tidy) acquired).leads tidy
  | @closed scope body _ _ _ _ ended =>
      exact ((Program.unwinds_layer scope body tidy).of_endsIn ended).rewound.leads tidy
  | @held scope _ _ _ _ _ acquired =>
      obtain ⟨guard, entered, again, tidied, ages, registry, -⟩ := acquire_guard scope tidy
      cases acquired.symm.trans again
      exact ⟨tidied, ages, fun level flag found => by rwa [registry]⟩
  | @released scope body _ _ _ _ ended =>
      exact (Returns.of_endsIn (Program.rewinds_guard scope body tidy) ended).leads tidy

/-- So does a run of any length, by induction on its steps. -/
theorem Program.Meets.leads (met : Program.Meets point other) (tidy : point.machine.Tidy)
    : point.machine.Leads other.machine := by
  induction met with
  | refl => exact .refl tidy
  | tail _ step ih => exact ih.trans (step.leads ih.tidy)

/-- The flag of a new tag is the one that is registered for its level. For a call this comes from
where the tags of its results come from.
-/
theorem Program.Action.Makes.registered {action : Program.Action} {stamp : Stamp}
    (makes : action.Makes machine stamp) (tidy : machine.Tidy)
    : machine.registry.find? stamp.level = some stamp.flag := by
  obtain ⟨results, reached, ended, given, new⟩ := makes
  cases action with
  | call name arguments =>
      have levelled := tidy.standing.levelled
      exact (call_sourced levelled ended stamp given).resolve_left new
  | tag value level =>
      obtain ⟨tensor, tagged, tags, rest⟩ := bind_ok ended
      cases rest
      obtain ⟨cell, flag, rfl, found, -⟩ := tagAt_registered tags
      simp only [Program.Action.arguments, Value.stamps, Value.tensorsAll, Value.tensors,
        Tensor.stamps, List.append_nil, List.flatMap_singleton, List.mem_cons] at given new
      rcases given with rfl | inside
      · exact found
      · exact absurd inside new

/-- A scope unwinds wherever it is entered. A tag of its level that is made inside has the flag that
the level was given when the scope was opened; the flag is dead when the scope ends, and no later
point brings it back to life.
-/
theorem Program.Point.unwinds (tidy : point.machine.Tidy) : point.Unwinds := by
  obtain ⟨program, machine⟩ := point
  cases program with
  | finish ending => trivial
  | act action next => trivial
  | guard scope body next =>
      obtain ⟨ending, left, ended, rewound⟩ := Returns.endsIn (Program.rewinds_guard scope body tidy)
      exact ⟨ending, left, ended, rewound.restored⟩
  | layer scope body next =>
      obtain ⟨opened, entered, acquired, h⟩ := (ends_acquire scope tidy).exists_ok
      obtain ⟨ending, left, ended, rewound, made, dead⟩ :=
        (Program.unwinds_layer scope body tidy).endsIn
      refine ⟨opened, entered, ending, left, acquired, ended, rewound.restored, ?_⟩
      intro action rest inner stamp met makes same later after
      -- The level of the scope keeps its flag as long as the body runs.
      have inside := met.leads (h.tidy tidy)
      have current := inside.registered _ _ (h.registered tidy)
      have found := makes.registered inside.tidy
      rw [same, current, Option.some.injEq] at found
      rw [← found, Bool.eq_false_iff]
      intro alive
      have before := (after.leads (tidy.rewound rewound)).ages.dead _ made alive
      rw [dead] at before
      cases before

/-- Scopes unwind cleanly at any nesting. Wherever the run of a program gets to on a fresh thread, the
levels of the layers and the registered levels count up from one to the number of layers. Every scope
that is entered there ends with values, an error or a fault, in any case with the layers, the overlay,
the gradient modes and the registered levels of before, and what its actions have tagged at the level
of its layer is dead from then on.
-/
theorem Program.scopes_unwind {program : Program} (fresh : machine.Fresh)
    (met : Program.Meets ⟨program, machine⟩ point)
    : point.machine.CountsUp ∧ point.Unwinds := by
  have tidy := (met.leads fresh.tidy).tidy
  exact ⟨tidy.countsUp, Program.Point.unwinds tidy⟩

/-- Witness: in a scope with a differentiation layer a value is tagged; then a batching layer is opened,
in whose scope hooks are hidden and a call is made before the program faults.
-/
theorem Program.scopes_unwind_faulting
    : ∃ (machine : Machine) (program : Program) (point : Program.Point) (body : Level → Program)
        (next : Ending → Program),
        machine.Fresh
        ∧ Program.Meets ⟨program, machine⟩ point
        ∧ point.program = .layer (.batching 2 .error) body next
        ∧ point.machine.thread.layers.map Layer.kind = [.differentiation]
        ∧ point.machine.CountsUp
        ∧ point.Unwinds := by
  let body (_ : Level) : Program :=
    .guard (.exclusion (.only .differentiation))
      (.act (.call "neg" [.tensor (.dense 0)]) fun _ => .finish (.faults .noActiveLayer)) .finish
  let nested : Program := .layer (.batching 2 .error) body .finish
  let machine : Machine := { heap := { storages := #[⟨⟨[2]⟩, #[1, 2]⟩] } }
  have fresh : machine.Fresh := ⟨rfl, rfl, rfl⟩
  have met
      : ∃ reached : Machine,
          Program.Meets
            ⟨.layer .differentiation (fun level => .act (.tag (.dense 0) level) fun _ => nested)
              .finish, machine⟩
            ⟨nested, reached⟩
          ∧ reached.thread.layers.map Layer.kind = [.differentiation] :=
    ⟨_, .tail (.single (.opened rfl)) (@Program.Step.acted _ _ _ _ (.gives _) rfl), rfl⟩
  obtain ⟨reached, met, layers⟩ := met
  obtain ⟨countsUp, unwinds⟩ := Program.scopes_unwind fresh met
  exact ⟨machine, _, _, body, .finish, fresh, met, rfl, layers, countsUp, unwinds⟩

end

end LayeredDispatch
