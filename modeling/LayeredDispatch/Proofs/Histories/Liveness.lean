import LayeredDispatch.Proofs.Histories.Opening
import Mathlib.Data.List.Nodup

/-! Levels are small numbers that are registered again and again, while tagged values keep the flags
of earlier registrations. Main statement: a flag is alive exactly while it is the one registered for
its level, and a flag that has died stays dead.
-/

namespace LayeredDispatch

open Run

-----------------------------------------------------------------------------------------
-- Entries of the registry
-----------------------------------------------------------------------------------------

namespace Registry

/-- A registry that gives no level two flags and no flag to two levels. -/
structure Distinct (registry : Registry) : Prop where
  levels : (registry.entries.map Prod.fst).Nodup
  flags : (registry.entries.map Prod.snd).Nodup

/-- Placing an entry adds it somewhere among the others. -/
theorem place_perm (level : Level) (flag : Nat) (entries : List (Level × Nat))
    : (place level flag entries).Perm ((level, flag) :: entries) := by
  induction entries with
  | nil => exact .refl _
  | cons entry entries ih =>
      unfold place
      split
      · exact .refl _
      · exact (ih.cons entry).trans (.swap ..)

/-- The entries after a level was registered are the old ones and the new one. -/
theorem mem_insert {registry : Registry} {level : Level} {flag : Nat} {entry : Level × Nat}
    : entry ∈ (registry.insert level flag).entries
      ↔ entry = (level, flag) ∨ entry ∈ registry.entries := by
  rw [insert, (place_perm level flag registry.entries).mem_iff, List.mem_cons]

/-- With distinct levels a level's flag is that of the only entry of the level. -/
theorem Distinct.find?_eq_some {registry : Registry} (distinct : registry.Distinct)
    {level : Level} {flag : Nat}
    : registry.find? level = some flag ↔ (level, flag) ∈ registry.entries := by
  obtain ⟨entries⟩ := registry
  have levels : (entries.map Prod.fst).Nodup := distinct.levels
  clear distinct
  unfold find?
  dsimp only
  induction entries with
  | nil => simp
  | cons entry entries ih =>
      obtain ⟨fresh, levels⟩ := List.nodup_cons.mp levels
      rw [List.find?_cons, List.mem_cons]
      by_cases same : entry.1 = level
      · have absent : (level, flag) ∉ entries := by
          intro member
          exact fresh (same ▸ List.mem_map_of_mem member)
        simp [same, absent, Prod.ext_iff, eq_comm]
      · have apart : (level, flag) ≠ entry := by
          rintro rfl
          exact same rfl
        have other : (entry.1 == level) = false := by simpa using same
        simpa only [other, apart, false_or] using ih levels

/-- A level that is not registered has no entry. -/
theorem not_mem_of_free {registry : Registry} {level : Level}
    (free : registry.contains level = false)
    : level ∉ registry.entries.map Prod.fst := by
  intro member
  obtain ⟨entry, present, rfl⟩ := List.mem_map.mp member
  simp only [contains, find?, Option.isSome_map, List.find?_isSome, Bool.eq_false_iff, ne_eq]
    at free
  exact free ⟨entry, present, by simp⟩

/-- A free level with a new flag keeps levels and flags distinct. -/
theorem Distinct.insert {registry : Registry} (distinct : registry.Distinct) {level : Level}
    {flag : Nat} (free : registry.contains level = false)
    (fresh : ∀ entry ∈ registry.entries, entry.2 ≠ flag)
    : (registry.insert level flag).Distinct := by
  have perm := place_perm level flag registry.entries
  constructor
  · refine (perm.map Prod.fst).nodup_iff.mpr (List.nodup_cons.mpr ⟨?_, distinct.levels⟩)
    exact not_mem_of_free free
  · refine (perm.map Prod.snd).nodup_iff.mpr (List.nodup_cons.mpr ⟨?_, distinct.flags⟩)
    intro member
    obtain ⟨entry, present, same⟩ := List.mem_map.mp member
    exact fresh entry present same

/-- Forgetting a level keeps the others distinct. -/
theorem Distinct.erase {registry : Registry} (distinct : registry.Distinct) (level : Level)
    : (registry.erase level).Distinct where
  levels := (List.filter_sublist.map Prod.fst).nodup distinct.levels
  flags := (List.filter_sublist.map Prod.snd).nodup distinct.flags

/-- With distinct flags a flag tells its level. -/
theorem Distinct.level_eq {registry : Registry} (distinct : registry.Distinct)
    {level other : Level} {flag : Nat} (found : registry.find? level = some flag)
    (also : registry.find? other = some flag)
    : other = level := by
  have first := distinct.find?_eq_some.mp found
  have second := distinct.find?_eq_some.mp also
  have same := List.inj_on_of_nodup_map distinct.flags second first rfl
  exact congrArg Prod.fst same

end Registry

-----------------------------------------------------------------------------------------
-- Flags that have been issued
-----------------------------------------------------------------------------------------

/-- Of the issued flags, each with its level, exactly those that are registered are alive. -/
structure Machine.Tracks (machine : Machine) (issued : List (Level × Nat)) : Prop where
  distinct : machine.registry.Distinct
  known : ∀ entry ∈ machine.registry.entries, entry ∈ issued
  made : ∀ issue ∈ issued, issue.2 < machine.heap.flags.size
  alive
    : ∀ issue ∈ issued,
        machine.heap.isAlive issue.2 = true
        ↔ machine.registry.find? issue.1 = some issue.2

namespace Machine.Tracks

variable {machine reached : Machine} {issued : List (Level × Nat)}

/-- Whether flags are tracked depends on the registry and on the flags. -/
theorem congr (tracks : machine.Tracks issued) (registry : reached.registry = machine.registry)
    (flags : reached.heap.flags = machine.heap.flags)
    : reached.Tracks issued := by
  obtain ⟨distinct, known, made, alive⟩ := tracks
  refine ⟨registry ▸ distinct, registry ▸ known, flags ▸ made, fun issue member => ?_⟩
  rw [registry, ← alive issue member, Heap.isAlive, Heap.isAlive, flags]

/-- A new registration is issued a flag of its own. Flags that the level had before stay dead,
because the new one has not been issued before.
-/
theorem register (tracks : machine.Tracks issued) {level : Level}
    (free : machine.registry.contains level = false)
    (registry : reached.registry = machine.registry.insert level machine.heap.flags.size)
    (heap : reached.heap = machine.heap.addFlag.2)
    : reached.Tracks ((level, machine.heap.flags.size) :: issued) := by
  have fresh : ∀ entry ∈ machine.registry.entries, entry.2 ≠ machine.heap.flags.size :=
    fun entry member => Nat.ne_of_lt (tracks.made entry (tracks.known entry member))
  refine ⟨registry ▸ tracks.distinct.insert free fresh, ?_, ?_, ?_⟩
  · intro entry member
    rw [registry] at member
    rcases Registry.mem_insert.mp member with rfl | member
    · exact List.mem_cons_self
    · exact List.mem_cons_of_mem _ (tracks.known entry member)
  · rw [heap]
    intro issue member
    simp only [Heap.addFlag, Array.size_push]
    rcases List.mem_cons.mp member with rfl | member
    · exact Nat.lt_succ_self _
    · exact Nat.lt_succ_of_lt (tracks.made issue member)
  · intro issue member
    rw [heap, registry, Heap.isAlive_addFlag]
    rcases List.mem_cons.mp member with rfl | member
    · simp [Registry.find?_insert_same _ _ free]
    · have older := Nat.ne_of_lt (tracks.made issue member)
      rw [decide_eq_false older, Bool.or_false, tracks.alive issue member]
      by_cases same : issue.1 = level
      · have absent : machine.registry.find? level = none := by
          simpa [Registry.contains] using free
        rw [same, Registry.find?_insert_same _ _ free, absent]
        simp [Ne.symm older]
      · rw [Registry.find?_insert_other _ _ same]

/-- Removing a level kills its flag and no other one, as no other level has this flag. -/
theorem remove (tracks : machine.Tracks issued) {level : Level} {flag : Nat}
    (found : machine.registry.find? level = some flag)
    (registry : reached.registry = machine.registry.erase level)
    (heap : reached.heap = machine.heap.killFlag flag)
    : reached.Tracks issued := by
  refine ⟨registry ▸ tracks.distinct.erase level, ?_, ?_, ?_⟩
  · intro entry member
    rw [registry] at member
    exact tracks.known entry (List.mem_filter.mp member).1
  · rw [heap]
    intro issue member
    simpa [Heap.killFlag] using tracks.made issue member
  · intro issue member
    rw [heap, registry]
    by_cases killed : flag = issue.2
    · subst killed
      rw [Heap.isAlive_killFlag_same]
      by_cases same : issue.1 = level
      · simp [same, Registry.find?_erase_same]
      · rw [Registry.find?_erase_other _ same]
        refine iff_of_false Bool.false_ne_true fun also => ?_
        exact same (tracks.distinct.level_eq found also)
    · rw [Heap.isAlive_killFlag_other _ killed, tracks.alive issue member]
      by_cases same : issue.1 = level
      · rw [same, Registry.find?_erase_same, found]
        simp [killed]
      · rw [Registry.find?_erase_other _ same]

/-- What is registered is alive. -/
theorem alive_of_entry (tracks : machine.Tracks issued) {entry : Level × Nat}
    (member : entry ∈ machine.registry.entries)
    : machine.heap.isAlive entry.2 = true :=
  (tracks.alive entry (tracks.known entry member)).mpr
    (tracks.distinct.find?_eq_some.mpr member)

end Machine.Tracks

-----------------------------------------------------------------------------------------
-- Computations that issue no flag
-----------------------------------------------------------------------------------------

/-- Flags have been added and killed, and none came back to life. -/
structure Machine.Ages (start reached : Machine) : Prop where
  size : start.heap.flags.size ≤ reached.heap.flags.size
  dead
    : ∀ flag < start.heap.flags.size,
        reached.heap.isAlive flag = true → start.heap.isAlive flag = true

theorem Machine.Ages.of_eq {start reached : Machine}
    (flags : reached.heap.flags = start.heap.flags)
    : start.Ages reached where
  size := Nat.le_of_eq (congrArg Array.size flags.symm)
  dead := by
    intro flag _ alive
    rwa [Heap.isAlive, flags] at alive

/-- Flags that age twice have aged. -/
theorem Machine.Ages.trans {start middle reached : Machine} (first : start.Ages middle)
    (second : middle.Ages reached)
    : start.Ages reached where
  size := Nat.le_trans first.size second.size
  dead := fun flag small alive =>
    first.dead flag small (second.dead flag (Nat.lt_of_lt_of_le small first.size) alive)

/-- A new flag is behind the others and brings none of them back. -/
theorem Machine.ages_addFlag {machine reached : Machine}
    (heap : reached.heap = machine.heap.addFlag.2)
    : machine.Ages reached where
  size := by simp [heap, Heap.addFlag]
  dead := by
    intro flag small alive
    rw [heap, Heap.isAlive_addFlag, decide_eq_false (Nat.ne_of_lt small), Bool.or_false] at alive
    exact alive

/-- Killing a flag brings none back to life. -/
theorem Machine.ages_killFlag {machine reached : Machine} {flag : Nat}
    (heap : reached.heap = machine.heap.killFlag flag)
    : machine.Ages reached where
  size := by simp [heap, Heap.killFlag]
  dead := by
    intro other _ alive
    rw [heap] at alive
    by_cases same : flag = other
    · rw [same, Heap.isAlive_killFlag_same] at alive
      cases alive
    · rwa [Heap.isAlive_killFlag_other _ same] at alive

/-- The computation issues no flag: those issued before are tracked on, however it ends. Values come
with a state as `ok` says.
-/
def Run.Tracks (body : Run α) (ok : α → Machine → Prop) : Prop :=
  ∀ (machine : Machine) (issued : List (Level × Nat)),
    machine.Tracks issued
    → body.Ends machine
        (fun value reached =>
          ok value reached ∧ reached.Tracks issued ∧ machine.Ages reached)
        (fun _ reached => reached.Tracks issued ∧ machine.Ages reached)

/-- Computations that issue no flag make sequences that issue none. -/
theorem Run.Tracks.bind {first : Run α} {next : α → Run β} {ok : β → Machine → Prop}
    (starts : first.Tracks fun _ _ => True) (goesOn : ∀ value, (next value).Tracks ok)
    : (first >>= next).Tracks ok := by
  intro machine issued tracks
  rw [ends_bind]
  refine (starts machine issued tracks).mono ?_ fun _ _ kept => kept
  intro value middle ⟨_, tracked, ages⟩
  refine (goesOn value middle issued tracked).mono ?_ ?_
  · exact fun _ _ ⟨given, kept, later⟩ => ⟨given, kept, ages.trans later⟩
  · exact fun _ _ ⟨kept, later⟩ => ⟨kept, ages.trans later⟩

theorem Run.tracks_pure (value : α) : (pure value : Run α).Tracks fun _ _ => True :=
  fun _ _ tracks => ⟨trivial, tracks, .of_eq rfl⟩

theorem Run.tracks_read (part : Machine → α) : (read part).Tracks fun _ _ => True :=
  fun _ _ tracks => ⟨trivial, tracks, .of_eq rfl⟩

theorem Run.tracks_onThread (change : Thread → Thread) : (onThread change).Tracks fun _ _ => True :=
  fun _ _ tracks => ⟨trivial, tracks.congr rfl rfl, .of_eq rfl⟩

/-- Everything that looks at the state and logs issues no flag. -/
theorem Run.tracks_logging : Logging (fun _ => True) fun body => body.Tracks fun _ _ => True where
  pure := tracks_pure
  bind := Tracks.bind
  plain _ := trivial
  throw _ _ _ tracks := ⟨tracks, .of_eq rfl⟩
  look _ := tracks_read _
  log _ := tracks_onThread _

/-- The flag of a level is one that was issued for it. -/
theorem Run.tracks_levelFlag (level : Level)
    : (levelFlag level).Tracks fun flag reached =>
        reached.registry.find? level = some flag := by
  intro machine issued tracks
  unfold levelFlag
  simp only [ends_bind, ends_read]
  split
  · rename_i flag found
    exact ⟨found, tracks, .of_eq rfl⟩
  · exact ⟨tracks, .of_eq rfl⟩

/-- A tagged value gets the flag that is registered for the level. If none is, there is no tagged
value.
-/
theorem Run.tracks_tagAt (value : Tensor) (level : Level)
    : (tagAt value level).Tracks fun tensor reached =>
        ∃ cell flag,
          tensor = .tagged cell level flag value
          ∧ reached.registry.find? level = some flag := by
  intro machine issued tracks
  unfold tagAt
  rw [ends_bind]
  refine (tracks_levelFlag level machine issued tracks).mono ?_ fun _ _ kept => kept
  intro flag middle ⟨found, tracked, ages⟩
  exact ⟨⟨_, flag, rfl, found⟩, tracked.congr rfl rfl, ages.trans (.of_eq rfl)⟩

/-- Releasing a guard may kill a flag, but neither it nor any other change of layers issues one. -/
theorem Run.tracks_layering : Layering (fun _ => True) fun body => body.Tracks fun _ _ => True where
  toLogging := tracks_logging
  misplaced _ _ := trivial
  onThread _ := tracks_onThread _
  removeLevel level machine issued tracks := by
    unfold removeLevel
    simp only [ends_bind, ends_read]
    split
    · rename_i flag found
      exact ⟨trivial, tracks.remove found rfl rfl, Machine.ages_killFlag rfl⟩
    · exact tracks_logging.log _ machine issued tracks

-----------------------------------------------------------------------------------------
-- Computations that issue a flag
-----------------------------------------------------------------------------------------

/-- The computation issues one flag, which it registers for the level that a value tells, or it issues
none and gives no value.
-/
def Run.Issues (body : Run α) (issue : α → Machine → Level × Nat) : Prop :=
  ∀ (machine : Machine) (issued : List (Level × Nat)),
    machine.Tracks issued
    → body.Ends machine
        (fun value reached =>
          reached.registry.find? (issue value reached).1 = some (issue value reached).2
          ∧ reached.Tracks (issue value reached :: issued)
          ∧ machine.Ages reached)
        (fun _ reached => reached.Tracks issued ∧ machine.Ages reached)

/-- Registering a level issues one flag for it, unless the level is taken. -/
theorem Run.issues_createLevel (level : Level)
    : (createLevel level).Issues fun flag _ => (level, flag) := by
  intro machine issued tracks
  unfold Run.Ends
  rw [createLevel_apply]
  cases free : machine.registry.contains level with
  | true => exact ⟨tracks, .of_eq rfl⟩
  | false =>
      exact ⟨Registry.find?_insert_same _ _ free, tracks.register free rfl rfl,
        Machine.ages_addFlag rfl⟩

/-- The level that was opened, with the flag that is registered for it. -/
def Machine.issueOf (reached : Machine) (level : Level) : Level × Nat :=
  (level, (reached.registry.find? level).getD 0)

/-- Opening a layer issues the flag of the level that it registers. Where the level is taken the
layer has been pushed by then, but no flag has been issued.
-/
theorem Run.issues_openLayer (transform : Transform)
    : (openLayer transform).Issues fun level reached => reached.issueOf level := by
  intro machine issued tracks
  refine ends_openLayer (fun _ => ⟨tracks, .of_eq rfl⟩) ?_ ?_
  · exact fun _ _ _ => ⟨tracks.congr rfl rfl, .of_eq rfl⟩
  · intro _ free log
    have found := Registry.find?_insert_same machine.registry machine.heap.flags.size free
    refine ⟨?_, ?_, Machine.ages_addFlag rfl⟩
    · simp only [Machine.issueOf, found, Option.getD_some]
    · simp only [Machine.issueOf, found, Option.getD_some]
      exact tracks.register free rfl rfl

-----------------------------------------------------------------------------------------
-- Courses
-----------------------------------------------------------------------------------------

namespace Course

/-- Every issued flag is tracked, and every tagged value has the flag that was issued for its level
when it was tagged.
-/
structure Tracked (course : Course) : Prop where
  tracks : course.machine.Tracks course.issued
  tagged
    : ∀ tag ∈ course.tagged,
        ∃ cell flag value, tag.2 = .tagged cell tag.1 flag value ∧ (tag.1, flag) ∈ course.issued

/-- What was issued and tagged is remembered, and no dead flag came back to life. -/
structure Leads (earlier later : Course) : Prop where
  issued : ∀ issue ∈ earlier.issued, issue ∈ later.issued
  tagged : ∀ tag ∈ earlier.tagged, tag ∈ later.tagged
  ages : earlier.machine.Ages later.machine

theorem Leads.refl (course : Course) : course.Leads course :=
  ⟨fun _ member => member, fun _ member => member, .of_eq rfl⟩

/-- A course that leads to another one leads to what that leads to. -/
theorem Leads.trans {earlier middle later : Course} (first : earlier.Leads middle)
    (second : middle.Leads later)
    : earlier.Leads later where
  issued := fun issue member => second.issued issue (first.issued issue member)
  tagged := fun tag member => second.tagged tag (first.tagged tag member)
  ages := first.ages.trans second.ages

/-- A later course in which everything is tracked. -/
def Continues (earlier later : Course) : Prop :=
  later.Tracked ∧ earlier.Leads later

variable {course : Course}

/-- An attempt that issues no flag, if what is kept of its value tells nothing of flags. -/
theorem Tracked.attempt (tracked : course.Tracked) {body : Run α} {ok : α → Machine → Prop}
    (tracks : body.Tracks ok) {keep : α → Course → Course}
    (machine : ∀ value after, (keep value after).machine = after.machine)
    (issued : ∀ value after, (keep value after).issued = after.issued)
    (tagged : ∀ value after, (keep value after).tagged = after.tagged)
    : course.Continues (course.attempt body keep) := by
  refine attempt_meets ((tracks course.machine course.issued tracked.tracks).mono ?_ ?_)
  · intro value reached ⟨_, kept, ages⟩
    refine ⟨⟨?_, ?_⟩, ⟨?_, ?_, ?_⟩⟩
    · rw [machine, issued]
      exact kept
    · rw [issued, tagged]
      exact tracked.tagged
    · rw [issued]
      exact fun _ member => member
    · rw [tagged]
      exact fun _ member => member
    · rw [machine]
      exact ages
  · intro exit reached ⟨kept, ages⟩
    exact ⟨⟨kept, tracked.tagged⟩, fun _ member => member, fun _ member => member, ages⟩

/-- An attempt that issues a flag, if that is noted. The noted flag is the one that is registered in
the state that the attempt has led to.
-/
theorem Tracked.attempt_issues (tracked : course.Tracked) {body : Run α}
    {issue : α → Machine → Level × Nat} (issues : body.Issues issue) {keep : α → Course → Course}
    (machine : ∀ value after, (keep value after).machine = after.machine)
    (issued
      : ∀ value after,
          after.machine.registry.find? (issue value after.machine).1
            = some (issue value after.machine).2
          → (keep value after).issued = issue value after.machine :: after.issued)
    (tagged : ∀ value after, (keep value after).tagged = after.tagged)
    : course.Continues (course.attempt body keep) := by
  refine attempt_meets ((issues course.machine course.issued tracked.tracks).mono ?_ ?_)
  · intro value reached ⟨found, kept, ages⟩
    have noted := issued value { course with machine := reached } found
    refine ⟨⟨?_, ?_⟩, ⟨?_, ?_, ?_⟩⟩
    · rw [machine, noted]
      exact kept
    · rw [noted, tagged]
      intro tag member
      obtain ⟨cell, flag, inner, same, given⟩ := tracked.tagged tag member
      exact ⟨cell, flag, inner, same, List.mem_cons_of_mem _ given⟩
    · rw [noted]
      exact fun _ member => List.mem_cons_of_mem _ member
    · rw [tagged]
      exact fun _ member => member
    · rw [machine]
      exact ages
  · intro exit reached ⟨kept, ages⟩
    exact ⟨⟨kept, tracked.tagged⟩, fun _ member => member, fun _ member => member, ages⟩

/-- Tagging a value gives it a flag that was issued for the level, since only such flags are
registered.
-/
theorem Tracked.tagAt (tracked : course.Tracked) (value : Tensor) (level : Level)
    : course.Continues (course.attempt (Run.tagAt value level) (keepTagged level)) := by
  have tags := tracks_tagAt value level course.machine course.issued tracked.tracks
  refine attempt_meets (tags.mono ?_ ?_)
  · rintro tensor reached ⟨⟨cell, flag, rfl, found⟩, kept, ages⟩
    have given := kept.known _ (kept.distinct.find?_eq_some.mp found)
    refine ⟨⟨kept, List.forall_mem_cons.mpr ⟨⟨cell, flag, value, rfl, given⟩, tracked.tagged⟩⟩,
      fun _ member => member, fun _ member => List.mem_cons_of_mem _ member, ages⟩
  · intro exit reached ⟨kept, ages⟩
    exact ⟨⟨kept, tracked.tagged⟩, fun _ member => member, fun _ member => member, ages⟩

theorem noteLevel_machine (level : Level) (after : Course)
    : (after.noteLevel level).machine = after.machine := by
  unfold noteLevel
  split <;> rfl

theorem noteLevel_tagged (level : Level) (after : Course)
    : (after.noteLevel level).tagged = after.tagged := by
  unfold noteLevel
  split <;> rfl

/-- A level that is registered is noted with its flag. -/
theorem noteLevel_issued {level : Level} {after : Course}
    (found
      : after.machine.registry.find? (after.machine.issueOf level).1
        = some (after.machine.issueOf level).2)
    : (after.noteLevel level).issued = after.machine.issueOf level :: after.issued := by
  have found : after.machine.registry.find? level = some (after.machine.issueOf level).2 := found
  unfold noteLevel
  rw [found]
  rfl

/-- To own a layer is to open it and to keep a guard of its level. -/
theorem attempt_ownLayer (transform : Transform) (keep : Guard → Course → Course)
    : course.attempt (Guard.ownLayer transform) keep
      = course.attempt (Run.openLayer transform) fun level => keep (.layer level) := by
  unfold attempt Guard.ownLayer
  rw [bind_apply]
  cases openLayer transform course.machine <;> rfl

/-- After every act the flags are tracked on, whether the act succeeds or is given up. The cases are
the acts; all but three issue no flag.
-/
theorem Tracked.perform (tracked : course.Tracked) (act : Act)
    : course.Continues (course.perform act) := by
  have plain {α : Type} {body : Run α} {ok : α → Machine → Prop} (tracks : body.Tracks ok)
      : course.Continues (course.attempt body pass) :=
    tracked.attempt tracks (fun _ _ => rfl) (fun _ _ => rfl) fun _ _ => rfl
  have guarded {body : Run Guard} (tracks : body.Tracks fun _ _ => True)
      : course.Continues (course.attempt body keepGuard) :=
    tracked.attempt tracks (fun _ _ => rfl) (fun _ _ => rfl) fun _ _ => rfl
  have hooks {change : Overlay → Overlay} : (onOverlay change).Tracks fun _ _ => True :=
    tracks_onThread _
  unfold Course.perform
  cases act with
  | push layer => exact plain (tracks_layering.pushLayer layer)
  | pop => exact plain tracks_layering.popLayer
  | openLayer transform =>
      exact tracked.attempt_issues (issues_openLayer transform) noteLevel_machine
        (fun _ _ => noteLevel_issued) noteLevel_tagged
  | closeLayer => exact plain tracks_layering.closeLayer
  | restoreLayers bottomFirst => exact plain (tracks_layering.restoreLayers bottomFirst)
  | createLevel level =>
      exact tracked.attempt_issues (issues_createLevel level) (fun _ _ => rfl)
        (fun _ _ _ => rfl) fun _ _ => rfl
  | levelFlag level => exact plain (tracks_levelFlag level)
  | removeLevel level => exact plain (tracks_layering.removeLevel level)
  | tagAt value level => exact tracked.tagAt value level
  | setIncluded capability member => exact plain hooks
  | setExcluded capability member => exact plain hooks
  | hide set => exact guarded (tracks_layering.hide set)
  | forceOn set => exact guarded (tracks_layering.forceOn set)
  | hideTop => exact guarded tracks_layering.hideTop
  | ownLayer transform =>
      dsimp only
      rw [attempt_ownLayer]
      exact tracked.attempt_issues (issues_openLayer transform)
        (fun level after => noteLevel_machine level (after.keepGuard (.layer level)))
        (fun level after => @noteLevel_issued level (after.keepGuard (.layer level)))
        fun level after => noteLevel_tagged level (after.keepGuard (.layer level))
  | capture =>
      exact tracked.attempt tracks_layering.capture (fun _ _ => rfl) (fun _ _ => rfl)
        fun _ _ => rfl
  | enter position =>
      dsimp only
      split
      · rename_i context found
        exact guarded (tracks_layering.enter context)
      · exact ⟨tracked, .refl _⟩
  | release position =>
      dsimp only
      split
      · rename_i guard found
        have rest : Course.Tracked { course with guards := course.guards.eraseIdx position } :=
          ⟨tracked.tracks, tracked.tagged⟩
        have leads : course.Leads { course with guards := course.guards.eraseIdx position } :=
          ⟨fun _ member => member, fun _ member => member, .of_eq rfl⟩
        obtain ⟨later, goesOn⟩ := rest.attempt (tracks_layering.release guard) (fun _ _ => rfl)
          (fun _ _ => rfl) fun _ _ => rfl
        exact ⟨later, leads.trans goesOn⟩
      · exact ⟨tracked, .refl _⟩

/-- After all acts of a sequence the flags are tracked on, and everything that was issued and tagged
before is remembered.
-/
theorem Tracked.performAll (tracked : course.Tracked) (acts : List Act)
    : course.Continues (course.performAll acts) := by
  refine @performAll_keeps course.Continues acts ?_ course ⟨tracked, .refl _⟩
  intro act _ middle ⟨tracked, leads⟩
  obtain ⟨later, goesOn⟩ := tracked.perform act
  exact ⟨later, leads.trans goesOn⟩

/-- On a thread that meets an empty registry, whatever is done and in whatever order, also after
faults: registered flags are distinct and alive, an issued flag is alive exactly if it is the one
registered for its level now, and a tagged value is alive exactly as long as the registration under
which it was tagged has not been removed, however often its level is registered later.
-/
theorem flags_track {machine : Machine} (unregistered : machine.registry = {})
    (first second : List Act)
    : let earlier := Course.performAll { machine } first
      let now := earlier.performAll second
      (now.machine.registry.entries.map Prod.snd).Nodup
      ∧ (∀ entry ∈ now.machine.registry.entries, now.machine.heap.isAlive entry.2 = true)
      ∧ (∀ issue ∈ now.issued,
          now.machine.heap.isAlive issue.2 = true
          ↔ now.machine.registry.find? issue.1 = some issue.2)
      ∧ ∀ tag ∈ earlier.tagged,
          ∃ cell flag value,
            tag.2 = .tagged cell tag.1 flag value
            ∧ (now.machine.heap.isAlive flag = true
              ↔ ∀ done, done <+: second →
                  (earlier.performAll done).machine.registry.find? tag.1 = some flag) := by
  intro earlier now
  have fresh : Course.Tracked { machine } := by
    refine ⟨⟨?_, ?_, List.forall_mem_nil _, List.forall_mem_nil _⟩, List.forall_mem_nil _⟩
    · rw [unregistered]
      exact ⟨List.nodup_nil, List.nodup_nil⟩
    · rw [unregistered]
      exact List.forall_mem_nil _
  have before : earlier.Tracked := (fresh.performAll first).1
  have tracks := (before.performAll second).1.tracks
  refine ⟨tracks.distinct.flags, fun entry => tracks.alive_of_entry, tracks.alive, ?_⟩
  intro tag member
  obtain ⟨cell, flag, value, same, given⟩ := before.tagged tag member
  refine ⟨cell, flag, value, same, fun alive done sofar => ?_, fun registered => ?_⟩
  · -- What is alive now was alive at every moment before.
    obtain ⟨rest, rfl⟩ := sofar
    obtain ⟨middle, leads⟩ := before.performAll done
    have issued := leads.issued _ given
    have later := (middle.performAll rest).2.ages
    refine (middle.tracks.alive _ issued).mp (later.dead flag (middle.tracks.made _ issued) ?_)
    rw [← performAll_append]
    exact alive
  · have issued := (before.performAll second).2.issued _ given
    exact (tracks.alive _ issued).mpr (registered second (List.prefix_refl second))

/-- Witness: a value is tagged at level one, which is then closed and registered twice more, the
second time in vain.
-/
theorem flags_track_reopened
    : let first : List Act :=
        [.openLayer (.batching 2 .error), .tagAt (.dense 0) 1, .hideTop,
          .ownLayer (.batching 3 .error)]
      let second : List Act := [.pop, .release 0, .closeLayer, .createLevel 1, .tagAt (.dense 0) 1]
      let earlier := Course.performAll { machine := {} } first
      let now := earlier.performAll second
      ({ : Machine }).registry = {}
      ∧ now.issued.length = 2
      ∧ (now.machine.registry.entries.map Prod.snd).Nodup
      ∧ (∀ entry ∈ now.machine.registry.entries, now.machine.heap.isAlive entry.2 = true)
      ∧ (∀ issue ∈ now.issued,
          now.machine.heap.isAlive issue.2 = true
          ↔ now.machine.registry.find? issue.1 = some issue.2)
      ∧ ∀ tag ∈ earlier.tagged,
          ∃ cell flag value,
            tag.2 = .tagged cell tag.1 flag value
            ∧ (now.machine.heap.isAlive flag = true
              ↔ ∀ done, done <+: second →
                  (earlier.performAll done).machine.registry.find? tag.1 = some flag) := by
  intro first second earlier now
  exact ⟨rfl, by decide, flags_track rfl first second⟩

end Course
end LayeredDispatch
