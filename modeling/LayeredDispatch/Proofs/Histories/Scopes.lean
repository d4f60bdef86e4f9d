import LayeredDispatch.Proofs.Histories.Liveness
import LayeredDispatch.Proofs.Histories.Programs
import LayeredDispatch.Proofs.Histories.Standing

/-! Single scopes. Main statements: a scope with a guard rewinds the thread if its body does, however it
is left; so does one with a layer, which kills the flag of its level besides.
-/

namespace LayeredDispatch

open Run Dispatcher

-----------------------------------------------------------------------------------------
-- Levels that come and go at the end
-----------------------------------------------------------------------------------------

namespace Registry

/-- A level that is not among the registered ones is free. -/
theorem contains_of_not_mem {registry : Registry} {level : Level} (free : level ∉ registry.levels)
    : registry.contains level = false := by
  simp only [contains, find?, Option.isSome_map, List.find?_isSome, Bool.eq_false_iff, ne_eq]
  rintro ⟨entry, member, same⟩
  exact free (List.mem_map.mpr ⟨entry, member, by simpa using same⟩)

/-- A level above all others is placed at the end. -/
theorem place_last {level : Level} (flag : Nat) {entries : List (Level × Nat)}
    (below : ∀ entry ∈ entries, ¬ level < entry.1)
    : place level flag entries = entries ++ [(level, flag)] := by
  induction entries with
  | nil => rfl
  | cons entry entries ih =>
      obtain ⟨first, others⟩ := List.forall_mem_cons.mp below
      rw [place, if_neg first, ih others, List.cons_append]

/-- Placing an entry of a level changes nothing of the other levels. -/
theorem filter_place {level : Level} (flag : Nat) (entries : List (Level × Nat))
    : (place level flag entries).filter (fun entry => entry.1 != level)
      = entries.filter fun entry => entry.1 != level := by
  induction entries with
  | nil => simp [place]
  | cons entry entries ih =>
      unfold place
      split
      · simp
      · simp only [List.filter_cons, ih]

/-- A level that was free is forgotten without a trace, wherever it was placed. -/
theorem erase_insert {registry : Registry} {level : Level} (free : level ∉ registry.levels)
    (flag : Nat)
    : (registry.insert level flag).erase level = registry := by
  have kept : registry.entries.filter (fun entry => entry.1 != level) = registry.entries := by
    refine List.filter_eq_self.mpr fun entry member => ?_
    rw [bne_iff_ne]
    rintro rfl
    exact free (List.mem_map_of_mem member)
  simp only [insert, erase, filter_place, kept]

/-- Levels that count up still do when the next one is registered, because it is placed at the end.
-/
theorem levels_insert {registry : Registry} {count : Nat}
    (levels : registry.levels = List.range' 1 count) (flag : Nat)
    : (registry.insert (count + 1) flag).levels = List.range' 1 (count + 1) := by
  have below : ∀ entry ∈ registry.entries, ¬ count + 1 < entry.1 := by
    intro entry member
    have known : entry.1 ∈ List.range' 1 count := levels ▸ List.mem_map_of_mem member
    have small := (List.mem_range'_1.mp known).2
    exact Nat.not_lt.mpr (Nat.le_of_lt_succ (by omega))
  have same : registry.entries.map Prod.fst = List.range' 1 count := levels
  simp only [Registry.levels, insert, place_last flag below, List.map_append, same,
    List.map_cons, List.map_nil, List.range'_concat]
  rw [Nat.one_mul, Nat.add_comm 1 count]

end Registry

/-- Taking away a hook that is not in a set changes nothing of it, unnamed bits included. -/
theorem CapabilitySet.erase_eq_self {set : CapabilitySet} {capability : Capability}
    (absent : set.contains capability = false)
    : set.erase capability = set := by
  refine congrArg CapabilitySet.mk (BitVec.eq_of_getLsbD_eq ?_)
  intro i inRange
  rw [BitVec.getLsbD_and, BitVec.getLsbD_not, bit, BitVec.getLsbD_twoPow]
  by_cases same : capability.priority = i
  · subst same
    have missing : set.bits.getLsbD capability.priority = false := absent
    rw [missing, Bool.false_and]
  · simp [same, inRange]

/-- Interceptors that come and go are gone, and the overlay is what it was if they were not
included.
-/
theorem Overlay.setInterception_true_false {overlay : Overlay}
    (entry : overlay.included.contains .entryInterceptor = false)
    (exit : overlay.included.contains .exitInterceptor = false)
    : (overlay.setInterception true).setInterception false = overlay := by
  have without
      : (overlay.setInterception true).setInterception false = overlay.setInterception false := by
    simp only [setInterception, setIncluded, CapabilitySet.set, CapabilitySet.insert,
      CapabilitySet.erase, if_true, if_false, Bool.false_eq_true, Overlay.mk.injEq,
      CapabilitySet.mk.injEq, and_true]
    ext i
    simp
    grind
  rw [without, setInterception, setIncluded, setIncluded]
  simp only [CapabilitySet.set, Bool.false_eq_true, if_false, CapabilitySet.erase_eq_self entry,
    CapabilitySet.erase_eq_self exit]

-----------------------------------------------------------------------------------------
-- Computations that rewind the thread
-----------------------------------------------------------------------------------------

/-- The thread is what it was, and no flag that was dead is alive. -/
structure Machine.Rewound (start reached : Machine) : Prop where
  restored : start.Restored reached
  ages : start.Ages reached

/-- From `machine` the computation ends without aborting, whatever way in a state as `left` says. -/
def Run.Returns (body : Run α) (machine : Machine) (left : Machine → Prop) : Prop :=
  body.Ends machine (fun _ reached => left reached)
    (fun exit reached => exit ≠ .abort ∧ left reached)

/-- From `machine` the computation ends without aborting and rewinds the thread. -/
def Run.Rewinds (body : Run α) (machine : Machine) : Prop :=
  body.Returns machine machine.Rewound

/-- Layers, interceptors and registered levels fit together. -/
structure Machine.Tidy (machine : Machine) : Prop where
  standing : machine.thread.Standing
  levels : machine.registry.levels = List.range' 1 machine.thread.layers.length

section

variable {start middle reached machine entered left : Machine} {opened : Scope}

theorem Machine.Restored.refl (machine : Machine) : machine.Restored machine :=
  ⟨rfl, rfl, rfl, rfl, rfl, rfl⟩

/-- What two computations restore one after another is restored. -/
theorem Machine.Restored.trans (first : start.Restored middle) (second : middle.Restored reached)
    : start.Restored reached :=
  ⟨second.layers.trans first.layers, second.overlay.trans first.overlay,
    second.grad.trans first.grad, second.forwardGrad.trans first.forwardGrad,
    second.registry.trans first.registry, second.spans.trans first.spans⟩

theorem Machine.Rewound.refl (machine : Machine) : machine.Rewound machine :=
  ⟨.refl machine, .of_eq rfl⟩

/-- A thread that is rewound twice is rewound. -/
theorem Machine.Rewound.trans (first : start.Rewound middle) (second : middle.Rewound reached)
    : start.Rewound reached :=
  ⟨first.restored.trans second.restored, first.ages.trans second.ages⟩

/-- Layers, interceptors and levels fit together after the thread has been rewound. -/
theorem Machine.Tidy.rewound (tidy : start.Tidy) (rewound : start.Rewound reached)
    : reached.Tidy := by
  obtain ⟨restored, -⟩ := rewound
  refine ⟨tidy.standing.congr restored.layers restored.overlay, ?_⟩
  rw [restored.registry, restored.layers]
  exact tidy.levels

/-- The next level is not registered, since the registered ones count up to the number of layers.
-/
theorem Machine.Tidy.free (tidy : machine.Tidy)
    : machine.thread.layers.length + 1 ∉ machine.registry.levels := by
  rw [tidy.levels, List.mem_range'_1]
  omega

namespace Run

/-- A computation that hands the state back rewinds the thread, if its layers and interceptors fit
together. It cannot abort, and it touches no flag.
-/
theorem Meets.rewinds {body : Run α} {ok : α → List Value → Heap → Prop} {failed : Exit → Prop}
    (standing : machine.thread.Standing) (h : body.Meets machine ok failed)
    : body.Rewinds machine := by
  refine Ends.mono h ?_ ?_
  · rintro value reached ⟨resumes, -⟩
    exact ⟨resumes.restored standing, .of_eq resumes.flags⟩
  · rintro exit reached ⟨orderly, resumes, -⟩
    refine ⟨?_, resumes.restored standing, .of_eq resumes.flags⟩
    rintro rfl
    exact orderly

theorem Returns.mono {body : Run α} {after after' : Machine → Prop}
    (returns : body.Returns machine after) (implies : ∀ reached, after reached → after' reached)
    : body.Returns machine after' :=
  Ends.mono returns (fun _ => implies) fun _ reached ended => ⟨ended.1, implies reached ended.2⟩

/-- What does not abort ends in one of the three ways. -/
theorem Returns.endsIn {body : Run (List Value)} {after : Machine → Prop}
    (returns : body.Returns machine after)
    : ∃ ending reached, body.EndsIn machine ending reached ∧ after reached := by
  unfold Returns Ends at returns
  unfold EndsIn
  cases ended : body machine with
  | ok values reached =>
      rw [ended] at returns
      exact ⟨.gives values, reached, rfl, returns⟩
  | error exit reached =>
      rw [ended] at returns
      obtain ⟨orderly, left⟩ := returns
      cases exit with
      | error error => exact ⟨.refuses error, reached, rfl, left⟩
      | fault fault => exact ⟨.faults fault, reached, rfl, left⟩
      | abort => exact absurd rfl orderly

/-- What is known of every end is known of the one that it comes to. -/
theorem Returns.of_endsIn {body : Run (List Value)} {after : Machine → Prop} {ending : Ending}
    (returns : body.Returns machine after) (ended : body.EndsIn machine ending reached)
    : after reached := by
  obtain ⟨other, left, again, known⟩ := returns.endsIn
  obtain ⟨-, rfl⟩ := ended.unique again
  exact known

/-- A part that goes on after another one, however that has ended, rewinds the thread if both do.
-/
theorem Rewinds.andThen {body : Run (List Value)} {next : Ending → Run (List Value)}
    (head : body.Rewinds machine)
    (tail : ∀ ending reached, machine.Rewound reached → (next ending).Rewinds reached)
    : (body.andThen next).Rewinds machine := by
  obtain ⟨ending, reached, ended, rewound⟩ := Returns.endsIn head
  have goesOn := tail ending reached rewound
  unfold Rewinds Returns Ends at goesOn ⊢
  rw [andThen_apply ended]
  split
  · rename_i gave
    rw [gave] at goesOn
    exact rewound.trans goesOn
  · rename_i stopped
    rw [stopped] at goesOn
    exact ⟨goesOn.1, rewound.trans goesOn.2⟩

/-- What cannot fail gives a value. -/
theorem Ends.exists_ok {body : Run α} {ok : α → Machine → Prop}
    (ends : body.Ends machine ok fun _ _ => False)
    : ∃ value reached, body machine = .ok value reached ∧ ok value reached := by
  unfold Ends at ends
  split at ends
  · rename_i value reached ended
    exact ⟨value, reached, ended, ends⟩
  · exact ends.elim

/-- A body with a cleanup that cannot fail wherever the body has rewound the thread to. The cleanup
runs after all three ends of the body, and it decides what the state is in the end.
-/
theorem Returns.ensuring {body outer : Run α} {cleanup : Run Unit} {after : Machine → Prop}
    (cleans
      : ∀ reached, entered.Rewound reached →
          cleanup.Ends reached (fun _ final => after final) fun _ _ => False)
    (started : outer machine = Run.ensuring body cleanup entered)
    (inner : body.Rewinds entered)
    : outer.Returns machine after := by
  unfold Rewinds Returns Ends at inner
  unfold Returns Ends
  rw [started]
  unfold Run.ensuring
  cases ended : body entered with
  | ok value reached =>
      rw [ended] at inner
      obtain ⟨_, final, cleaned, left⟩ := (cleans reached inner).exists_ok
      simpa only [cleaned] using left
  | error exit reached =>
      rw [ended] at inner
      obtain ⟨orderly, rewound⟩ := inner
      obtain ⟨_, final, cleaned, left⟩ := (cleans reached rewound).exists_ok
      cases exit with
      | error error => simpa only [cleaned] using ⟨orderly, left⟩
      | fault fault => simpa only [cleaned] using ⟨orderly, left⟩
      | abort => exact absurd rfl orderly

/-- The same where the body cannot fail. -/
theorem ends_ensuring {body : Run α} {cleanup : Run Unit} {ok : α → Machine → Prop}
    (ends
      : body.Ends machine
          (fun value reached => cleanup.Ends reached (fun _ final => ok value final) fun _ _ => False)
          fun _ _ => False)
    : (Run.ensuring body cleanup).Ends machine ok fun _ _ => False := by
  obtain ⟨value, reached, ended, cleans⟩ := ends.exists_ok
  obtain ⟨_, final, cleaned, left⟩ := cleans.exists_ok
  unfold Ends Run.ensuring
  simpa only [ended, cleaned] using left

/-- An action leaves the scopes alone. A call restores the thread, and tagging a value makes a tag
only.
-/
theorem rewinds_action (action : Program.Action) (standing : machine.thread.Standing)
    : action.run.Rewinds machine := by
  cases action with
  | call name arguments =>
      have agree := Regime.agree_call Regime.levels.baseAgrees_id name arguments machine
        standing.levelled
      exact agree.meets.rewinds standing
  | tag value level =>
      have quiet : Quiet (Program.Action.tag value level).run :=
        (quiet_writing.tagAt value level).bind fun _ => quiet_pure _
      exact (quiet machine).rewinds standing

-----------------------------------------------------------------------------------------
-- Scopes with a guard
-----------------------------------------------------------------------------------------

/-- A guard puts back the one thing that it has changed. Inside, layers and levels still fit
together, and the release cannot fail.
-/
theorem acquire_guard (scope : GuardScope) (tidy : machine.Tidy)
    : ∃ guard entered,
        scope.acquire machine = .ok guard entered
        ∧ entered.Tidy
        ∧ machine.Ages entered
        ∧ entered.registry = machine.registry
        ∧ ∀ reached, entered.Rewound reached →
            guard.release.Ends reached (fun _ final => machine.Rewound final) fun _ _ => False := by
  obtain ⟨standing, levels⟩ := tidy
  cases scope with
  | grad enabled =>
      refine ⟨_, _, rfl, ⟨standing.congr rfl rfl, levels⟩, .of_eq rfl, rfl, ?_⟩
      rintro reached ⟨restored, ages⟩
      exact ⟨{ restored with grad := rfl }, ages.size, ages.dead⟩
  | forwardGrad enabled =>
      refine ⟨_, _, rfl, ⟨standing.congr rfl rfl, levels⟩, .of_eq rfl, rfl, ?_⟩
      rintro reached ⟨restored, ages⟩
      exact ⟨{ restored with forwardGrad := rfl }, ages.size, ages.dead⟩
  | exclusion set =>
      obtain ⟨levelled, entry, exit⟩ := standing
      refine ⟨_, _, rfl, ⟨⟨levelled, entry, exit⟩, levels⟩, .of_eq rfl, rfl, ?_⟩
      rintro reached ⟨restored, ages⟩
      refine ⟨{ restored with overlay := ?_ }, ages.size, ages.dead⟩
      simp only [restored.overlay, CapabilitySet.union_sdiff_added]

/-- A scope with a guard rewinds the thread if its body does. -/
theorem rewinds_guard {scope : GuardScope} {body : Run α} (tidy : machine.Tidy)
    (inner : ∀ entered : Machine, entered.Tidy → body.Rewinds entered)
    : (holding scope.acquire body).Rewinds machine := by
  obtain ⟨guard, entered, acquired, tidied, -, -, releases⟩ := acquire_guard scope tidy
  refine Returns.ensuring releases ?_ (inner entered tidied)
  unfold holding
  rw [bind_apply, acquired]

end Run

-----------------------------------------------------------------------------------------
-- Scopes with a layer
-----------------------------------------------------------------------------------------

/-- What opening a scope leads to: its layer is on top, and the level of the layer is registered with a
new flag.
-/
structure Machine.Entered (machine : Machine) (opened : Scope) (entered : Machine) : Prop where
  level : opened.level = machine.thread.layers.length + 1
  layers
    : ∃ layer : Layer,
        layer.level = machine.thread.layers.length + 1
        ∧ entered.thread.layers = layer :: machine.thread.layers
  overlay : entered.thread.overlay = machine.pushedOverlay
  registry
    : entered.registry
      = machine.registry.insert (machine.thread.layers.length + 1) machine.heap.flags.size
  heap : entered.heap = machine.heap.addFlag.2
  forwardGrad : entered.thread.forwardGrad = machine.thread.forwardGrad
  recorder : entered.thread.recorder = machine.thread.recorder
  guards
    : opened.guards = [.grad machine.thread.grad, .layer (machine.thread.layers.length + 1)]
      ∨ opened.guards = [.layer (machine.thread.layers.length + 1)]
        ∧ entered.thread.grad = machine.thread.grad

namespace Run

/-- Opening a scope with a layer cannot fail: the next level is free, and a differentiation scope
asks for the gradient mode before it opens its layer.
-/
theorem ends_acquire (scope : LayerScope) (tidy : machine.Tidy)
    : scope.acquire.Ends machine (fun opened entered => machine.Entered opened entered)
        fun _ _ => False := by
  have free := Registry.contains_of_not_mem tidy.free
  cases scope with
  | differentiation =>
      simp only [LayerScope.acquire, Scope.differentiation, ends_bind, ends_read]
      refine ends_openLayer (by simp [Transform.isComplete]) (by simp [free]) ?_
      exact fun _ _ log => ⟨rfl, ⟨_, rfl, rfl⟩, rfl, rfl, rfl, rfl, rfl, .inl rfl⟩
  | batching size randomness =>
      simp only [LayerScope.acquire, Scope.batching, ends_bind]
      refine ends_openLayer (by simp [Transform.isComplete]) (by simp [free]) ?_
      exact fun _ _ log => ⟨rfl, ⟨_, rfl, rfl⟩, rfl, rfl, rfl, rfl, rfl, .inr ⟨rfl, rfl⟩⟩

/-- Closing the top layer pops it and kills the flag of its level. -/
theorem ends_closeLayer {layer : Layer} {below : List Layer} {flag : Nat}
    {ok : Layer → Machine → Prop} {failed : Exit → Machine → Prop}
    (top : machine.thread.layers = layer :: below)
    (found : machine.registry.find? layer.level = some flag)
    (closed
      : ∀ log,
          ok layer
            { machine with
              thread := { machine.thread with
                layers := below
                overlay :=
                  if below.isEmpty then machine.thread.overlay.setInterception false
                  else machine.thread.overlay
                log }
              registry := machine.registry.erase layer.level
              heap := machine.heap.killFlag flag })
    : closeLayer.Ends machine ok failed := by
  obtain ⟨log, popped⟩ := popLayer_apply top
  unfold closeLayer removeLevel Ends
  rw [bind_apply, popped]
  dsimp only
  rw [bind_apply, bind_apply, read_apply]
  dsimp only
  rw [found]
  exact closed _

end Run

/-- Inside a scope with a layer, layers, interceptors and levels fit together, with one more of
each.
-/
theorem Machine.Entered.tidy (h : machine.Entered opened entered) (tidy : machine.Tidy)
    : entered.Tidy := by
  obtain ⟨layer, level, layers⟩ := h.layers
  obtain ⟨⟨levelled, entry, exit⟩, levels⟩ := tidy
  refine ⟨⟨?_, ?_, ?_⟩, ?_⟩
  · rw [layers]
    exact ⟨level, levelled⟩
  · rw [layers, h.overlay, pushedOverlay]
    cases active : machine.thread.layers with
    | nil => simp
    | cons top below => simpa [active] using entry
  · rw [layers, h.overlay, pushedOverlay]
    cases active : machine.thread.layers with
    | nil => simp
    | cons top below => simpa [active] using exit
  · rw [layers, h.registry, List.length_cons]
    exact Registry.levels_insert levels _

theorem Machine.Entered.ages (h : machine.Entered opened entered) : machine.Ages entered :=
  ages_addFlag h.heap

/-- The level of the scope has the flag that was new. -/
theorem Machine.Entered.registered (h : machine.Entered opened entered) (tidy : machine.Tidy)
    : entered.registry.find? opened.level = some machine.heap.flags.size := by
  rw [h.registry, h.level]
  exact Registry.find?_insert_same _ _ (Registry.contains_of_not_mem tidy.free)

/-- The other levels keep their flags, since the new one is none of theirs. -/
theorem Machine.Entered.kept (h : machine.Entered opened entered) (tidy : machine.Tidy)
    {level : Level} {flag : Nat} (found : machine.registry.find? level = some flag)
    : entered.registry.find? level = some flag := by
  have free := Registry.contains_of_not_mem tidy.free
  have apart : level ≠ machine.thread.layers.length + 1 := by
    rintro rfl
    rw [Registry.contains, found] at free
    cases free
  rw [h.registry, Registry.find?_insert_other _ _ apart, found]

/-- The interceptors go with the first layer, with which they came. With other layers below they
stay.
-/
theorem Machine.Tidy.overlay_closed (tidy : machine.Tidy)
    : (if machine.thread.layers.isEmpty then machine.pushedOverlay.setInterception false
        else machine.pushedOverlay)
      = machine.thread.overlay := by
  have entry := tidy.standing.entry
  have exit := tidy.standing.exit
  unfold pushedOverlay
  cases active : machine.thread.layers with
  | nil =>
      rw [active] at entry exit
      simpa using Overlay.setInterception_true_false entry exit
  | cons top below => simp

/-- The thread is what it was before a scope with a layer, and the flag that the level had then is dead. -/
structure Machine.Unwound (machine left : Machine) : Prop where
  rewound : machine.Rewound left
  made : machine.heap.flags.size < left.heap.flags.size
  dead : left.heap.isAlive machine.heap.flags.size = false

/-- Closing the layer of a scope unwinds the thread, once the gradient mode is what it was. The
layer is on top again because the body has rewound the thread, and its level is forgotten without a
trace.
-/
theorem Machine.Entered.ends_release (h : machine.Entered opened entered) (tidy : machine.Tidy)
    (rewound : entered.Rewound { reached with thread := { reached.thread with
      grad := entered.thread.grad } })
    (grad : reached.thread.grad = machine.thread.grad)
    : (Guard.layer (machine.thread.layers.length + 1)).release.Ends reached
        (fun _ final => machine.Unwound final) fun _ _ => False := by
  obtain ⟨layer, level, layers⟩ := h.layers
  obtain ⟨restored, ages⟩ := rewound
  have top : reached.thread.layers = layer :: machine.thread.layers := restored.layers.trans layers
  have registry : reached.registry = entered.registry := restored.registry
  have found : reached.registry.find? layer.level = some machine.heap.flags.size := by
    rw [registry, level, ← h.level]
    exact h.registered tidy
  have overlay : reached.thread.overlay = machine.pushedOverlay := restored.overlay.trans h.overlay
  simp only [Guard.release, topLayer?, ends_bind, ends_read, top, List.head?_cons, Option.map_some,
    level, if_true, ends_discard]
  have older : entered.Ages reached := ⟨ages.size, ages.dead⟩
  refine ends_closeLayer top found fun log => ⟨⟨?_, ?_⟩, ?_, Heap.isAlive_killFlag_same _ _⟩
  · refine ⟨rfl, ?_, grad, restored.forwardGrad.trans h.forwardGrad, ?_, ?_⟩
    · dsimp only
      rw [overlay]
      exact tidy.overlay_closed
    · dsimp only
      rw [registry, h.registry, level]
      exact Registry.erase_insert tidy.free _
    · exact restored.spans.trans (congrArg (Option.map Recorder.spans) h.recorder)
  · exact (h.ages.trans older).trans (ages_killFlag rfl)
  · have grown := older.size
    rw [h.heap] at grown
    simp only [Heap.addFlag, Array.size_push] at grown
    simp only [Heap.killFlag, Array.size_setIfInBounds]
    exact grown

/-- Wherever the body of a scope has rewound the thread to, the end of the scope unwinds it. Of the
guards of a differentiation scope, the one of the gradient mode is released first.
-/
theorem Machine.Entered.ends_close (h : machine.Entered opened entered) (tidy : machine.Tidy)
    (rewound : entered.Rewound reached)
    : opened.close.Ends reached (fun _ final => machine.Unwound final) fun _ _ => False := by
  have same : reached.thread.grad = entered.thread.grad := rewound.restored.grad
  unfold Scope.close
  rcases h.guards with guards | ⟨guards, grad⟩
  · rw [guards]
    refine ends_ensuring ?_
    change (Run.ensuring _ _).Ends _ _ _
    refine ends_ensuring (h.ends_release tidy ?_ rfl)
    rw [← same]
    exact rewound
  · rw [guards]
    refine ends_ensuring (h.ends_release tidy ?_ (same.trans grad))
    rw [← same]
    exact rewound

/-- A scope with a layer unwinds the thread, however its body is left. -/
theorem Run.unwinds_layer {scope : LayerScope} {body : Level → Run α} (tidy : machine.Tidy)
    (inner
      : ∀ opened entered, machine.Entered opened entered → (body opened.level).Rewinds entered)
    : (scope.run body).Returns machine machine.Unwound := by
  obtain ⟨opened, entered, acquired, h⟩ := (ends_acquire scope tidy).exists_ok
  refine Returns.ensuring (fun reached => h.ends_close tidy) ?_ (inner opened entered h)
  rw [LayerScope.run_eq, within, bind_apply, acquired]

end

end LayeredDispatch
