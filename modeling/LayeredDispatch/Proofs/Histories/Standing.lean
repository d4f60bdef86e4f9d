import LayeredDispatch.Proofs.Dispatch.Restoration
import LayeredDispatch.Proofs.Histories.Course

/-! The layers of a thread and the interceptors fit together after every act. Guards may be released
late and in any order, because what a guard puts back was consistent when it was made. Main statement:
levels count up from one, and both interceptors are included exactly while a layer is active.
-/

namespace LayeredDispatch

open Run

-----------------------------------------------------------------------------------------
-- Levels that count up from the bottom
-----------------------------------------------------------------------------------------

/-- Levels that count down to one from the top count up from one at the bottom. -/
theorem Layer.Levelled.levels_eq {layers : List Layer} (h : Levelled layers)
    : layers.reverse.map Layer.level = List.range' 1 layers.length := by
  induction layers with
  | nil => rfl
  | cons top below ih =>
      rw [List.reverse_cons, List.map_append, ih h.2, List.length_cons, List.range'_concat]
      simp only [List.map_cons, List.map_nil, h.1, Nat.one_mul]
      rw [Nat.add_comm]

/-- Levels that count up from one at the bottom are those of the positions. -/
theorem Layer.levelled_of_levels_eq {layers : List Layer}
    (h : layers.reverse.map Layer.level = List.range' 1 layers.length)
    : Levelled layers := by
  induction layers with
  | nil => trivial
  | cons top below ih =>
      rw [List.reverse_cons, List.map_append, List.length_cons, List.range'_concat] at h
      have same := List.append_inj h (by simp)
      have level : top.level = 1 + below.length := by simpa using same.2
      exact ⟨level.trans (Nat.add_comm ..), ih same.1⟩

/-- Layers pass the check of their positions exactly if their levels count up. The first level that
does not ends the check.
-/
theorem Run.ends_checkPositions {layers : List Layer} (first : Nat) {machine : Machine}
    {ok : PUnit → Machine → Prop} {failed : Exit → Machine → Prop}
    (passed : layers.map Layer.level = List.range' (first + 1) layers.length → ok ⟨⟩ machine)
    (refused : ∀ fault, failed (.fault fault) machine)
    : ((layers.zipIdx first).forM fun (layer, position) => do
        if layer.level ≠ position + 1 then
          (Run.fault (.unexpectedRestore layer position) : Run PUnit)).Ends machine ok failed := by
  induction layers generalizing first with
  | nil => exact passed rfl
  | cons layer layers ih =>
      rw [List.zipIdx_cons]
      refine (ends_bind _ _ _ _ _).mpr ?_
      by_cases level : layer.level = first + 1
      · simp only [level, ne_eq, not_true_eq_false, if_false, ends_pure]
        refine ih (first + 1) fun rest => passed ?_
        rw [List.map_cons, List.length_cons, List.range'_succ, level, rest]
      · simp only [level, ne_eq, not_false_eq_true, if_true, ends_fault]
        exact refused _

-----------------------------------------------------------------------------------------
-- Computations that keep layers and interceptors in step
-----------------------------------------------------------------------------------------

@[simp] theorem Overlay.entry_setInterception (overlay : Overlay) (active : Bool)
    : (overlay.setInterception active).included.contains .entryInterceptor = active := by
  cases active <;> simp [setInterception, setIncluded, CapabilitySet.set]

@[simp] theorem Overlay.exit_setInterception (overlay : Overlay) (active : Bool)
    : (overlay.setInterception active).included.contains .exitInterceptor = active := by
  cases active <;> simp [setInterception, setIncluded, CapabilitySet.set]

/-- Whether a thread is consistent depends on its layers and its overlay only. -/
theorem Thread.Standing.congr {thread other : Thread} (standing : thread.Standing)
    (layers : other.layers = thread.layers) (overlay : other.overlay = thread.overlay)
    : other.Standing := by
  obtain ⟨levelled, entry, exit⟩ := standing
  rw [← layers] at levelled entry exit
  rw [← overlay] at entry exit
  exact ⟨levelled, entry, exit⟩

/-- The computation keeps layers and interceptors in step, and gives values as `ok` says. -/
def Run.Stands (body : Run α) (ok : α → Prop) : Prop :=
  ∀ machine : Machine,
    machine.thread.Standing
    → body.Ends machine (fun value reached => ok value ∧ reached.thread.Standing)
        (fun _ reached => reached.thread.Standing)

/-- Computations that keep layers and interceptors in step make sequences that do. -/
theorem Run.Stands.bind {first : Run α} {next : α → Run β} {given : α → Prop} {ok : β → Prop}
    (starts : first.Stands given) (goesOn : ∀ value, given value → (next value).Stands ok)
    : (first >>= next).Stands ok := by
  intro machine standing
  rw [ends_bind]
  exact (starts machine standing).mono
    (fun value reached kept => goesOn value kept.1 reached kept.2) (fun _ _ kept => kept)

theorem Run.Stands.discard {body : Run α} {given : α → Prop} (stands : body.Stands given)
    : (Functor.discard body).Stands fun _ => True := by
  intro machine standing
  rw [ends_discard]
  exact (stands machine standing).mono (fun _ _ kept => ⟨trivial, kept.2⟩) fun _ _ kept => kept

theorem Run.stands_pure {value : α} {ok : α → Prop} (given : ok value)
    : (pure value : Run α).Stands ok :=
  fun _ standing => ⟨given, standing⟩

theorem Run.stands_fault (fault : Fault) (ok : α → Prop) : (Run.fault fault : Run α).Stands ok :=
  fun _ standing => standing

theorem Run.stands_read (part : Machine → α) : (read part).Stands fun _ => True :=
  fun _ standing => ⟨trivial, standing⟩

/-- A change of the state that leaves layers and overlay alone. -/
theorem Run.stands_modify {change : Machine → Machine}
    (layers : ∀ machine, (change machine).thread.layers = machine.thread.layers)
    (overlay : ∀ machine, (change machine).thread.overlay = machine.thread.overlay)
    : (modify change : Run PUnit).Stands fun _ => True :=
  fun machine standing => ⟨trivial, standing.congr (layers machine) (overlay machine)⟩

theorem Run.stands_allocate (make : Heap → α × Heap) : (allocate make).Stands fun _ => True :=
  fun _ standing => ⟨trivial, standing.congr rfl rfl⟩

theorem Run.stands_log (event : Event) : (log event).Stands fun _ => True :=
  stands_modify (fun _ => rfl) fun _ => rfl

/-- A change of the overlay that includes the interceptors as before. -/
theorem Run.stands_onOverlay {change : Overlay → Overlay}
    (entry
      : ∀ overlay : Overlay,
          (change overlay).included.contains .entryInterceptor
          = overlay.included.contains .entryInterceptor)
    (exit
      : ∀ overlay : Overlay,
          (change overlay).included.contains .exitInterceptor
          = overlay.included.contains .exitInterceptor)
    : (onOverlay change).Stands fun _ => True := by
  intro machine standing
  exact ⟨trivial, standing.levelled, (entry _).trans standing.entry,
    (exit _).trans standing.exit⟩

/-- Pushing a layer includes the interceptors with the first one, and a layer of another level is
refused before anything changes.
-/
theorem Run.stands_pushLayer (layer : Layer) : (pushLayer layer).Stands fun _ => True := by
  intro machine standing
  by_cases level : layer.level = machine.thread.layers.length + 1
  · obtain ⟨log, pushed⟩ := pushLayer_apply level
    unfold Run.Ends
    rw [pushed]
    have entry := standing.entry
    have exit := standing.exit
    refine ⟨trivial, ⟨level, standing.levelled⟩, ?_, ?_⟩ <;>
      cases active : machine.thread.layers <;>
      simp_all
  · unfold pushLayer
    simpa [level] using standing

/-- Popping a layer excludes the interceptors again with the last one. -/
theorem Run.stands_popLayer : popLayer.Stands fun _ => True := by
  intro machine standing
  cases layers : machine.thread.layers with
  | nil =>
      unfold popLayer
      simpa [layers] using standing
  | cons layer below =>
      obtain ⟨log, popped⟩ := popLayer_apply layers
      unfold Run.Ends
      rw [popped]
      have levelled := standing.levelled
      have entry := standing.entry
      have exit := standing.exit
      rw [layers] at levelled entry exit
      refine ⟨trivial, levelled.2, ?_, ?_⟩ <;>
        cases below <;>
        simp_all

/-- Restored layers have the levels of their positions, or nothing changes. -/
theorem Run.ends_restoreLayers {bottomFirst : List Layer} {machine : Machine}
    {ok : Unit → Machine → Prop} {failed : Exit → Machine → Prop}
    (passed
      : Layer.Levelled bottomFirst.reverse
        → ok ()
            { machine with thread := { machine.thread with
              layers := bottomFirst.reverse
              overlay :=
                if machine.thread.layers.isEmpty ≠ bottomFirst.isEmpty then
                  machine.thread.overlay.setInterception (!bottomFirst.isEmpty)
                else machine.thread.overlay } })
    (refused : ∀ fault, failed (.fault fault) machine)
    : (restoreLayers bottomFirst).Ends machine ok failed := by
  unfold restoreLayers
  rw [ends_bind]
  refine ends_checkPositions 0 (fun levels => ?_) refused
  have reached := passed (Layer.levelled_of_levels_eq (by simpa using levels))
  simp only [setLayers, onOverlay, ends_bind, ends_read, ends_onThread]
  split
  · rename_i turned
    rw [if_pos turned] at reached
    exact reached
  · rename_i same
    rw [if_neg same] at reached
    exact reached

/-- Restoring layers includes the interceptors if there are any. -/
theorem Run.stands_restoreLayers (bottomFirst : List Layer)
    : (restoreLayers bottomFirst).Stands fun _ => True := by
  intro machine standing
  have entry := standing.entry
  have exit := standing.exit
  refine ends_restoreLayers (fun levelled => ⟨trivial, levelled, ?_, ?_⟩) fun _ => standing <;>
    dsimp only <;>
    split <;>
    simp_all

theorem Run.stands_removeLevel (level : Level) : (removeLevel level).Stands fun _ => True := by
  refine (stands_read _).bind fun registry _ => ?_
  split
  · exact (stands_modify (fun _ => rfl) fun _ => rfl).bind fun _ _ =>
      stands_modify (fun _ => rfl) fun _ => rfl
  · exact stands_log _

/-- Registering a level does nothing to layers. -/
theorem Run.stands_createLevel (level : Level) : (createLevel level).Stands fun _ => True := by
  refine (stands_read _).bind fun registry _ => ?_
  have registers
      : (do
          let flag ← allocate Heap.addFlag
          modify fun machine =>
            { machine with registry := machine.registry.insert level flag }
          return flag : Run Nat).Stands fun _ => True := by
    refine (stands_allocate _).bind fun flag _ => ?_
    have stores
        : (modify fun machine : Machine =>
            { machine with registry := machine.registry.insert level flag } : Run PUnit).Stands
            fun _ => True :=
      stands_modify (fun _ => rfl) fun _ => rfl
    exact stores.bind fun _ _ => stands_pure trivial
  split
  · exact (stands_fault _ fun _ => True).bind fun _ _ => registers
  · exact registers

theorem Run.stands_levelFlag (level : Level) : (levelFlag level).Stands fun _ => True := by
  refine (stands_read _).bind fun registry _ => ?_
  split
  · exact stands_pure trivial
  · exact stands_fault _ _

/-- Opening a layer pushes it. That a taken level leaves the layer behind does no harm here: layers
and interceptors are in step without a registered level.
-/
theorem Run.stands_openLayer (transform : Transform)
    : (openLayer transform).Stands fun _ => True := by
  refine (stands_read _).bind fun count _ => ?_
  have builds : (buildLayer transform (count + 1)).Stands fun _ => True := by
    unfold buildLayer
    split
    · exact (stands_read _).bind fun _ _ => stands_pure trivial
    · exact stands_fault _ _
  refine builds.bind fun layer _ => ?_
  refine (stands_pushLayer layer).discard.bind fun _ _ => ?_
  refine (stands_createLevel (count + 1)).discard.bind fun _ _ => ?_
  exact (stands_log _).bind fun _ _ => stands_pure trivial

theorem Run.stands_closeLayer : closeLayer.Stands fun _ => True :=
  stands_popLayer.bind fun layer _ =>
    (stands_removeLevel layer.level).bind fun _ _ =>
      (stands_log _).bind fun _ _ => stands_pure trivial

-----------------------------------------------------------------------------------------
-- Contexts and guards
-----------------------------------------------------------------------------------------

/-- A context in which layers and interceptors fit together. -/
def Context.Standing (context : Context) : Prop :=
  ({ layers := context.layers.reverse, overlay := context.overlay } : Thread).Standing

/-- A context that is captured in a consistent state is consistent. -/
theorem Context.stands_capture : capture.Stands Context.Standing := by
  intro machine standing
  refine ⟨standing.congr ?_ rfl, standing⟩
  exact List.reverse_reverse _

/-- Whatever the layers were, those of the context replace them, and its overlay suits them. -/
theorem Context.stands_install {context : Context} (standing : context.Standing)
    : context.install.Stands fun _ => True := by
  intro machine before
  unfold install
  rw [ends_bind]
  exact ends_restoreLayers (fun _ => ⟨trivial, standing.congr rfl rfl⟩) fun _ => before

/-- Neither interceptor is among the hooks. -/
def CapabilitySet.SparesInterceptors (set : CapabilitySet) : Prop :=
  set.contains .entryInterceptor = false ∧ set.contains .exitInterceptor = false

/-- What a guard puts back when it is released suits the layers of any time: it hides or reveals no
interceptor, and a context that it restores was consistent.
-/
def Guard.Sparing : Guard → Prop
  | .overlay _ => False
  | .inclusion added => added.SparesInterceptors
  | .context saved => saved.Standing
  | _ => True

/-- A guard that puts back what was consistent keeps layers and interceptors in step, whenever it is
released. Only a guard of the whole overlay could not promise this.
-/
theorem Guard.stands_release {guard : Guard} (sparing : guard.Sparing)
    : guard.release.Stands fun _ => True := by
  cases guard with
  | overlay saved => exact sparing.elim
  | exclusion added =>
      unfold release
      exact stands_onOverlay (fun _ => rfl) fun _ => rfl
  | inclusion added =>
      obtain ⟨entry, exit⟩ := sparing
      unfold release
      exact stands_onOverlay (fun overlay => by simp [entry]) fun overlay => by simp [exit]
  | grad previous => exact stands_modify (fun _ => rfl) fun _ => rfl
  | forwardGrad previous => exact stands_modify (fun _ => rfl) fun _ => rfl
  | withoutTop layer => exact (stands_pushLayer layer).discard
  | layer level =>
      refine (stands_read _).bind fun top? _ => ?_
      dsimp only
      split
      · exact stands_closeLayer.discard
      · exact (stands_log _).bind fun _ _ => stands_removeLevel level
  | context saved => exact Context.stands_install sparing

theorem Guard.stands_hide (set : CapabilitySet) : (hide set).Stands Sparing :=
  fun _ standing => ⟨trivial, standing.levelled, standing.entry, standing.exit⟩

/-- Forcing hooks on that are no interceptors leaves a guard that may be released at any time. -/
theorem Guard.stands_forceOn {set : CapabilitySet} (sparing : set.SparesInterceptors)
    : (forceOn set).Stands Sparing := by
  obtain ⟨entry, exit⟩ := sparing
  intro machine standing
  refine ⟨⟨by simp [entry], by simp [exit]⟩, standing.levelled, ?_, ?_⟩
  · simpa [entry] using standing.entry
  · simpa [exit] using standing.exit

theorem Guard.stands_hideTop : hideTop.Stands Sparing :=
  stands_popLayer.bind fun _ _ => stands_pure trivial

theorem Guard.stands_ownLayer (transform : Transform) : (ownLayer transform).Stands Sparing :=
  (stands_openLayer transform).bind fun _ _ => stands_pure trivial

/-- Entering a context keeps the one of before, which was consistent. -/
theorem Guard.stands_enter {context : Context} (standing : context.Standing)
    : (enter context).Stands Sparing :=
  Context.stands_capture.bind fun _ saved =>
    (Context.stands_install standing).bind fun _ _ => stands_pure saved

-----------------------------------------------------------------------------------------
-- Courses
-----------------------------------------------------------------------------------------

/-- The act does not by itself switch the inclusion of an interceptor. -/
def Act.Sparing : Act → Prop
  | .setIncluded capability _ =>
      capability ≠ .entryInterceptor ∧ capability ≠ .exitInterceptor
  | .forceOn set => set.SparesInterceptors
  | _ => True

namespace Course

/-- Layers and interceptors fit together, now and in everything that guards and contexts may put
back.
-/
structure Sound (course : Course) : Prop where
  standing : course.machine.thread.Standing
  guards : ∀ guard ∈ course.guards, guard.Sparing
  contexts : ∀ context ∈ course.contexts, context.Standing

/-- A computation that keeps layers and interceptors in step may be attempted if what is kept of its
value is sound.
-/
theorem Sound.attempt {course : Course} (sound : course.Sound) {body : Run α} {ok : α → Prop}
    (stands : body.Stands ok) {keep : α → Course → Course}
    (keeps : ∀ value, ok value → ∀ after : Course, after.Sound → (keep value after).Sound)
    : (course.attempt body keep).Sound := by
  refine attempt_meets ((stands course.machine sound.standing).mono ?_ ?_)
  · intro value machine kept
    exact keeps value kept.1 _ ⟨kept.2, sound.guards, sound.contexts⟩
  · intro exit machine standing
    exact ⟨standing, sound.guards, sound.contexts⟩

theorem Sound.keepGuard {guard : Guard} (sparing : guard.Sparing) {course : Course}
    (sound : course.Sound)
    : (course.keepGuard guard).Sound :=
  { sound with guards := List.forall_mem_cons.mpr ⟨sparing, sound.guards⟩ }

theorem Sound.keepContext {context : Context} (standing : context.Standing) {course : Course}
    (sound : course.Sound)
    : (course.keepContext context).Sound :=
  { sound with contexts := List.forall_mem_cons.mpr ⟨standing, sound.contexts⟩ }

theorem Sound.noteLevel (level : Level) {course : Course} (sound : course.Sound)
    : (course.noteLevel level).Sound := by
  unfold Course.noteLevel
  split
  · exact { sound with }
  · exact sound

theorem Sound.keepOwner {guard : Guard} (sparing : guard.Sparing) {course : Course}
    (sound : course.Sound)
    : (course.keepOwner guard).Sound := by
  unfold Course.keepOwner
  split
  · exact (sound.keepGuard sparing).noteLevel _
  · exact sound.keepGuard sparing

/-- An act keeps layers and interceptors in step, also one that ends without a value. The cases are
the acts, each of them an attempt of a computation that has been settled above.
-/
theorem Sound.perform {course : Course} (sound : course.Sound) {act : Act} (sparing : act.Sparing)
    : (course.perform act).Sound := by
  cases act with
  | push layer => exact sound.attempt (stands_pushLayer layer) fun _ _ _ after => after
  | pop => exact sound.attempt stands_popLayer fun _ _ _ after => after
  | openLayer transform =>
      exact sound.attempt (stands_openLayer transform) fun level _ _ after =>
        after.noteLevel level
  | closeLayer => exact sound.attempt stands_closeLayer fun _ _ _ after => after
  | restoreLayers bottomFirst =>
      exact sound.attempt (stands_restoreLayers bottomFirst) fun _ _ _ after => after
  | createLevel level =>
      exact sound.attempt (stands_createLevel level) fun _ _ _ after => { after with }
  | levelFlag level => exact sound.attempt (stands_levelFlag level) fun _ _ _ after => after
  | removeLevel level => exact sound.attempt (stands_removeLevel level) fun _ _ _ after => after
  | tagAt value level =>
      have stands : (Run.tagAt value level).Stands fun _ => True :=
        (stands_levelFlag level).bind fun _ _ => stands_allocate _
      exact sound.attempt stands fun _ _ _ after => { after with }
  | setIncluded capability member =>
      have stands
          : (onOverlay fun overlay => overlay.setIncluded capability member).Stands
              fun _ => True := by
        refine stands_onOverlay ?_ ?_ <;>
          intro overlay <;>
          cases member <;>
          simp [Overlay.setIncluded, CapabilitySet.set, sparing.1, sparing.2]
      exact sound.attempt stands fun _ _ _ after => after
  | setExcluded capability member =>
      have stands
          : (onOverlay fun overlay => overlay.setExcluded capability member).Stands
              fun _ => True :=
        stands_onOverlay (fun _ => rfl) fun _ => rfl
      exact sound.attempt stands fun _ _ _ after => after
  | hide set =>
      exact sound.attempt (Guard.stands_hide set) fun _ spares _ after => after.keepGuard spares
  | forceOn set =>
      exact sound.attempt (Guard.stands_forceOn sparing) fun _ spares _ after =>
        after.keepGuard spares
  | hideTop =>
      exact sound.attempt Guard.stands_hideTop fun _ spares _ after => after.keepGuard spares
  | ownLayer transform =>
      exact sound.attempt (Guard.stands_ownLayer transform) fun _ spares _ after =>
        after.keepOwner spares
  | capture =>
      exact sound.attempt Context.stands_capture fun context standing _ after =>
        after.keepContext standing
  | enter position =>
      unfold Course.perform
      dsimp only
      split
      · rename_i context found
        have standing := sound.contexts context (List.mem_of_getElem? found)
        exact sound.attempt (Guard.stands_enter standing) fun _ spares _ after =>
          after.keepGuard spares
      · exact sound
  | release position =>
      unfold Course.perform
      dsimp only
      split
      · rename_i guard found
        have spares := sound.guards guard (List.mem_of_getElem? found)
        have rest : Course.Sound { course with guards := course.guards.eraseIdx position } :=
          { sound with
            guards := fun other member => sound.guards other (List.mem_of_mem_eraseIdx member) }
        exact rest.attempt (Guard.stands_release spares) fun _ _ _ after => after
      · exact sound

/-- From a fresh thread on, whatever is done to it and in whatever order, also after faults: the
levels of the layers are `1, 2, …` from the bottom up, and each interceptor is included exactly while
a layer is active. Only interceptors may not be switched by hand.
-/
theorem layers_standing {machine : Machine} (layers : machine.thread.layers = [])
    (overlay : machine.thread.overlay = {}) {acts : List Act}
    (sparing : ∀ act ∈ acts, act.Sparing) {done : List Act} (sofar : done <+: acts)
    : let thread := (Course.performAll { machine } done).machine.thread
      thread.layers.reverse.map Layer.level = List.range' 1 thread.layers.length
      ∧ (.entryInterceptor ∈ thread.overlay.included ↔ thread.layers ≠ [])
      ∧ (.exitInterceptor ∈ thread.overlay.included ↔ thread.layers ≠ []) := by
  have fresh : Course.Sound { machine } := by
    refine ⟨⟨?_, ?_, ?_⟩, List.forall_mem_nil _, List.forall_mem_nil _⟩ <;>
      simp [layers, overlay, Layer.Levelled]
  have step : ∀ act ∈ done, ∀ course : Course, course.Sound → (course.perform act).Sound :=
    fun act member _ sound => sound.perform (sparing act (sofar.subset member))
  obtain ⟨levelled, entry, exit⟩ := (performAll_keeps step fresh).standing
  refine ⟨levelled.levels_eq, ?_, ?_⟩
  · rw [CapabilitySet.mem_iff, entry]
    simp
  · rw [CapabilitySet.mem_iff, exit]
    simp

/-- Witness: a layer is pushed where another one is hidden, which faults when it is to come back; a
context is left after the layer that it showed was popped.
-/
theorem layers_standing_out_of_order
    : let acts : List Act :=
        [.openLayer (.batching 2 .error), .hideTop, .openLayer (.batching 3 .same),
          .forceOn (.only .batched), .release 1, .capture, .pop, .enter 0, .pop, .release 1,
          .release 0]
      let thread := (Course.performAll { machine := {} } acts).machine.thread
      (∀ act ∈ acts, act.Sparing)
      ∧ thread.layers.reverse.map Layer.level = List.range' 1 thread.layers.length
      ∧ (.entryInterceptor ∈ thread.overlay.included ↔ thread.layers ≠ [])
      ∧ (.exitInterceptor ∈ thread.overlay.included ↔ thread.layers ≠ []) := by
  intro acts thread
  have sparing : ∀ act ∈ acts, act.Sparing := by
    have hooks : (CapabilitySet.only .batched).SparesInterceptors := ⟨rfl, rfl⟩
    simp [acts, Act.Sparing, hooks]
  exact ⟨sparing, layers_standing rfl rfl sparing (List.prefix_refl acts)⟩

end Course
end LayeredDispatch
