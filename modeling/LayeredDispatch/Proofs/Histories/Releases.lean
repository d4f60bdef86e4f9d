import LayeredDispatch.Proofs.Histories.Scopes

/-! Guards that own layers, released in any order. A guard removes its layer only where the layer is on
top; elsewhere it takes the layer for removed already, and the layer stays although its level is dead.

Main statement: whatever the order, the registry is what it was before the guards were made and the flags
of their levels are dead; a layer is popped exactly if its guard and those of the layers above it are
released from the top down, so that the stack is what it was exactly if the order is the reverse one.
-/

namespace LayeredDispatch

open Run

/-- The guard that owns a layer. -/
def Layer.guard (layer : Layer) : Guard :=
  .layer layer.level

/-- The layers that are left, top first, when guards are released in order: a guard that owns the top
layer pops it.
-/
def Guard.leftOf : List Layer → List Guard → List Layer
  | layers, [] => layers
  | layers, guard :: guards =>
      leftOf (if layers.head?.map Layer.guard = some guard then layers.tail else layers) guards

/-- The guards of the layers from `machine` up to `top` are gone and everything is as it was: the layers,
the overlay and the registered levels, and the flag of each owned level is dead.
-/
structure Machine.TakenBack (machine : Machine) (guards : List Guard) (top final : Machine)
    : Prop where
  layers : final.thread.layers = machine.thread.layers
  overlay : final.thread.overlay = machine.thread.overlay
  registry : final.registry = machine.registry
  dead
    : ∀ guard ∈ guards, ∃ level flag,
        guard = .layer level
        ∧ top.registry.find? level = some flag
        ∧ top.heap.isAlive flag = true
        ∧ final.heap.isAlive flag = false

-----------------------------------------------------------------------------------------
-- Layers that are popped
-----------------------------------------------------------------------------------------

section

variable {layers above below : List Layer} {guards order pending rest : List Guard}

/-- The layers that are left are some of the bottom ones. -/
theorem Guard.leftOf_suffix (layers : List Layer) (order : List Guard)
    : leftOf layers order <:+ layers := by
  induction order generalizing layers with
  | nil => exact List.suffix_refl layers
  | cons guard rest ih =>
      unfold leftOf
      split
      · exact (ih _).trans (List.tail_suffix layers)
      · exact ih _

/-- The layers on top of `below` are popped exactly if their guards are released from the top down,
with other guards in between or not. The induction is on the order, and in each step the top layer
goes or stays.
-/
theorem Guard.leftOf_suffix_iff
    : leftOf (above ++ below) order <:+ below ↔ (above.map Layer.guard).Sublist order := by
  induction order generalizing above with
  | nil =>
      rw [leftOf, List.sublist_nil, List.map_eq_nil_iff]
      constructor
      · intro suffix
        have short := suffix.length_le
        rw [List.length_append] at short
        exact List.eq_nil_of_length_eq_zero (by omega)
      · rintro rfl
        exact List.suffix_refl below
  | cons guard rest ih =>
      cases above with
      | nil => simp [leftOf_suffix]
      | cons top others =>
          rw [leftOf, List.cons_append, List.head?_cons, Option.map_some, List.tail_cons,
            List.map_cons]
          by_cases owned : top.guard = guard
          · rw [if_pos (congrArg some owned), ih, owned, List.cons_sublist_cons]
          · rw [if_neg (fun same => owned (Option.some.inj same)), ← List.cons_append, ih,
              List.map_cons]
            exact ⟨List.Sublist.cons guard, fun sub => (List.sublist_cons_iff.mp sub).resolve_right
              fun ⟨_, same, _⟩ => owned (List.cons.inj same).1⟩

/-- All layers on top of `below` are popped exactly if the order of their guards is from the top
down. Guards that are as many as the layers leave no room for others in between.
-/
theorem Guard.leftOf_eq_iff (shuffled : order.Perm (above.map Layer.guard))
    (kept : below <:+ leftOf (above ++ below) order)
    : leftOf (above ++ below) order = below ↔ order = above.map Layer.guard := by
  constructor
  · intro same
    have suffix : leftOf (above ++ below) order <:+ below := ⟨[], same⟩
    have sub := leftOf_suffix_iff.mp suffix
    exact (sub.eq_of_length shuffled.length_eq.symm).symm
  · intro same
    have suffix : leftOf (above ++ below) order <:+ below :=
      leftOf_suffix_iff.mpr (same ▸ List.Sublist.refl order)
    exact (kept.eq_of_length_le suffix.length_le).symm

-----------------------------------------------------------------------------------------
-- What guards still hold
-----------------------------------------------------------------------------------------

/-- Guards are pending since `machine`: each owns a level of its own above the layers of `machine`, and
without these levels the registry is that of `machine`. The layers of `machine` are still there, below
the others.
-/
structure Machine.Pending (machine : Machine) (pending : List Guard) (reached : Machine)
    : Prop where
  distinct : pending.Nodup
  owned
    : ∀ guard ∈ pending, ∃ level flag,
        guard = .layer level
        ∧ machine.thread.layers.length < level
        ∧ reached.registry.find? level = some flag
  registry
    : reached.registry.entries.filter (fun entry => Guard.layer entry.1 ∉ pending)
      = machine.registry.entries
  beneath : machine.thread.layers <:+ reached.thread.layers
  levelled : Layer.Levelled reached.thread.layers
  overlay
    : reached.thread.overlay = Overlay.setInterception {} (!reached.thread.layers.isEmpty)

variable {machine reached top : Machine} {transforms : List Transform} {guard : Guard}
  {level : Level} {flag : Nat}

/-- The bottom layers of a stack have the levels of their positions. -/
theorem Layer.Levelled.suffix {lower : List Layer} (levelled : Levelled layers)
    (suffix : lower <:+ layers)
    : Levelled lower := by
  induction layers with
  | nil =>
      obtain rfl := List.suffix_nil.mp suffix
      exact levelled
  | cons top below ih =>
      rcases List.suffix_cons_iff.mp suffix with rfl | suffix
      · exact levelled
      · exact ih levelled.2 suffix

/-- At first no guard is pending. -/
theorem Machine.Built.pending_nil (built : machine.Built) : machine.Pending [] machine where
  distinct := List.nodup_nil
  owned := List.forall_mem_nil _
  registry := by simp
  beneath := List.suffix_refl _
  levelled := built.founded.levelled
  overlay := built.founded.overlay

/-- Which guard is released first is of no account to what is pending. -/
theorem Machine.Pending.perm (held : machine.Pending pending reached) (shuffled : order.Perm pending)
    : machine.Pending order reached where
  distinct := shuffled.nodup_iff.mpr held.distinct
  owned := fun guard member => held.owned guard (shuffled.mem_iff.mp member)
  registry := by simpa only [shuffled.mem_iff] using held.registry
  beneath := held.beneath
  levelled := held.levelled
  overlay := held.overlay

/-- Once no guard is pending the registry is what it was. -/
theorem Machine.Pending.registry_eq (held : machine.Pending [] reached)
    : reached.registry = machine.registry := by
  have entries : reached.registry.entries = machine.registry.entries := by
    simpa using held.registry
  exact congrArg Registry.mk entries

/-- Without one more level the registry is the one from which that level has been erased. -/
theorem Registry.filter_cons (registry : Registry) (level : Level) (guards : List Guard)
    : registry.entries.filter (fun entry => Guard.layer entry.1 ∉ Guard.layer level :: guards)
      = (registry.erase level).entries.filter fun entry => Guard.layer entry.1 ∉ guards := by
  rw [erase, List.filter_filter]
  refine List.filter_congr fun entry _ => ?_
  by_cases same : entry.1 = level <;> simp [same]

-----------------------------------------------------------------------------------------
-- Guards that are made
-----------------------------------------------------------------------------------------

/-- The level of a new layer is one more than the number of layers. -/
theorem Run.openLayer_level {transform : Transform}
    (ended : openLayer transform reached = .ok level top)
    : level = reached.thread.layers.length + 1 :=
  (ends_openLayer (fun _ => trivial) (fun _ _ _ => trivial) (fun _ _ _ => rfl)
    : (openLayer transform).Ends reached (fun level _ => level = _) fun _ _ => True).of_ok ended

/-- A guard that owns a layer is made by opening the layer. -/
theorem Guard.ownLayer_ok {transform : Transform} (ended : ownLayer transform reached = .ok guard top)
    : ∃ level, openLayer transform reached = .ok level top ∧ guard = .layer level := by
  obtain ⟨level, middle, opened, ended⟩ := bind_ok ended
  cases ended
  exact ⟨level, opened, rfl⟩

/-- A guard that owns a new layer is pending besides the others. Its level is above those of all
layers, so it is a new one.
-/
theorem Machine.Pending.opened {transform : Transform} (held : machine.Pending pending reached)
    (built : reached.Built) (ended : Guard.ownLayer transform reached = .ok guard top)
    : ∃ layer : Layer,
        top.thread.layers = layer :: reached.thread.layers
        ∧ layer.guard = guard
        ∧ top.Built
        ∧ machine.Pending (guard :: pending) top := by
  obtain ⟨level, opened, rfl⟩ := Guard.ownLayer_ok ended
  obtain rfl := openLayer_level opened
  obtain ⟨-, free, layers, -, registry, -⟩ := openLayer_ok opened
  have founded := (built.opened opened).founded
  have unknown : Guard.layer (reached.thread.layers.length + 1) ∉ pending := by
    intro member
    obtain ⟨level, flag, same, -, found⟩ := held.owned _ member
    cases same
    rw [Registry.contains, found] at free
    cases free
  refine ⟨_, layers, rfl, built.opened opened, ?_⟩
  refine ⟨List.nodup_cons.mpr ⟨unknown, held.distinct⟩, ?_, ?_, ?_, founded.levelled,
    founded.overlay⟩
  · intro guard member
    rw [registry]
    rcases List.mem_cons.mp member with rfl | member
    · exact ⟨_, _, rfl, Nat.lt_succ_of_le held.beneath.length_le,
        Registry.find?_insert_same _ _ free⟩
    · obtain ⟨level, flag, rfl, above, found⟩ := held.owned guard member
      have apart : level ≠ reached.thread.layers.length + 1 := by
        rintro rfl
        exact unknown member
      exact ⟨level, flag, rfl, above, by rw [Registry.find?_insert_other _ _ apart, found]⟩
  · rw [Registry.filter_cons, registry,
      Registry.erase_insert (Registry.not_mem_of_free free) _, held.registry]
  · rw [layers]
    exact held.beneath.trans (List.suffix_cons _ _)

/-- The guards of layers pushed one after another, the last one first, are pending besides those
from before.
-/
theorem Machine.Pending.openedAll (held : machine.Pending pending reached) (built : reached.Built)
    (pushed : transforms.mapM Guard.ownLayer reached = .ok guards top)
    : ∃ above,
        top.thread.layers = above ++ reached.thread.layers
        ∧ above.map Layer.guard = guards.reverse
        ∧ top.Built
        ∧ machine.Pending (guards.reverse ++ pending) top := by
  induction transforms generalizing reached pending guards with
  | nil =>
      cases pushed
      exact ⟨[], rfl, rfl, built, held⟩
  | cons transform transforms ih =>
      rw [List.mapM_cons] at pushed
      obtain ⟨guard, middle, opened, pushed⟩ := bind_ok pushed
      obtain ⟨others, last, pushed, ended⟩ := bind_ok pushed
      cases ended
      obtain ⟨layer, layers, owned, built, held⟩ := held.opened built opened
      obtain ⟨above, stack, owners, built, held⟩ := ih held built pushed
      refine ⟨above ++ [layer], ?_, ?_, built, ?_⟩
      · rw [stack, layers, List.append_assoc, List.singleton_append]
      · rw [List.map_append, owners, List.map_singleton, owned, List.reverse_cons]
      · rwa [List.reverse_cons, List.append_assoc, List.singleton_append]

-----------------------------------------------------------------------------------------
-- Guards that are released
-----------------------------------------------------------------------------------------

/-- What the release of a guard that owns a layer leads to. -/
structure Guard.Released (level : Level) (flag : Nat) (reached after : Machine) : Prop where
  registry : after.registry = reached.registry.erase level
  heap : after.heap = reached.heap.killFlag flag
  layers : after.thread.layers = leftOf reached.thread.layers [.layer level]
  overlay
    : reached.thread.overlay = Overlay.setInterception {} (!reached.thread.layers.isEmpty)
      → after.thread.overlay = Overlay.setInterception {} (!after.thread.layers.isEmpty)

/-- A registered level is removed, and its flag is killed. -/
theorem Run.ends_removeLevel (found : reached.registry.find? level = some flag)
    (ok : Unit → Machine → Prop) (failed : Exit → Machine → Prop)
    : (removeLevel level).Ends reached ok failed
      ↔ ok ()
          { reached with
            registry := reached.registry.erase level
            heap := reached.heap.killFlag flag } := by
  unfold removeLevel
  rw [ends_bind, ends_read, found]
  exact Iff.rfl

/-- A guard whose level is registered pops its layer if it is on top, and kills the flag either way.
The overlay stays the one for the layers that are left.
-/
theorem Guard.ends_release_layer (found : reached.registry.find? level = some flag)
    : (Guard.layer level).release.Ends reached (fun _ after => Released level flag reached after)
        fun _ _ => False := by
  unfold release
  simp only [topLayer?, ends_bind, ends_read]
  by_cases owned : reached.thread.layers.head?.map Layer.level = some level
  · rw [if_pos owned, ends_discard]
    cases layers : reached.thread.layers with
    | nil => simp [layers] at owned
    | cons topmost below =>
        obtain rfl : topmost.level = level := by simpa [layers] using owned
        refine ends_closeLayer layers found fun log => ⟨rfl, rfl, ?_, ?_⟩
        · simp [layers, leftOf, Layer.guard]
        · intro overlay
          rw [layers] at overlay
          cases below with
          | nil => simp [overlay, Overlay.setInterception_empty_false]; rfl
          | cons next rest => simpa using overlay
  · rw [if_neg owned]
    simp only [log, ends_bind, ends_onThread]
    refine (ends_removeLevel (by exact found) _ _).mpr ⟨rfl, rfl, ?_, fun overlay => overlay⟩
    have foreign : reached.thread.layers.head?.map Layer.guard ≠ some (.layer level) := by
      cases layers : reached.thread.layers with
      | nil => simp
      | cons topmost below => simpa [layers, Layer.guard] using owned
    rw [leftOf, if_neg foreign, leftOf]

/-- The other guards are still pending. Their levels are other ones, so the registry still has them,
and their layers may be on the stack or gone.
-/
theorem Machine.Pending.released (held : machine.Pending (.layer level :: rest) reached)
    (released : Guard.Released level flag reached top)
    : machine.Pending rest top := by
  obtain ⟨unowned, distinct⟩ := List.nodup_cons.mp held.distinct
  refine ⟨distinct, ?_, ?_, ?_, ?_, released.overlay held.overlay⟩
  · intro guard member
    obtain ⟨other, flag, rfl, above, found⟩ := held.owned guard (List.mem_cons_of_mem _ member)
    have apart : other ≠ level := by
      rintro rfl
      exact unowned member
    exact ⟨other, flag, rfl, above, by rw [released.registry, Registry.find?_erase_other _ apart, found]⟩
  · rw [released.registry, ← Registry.filter_cons, held.registry]
  · rw [released.layers, Guard.leftOf, Guard.leftOf]
    split
    next owned =>
      -- The layer that is popped is above those of `machine`.
      obtain ⟨_, _, same, above, -⟩ := held.owned _ List.mem_cons_self
      cases same
      cases layers : reached.thread.layers with
      | nil => simpa [layers] using held.beneath
      | cons topmost below =>
          rw [layers, List.head?_cons, Option.map_some, Layer.guard, Option.some.injEq,
            Guard.layer.injEq] at owned
          have levelled := held.levelled
          have beneath := held.beneath
          rw [layers] at levelled beneath
          rw [← owned, levelled.1] at above
          rw [List.tail_cons]
          exact List.suffix_of_suffix_length_le beneath (List.suffix_cons _ _)
            (Nat.le_of_lt_succ above)
    next => exact held.beneath
  · rw [released.layers]
    exact held.levelled.suffix (Guard.leftOf_suffix _ _)

/-- The flag of the released level is dead. -/
theorem Guard.Released.dead (released : Released level flag reached top)
    : top.heap.isAlive flag = false := by
  rw [released.heap, Heap.isAlive_killFlag_same]

/-- A flag that is dead stays dead when another one is killed. -/
theorem Guard.Released.stays_dead (released : Released level flag reached top) {other : Nat}
    (dead : reached.heap.isAlive other = false)
    : top.heap.isAlive other = false := by
  by_cases same : flag = other
  · exact same ▸ released.dead
  · rw [released.heap, Heap.isAlive_killFlag_other _ same, dead]

/-- Releasing the pending guards, in whatever order, gives the registry back and kills the flags
that their levels have. Flags that are dead stay dead. The induction is on the order, and what is
left of the stack is worked out beside it by `Guard.leftOf`.
-/
theorem Machine.Pending.ends_releaseAll (held : machine.Pending order reached)
    : (Guard.releaseAll order).Ends reached
        (fun _ final =>
          machine.Pending [] final
          ∧ final.thread.layers = Guard.leftOf reached.thread.layers order
          ∧ (∀ flag, reached.heap.isAlive flag = false → final.heap.isAlive flag = false)
          ∧ ∀ level flag,
              .layer level ∈ order
              → reached.registry.find? level = some flag
              → final.heap.isAlive flag = false)
        fun _ _ => False := by
  induction order generalizing reached with
  | nil => exact ⟨held, rfl, fun _ => id, fun _ _ member => absurd member List.not_mem_nil⟩
  | cons guard rest ih =>
      obtain ⟨level, flag, rfl, -, found⟩ := held.owned guard List.mem_cons_self
      unfold Guard.releaseAll
      refine ends_ensuring ((Guard.ends_release_layer found).mono ?_ fun _ _ => id)
      intro _ after released
      refine (ih (held.released released)).mono ?_ fun _ _ => id
      rintro _ final ⟨none, layers, older, dead⟩
      refine ⟨none, ?_, fun other gone => older other (released.stays_dead gone), ?_⟩
      · rw [layers, released.layers]
        rfl
      · intro other flag' member issued
        by_cases same : other = level
        · obtain rfl : flag = flag' := Option.some.inj (found.symm.trans (same ▸ issued))
          exact older flag released.dead
        · refine dead other flag' ((List.mem_cons.mp member).resolve_left (by simpa using same)) ?_
          rw [released.registry, Registry.find?_erase_other _ same, issued]

-----------------------------------------------------------------------------------------
-- All orders
-----------------------------------------------------------------------------------------

/-- Guards made one after another and then released in any order give the registry back and leave the
flags of their levels dead. A layer is popped exactly if its guard and those of the layers above it are
released from the top down; the layers below the guards stay, and the overlay is the one for the layers
that are left. So everything is as it was exactly if the guards are released in reverse order.
-/
theorem Guard.releaseAll_shuffled (built : machine.Built)
    (made : transforms.mapM ownLayer machine = .ok guards top) (shuffled : order.Perm guards)
    : ∃ final,
        releaseAll order top = .ok () final
        ∧ final.registry = machine.registry
        ∧ (∀ guard ∈ guards, ∃ level flag,
            guard = .layer level
            ∧ top.registry.find? level = some flag
            ∧ top.heap.isAlive flag = true
            ∧ final.heap.isAlive flag = false)
        ∧ machine.thread.layers <:+ final.thread.layers
        ∧ (∀ above below,
            top.thread.layers = above ++ below
            → (final.thread.layers <:+ below ↔ (above.map Layer.guard).Sublist order))
        ∧ final.thread.overlay = Overlay.setInterception {} (!final.thread.layers.isEmpty)
        ∧ (machine.TakenBack guards top final ↔ order = guards.reverse) := by
  obtain ⟨owned, stack, owners, topBuilt, held⟩ := built.pending_nil.openedAll built made
  rw [List.append_nil] at held
  have pending := held.perm (shuffled.trans guards.reverse_perm.symm)
  obtain ⟨_, final, released, none, layers, -, dead⟩ := pending.ends_releaseAll.exists_ok
  have killed
      : ∀ guard ∈ guards, ∃ level flag,
          guard = .layer level
          ∧ top.registry.find? level = some flag
          ∧ top.heap.isAlive flag = true
          ∧ final.heap.isAlive flag = false := by
    intro guard member
    have owner : guard ∈ owned.map Layer.guard := owners ▸ List.mem_reverse.mpr member
    obtain ⟨layer, present, rfl⟩ := List.mem_map.mp owner
    obtain ⟨flag, found, alive⟩ :=
      topBuilt.founded.registered layer (stack ▸ List.mem_append_left _ present)
    exact ⟨_, flag, rfl, found, alive, dead _ flag (shuffled.mem_iff.mpr member) found⟩
  refine ⟨final, released, none.registry_eq, killed, none.beneath, ?_, none.overlay, ?_⟩
  · intro above below split
    rw [layers, split]
    exact leftOf_suffix_iff
  · have same
        : final.thread.layers = machine.thread.layers ↔ order = owned.map Layer.guard := by
      rw [layers, stack]
      refine leftOf_eq_iff ?_ ?_
      · rw [owners]
        exact shuffled.trans guards.reverse_perm.symm
      · rw [← stack, ← layers]
        exact none.beneath
    rw [← owners, ← same]
    refine ⟨Machine.TakenBack.layers, fun kept => ⟨kept, ?_, none.registry_eq, killed⟩⟩
    rw [none.overlay, kept, built.founded.overlay]

end

/-- Three guards, the top one released first and the other two in the order of their making: two layers
go, and the bottom one stays.
-/
theorem Guard.releaseAll_shuffled_three
    : ∃ top final,
        [.batching 2 .error, .differentiation (some true) none, .batching 3 .error].mapM ownLayer
            ({} : Machine)
          = .ok [.layer 1, .layer 2, .layer 3] top
        ∧ releaseAll [.layer 3, .layer 1, .layer 2] top = .ok () final
        ∧ final.registry = {}
        ∧ final.thread.layers = [⟨.batching 2 .error, 1, {}⟩]
        ∧ ¬ Machine.TakenBack {} [.layer 1, .layer 2, .layer 3] top final := by
  obtain ⟨top, upper, made, stack, owners⟩
      : ∃ top upper,
          [.batching 2 .error, .differentiation (some true) none, .batching 3 .error].mapM ownLayer
              ({} : Machine)
            = .ok [.layer 1, .layer 2, .layer 3] top
          ∧ top.thread.layers = upper ++ [⟨.batching 2 .error, 1, {}⟩]
          ∧ upper.map Layer.guard = [.layer 3, .layer 2] :=
    ⟨_, [_, _], rfl, rfl, rfl⟩
  have shuffled
      : [Guard.layer 3, .layer 1, .layer 2].Perm [.layer 1, .layer 2, .layer 3] := by decide
  obtain ⟨final, released, registry, -, -, popped, -, reversed⟩ :=
    releaseAll_shuffled (.fresh rfl rfl) made shuffled
  have two : final.thread.layers <:+ [⟨.batching 2 .error, 1, {}⟩] := by
    rw [popped upper _ stack, owners]
    decide
  have notAll : ¬final.thread.layers <:+ [] := by
    rw [popped top.thread.layers [] (List.append_nil _).symm, stack, List.map_append, owners]
    decide
  refine ⟨top, final, made, released, registry, ?_, mt reversed.mp (by decide)⟩
  rcases List.suffix_cons_iff.mp two with same | none
  · exact same
  · exact absurd none notAll

/-- Of two guards released in the order of their making the first finds a layer that is not its own on
top. Its own layer is there for good, and with it the interceptors.
-/
theorem Guard.not_takenBack_in_order
    : ∃ guards top final,
        [.batching 2 .error, .batching 3 .error].mapM ownLayer ({} : Machine) = .ok guards top
        ∧ releaseAll guards top = .ok () final
        ∧ ¬ Machine.TakenBack {} guards top final :=
  ⟨_, _, _, rfl, rfl, fun back => absurd back.layers (by decide)⟩

end LayeredDispatch
