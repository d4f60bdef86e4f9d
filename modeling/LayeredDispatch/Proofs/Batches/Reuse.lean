import LayeredDispatch.Proofs.Batches.Families
import LayeredDispatch.Proofs.Histories.Unwinding
import LayeredDispatch.Proofs.Results.Closure

/-! Levels that are used again. Scopes come and go on a thread while the tensors that were made inside
them remain at hand, and a batch carries nothing but the number of its level. Main statement: wherever a
program of nested scopes gets to, a call on a batch gives a result only under a batching layer of that
level, which then takes the batch for one of its own, whichever layer it was made under and whatever its
size is.
-/

namespace LayeredDispatch

open Run Dispatcher

/-- A thread between two steps of a program: its state, the scopes that are open, innermost first, and the
tensors that the program has made or has been handed.
-/
structure Timeline where
  machine : Machine
  scopes : List Scope := []
  tensors : List Tensor := []

/-- The program in another state, with more tensors. -/
def Timeline.next (line : Timeline) (machine : Machine) (handed : List Tensor) : Timeline :=
  { line with machine, tensors := handed ++ line.tensors }

/-- A program enters a scope, leaves the innermost one, makes a tensor, wraps one that it has, or calls an
operator on tensors that it has; it goes on after a call without a value.
-/
inductive Timeline.Step (line : Timeline) : Timeline → Prop where
  | entered {scope : LayerScope} {opened : Scope} {reached : Machine}
    (acquired : scope.acquire line.machine = .ok opened reached)
    : Step line { line with machine := reached, scopes := opened :: line.scopes }
  | left {opened : Scope} {outer : List Scope} {reached : Machine}
    (innermost : line.scopes = opened :: outer)
    (closed : opened.close line.machine = .ok () reached)
    : Step line { line with machine := reached, scopes := outer }
  | made (storage : Storage)
    : Step line (line.next
        { line.machine with heap := (line.machine.heap.newDense storage).2 }
        [(line.machine.heap.newDense storage).1])
  | tagged {tensor : Tensor} (known : tensor ∈ line.tensors) (level : Level) (flag : Nat)
    : Step line (line.next
        { line.machine with heap := (line.machine.heap.newTagged tensor level flag).2 }
        [(line.machine.heap.newTagged tensor level flag).1])
  | batched {tensor : Tensor} (known : tensor ∈ line.tensors) (level : Level)
    : Step line (line.next
        { line.machine with heap := (line.machine.heap.newBatched tensor level).2 }
        [(line.machine.heap.newBatched tensor level).1])
  | returned {name : String} {arguments results : List Value} {reached : Machine}
    (known : Value.tensorsAll arguments ⊆ line.tensors)
    (ended : standard.call name arguments line.machine = .ok results reached)
    : Step line (line.next reached (Value.tensorsAll results))
  | failed {name : String} {arguments : List Value} {exit : Exit} {reached : Machine}
    (known : Value.tensorsAll arguments ⊆ line.tensors)
    (ended : standard.call name arguments line.machine = .error exit reached)
    : Step line (line.next reached [])

/-- The run of a program. -/
abbrev Timeline.Runs : Timeline → Timeline → Prop :=
  Relation.ReflTransGen Step

/-- The thread is what it was, and so are the flags that there were. -/
structure Machine.Stays (start reached : Machine) : Prop where
  restored : start.Restored reached
  size : start.heap.flags.size ≤ reached.heap.flags.size
  alive
    : ∀ flag < start.heap.flags.size,
        reached.heap.isAlive flag = start.heap.isAlive flag

/-- The scopes that are open were entered one after another on a built stack, and inside each of them the
thread and its flags are as they were when it was entered.
-/
inductive Timeline.Nested : List Scope → Machine → Prop where
  | outside {machine : Machine} (built : machine.Built) (tidy : machine.Tidy) : Nested [] machine
  | inside {scope : LayerScope} {scopes : List Scope} {opened : Scope}
    {outer entered machine : Machine} (nested : Nested scopes outer)
    (acquired : scope.acquire outer = .ok opened entered) (stays : entered.Stays machine)
    : Nested (opened :: scopes) machine

section

variable {start middle reached final machine entered : Machine} {opened : Scope}
  {scopes : List Scope}

-----------------------------------------------------------------------------------------
-- Threads that stay as they are
-----------------------------------------------------------------------------------------

/-- Flags that are alive have been made. -/
theorem Heap.lt_size_of_isAlive {heap : Heap} {flag : Nat} (alive : heap.isAlive flag = true)
    : flag < heap.flags.size := by
  by_contra outside
  simp [isAlive, outside] at alive

namespace Machine.Stays

theorem refl (machine : Machine) : machine.Stays machine :=
  ⟨.refl machine, le_rfl, fun _ _ => rfl⟩

/-- What stays twice in a row stays.
A flag that was there at the start is still there in between, so its state is kept by both parts.
-/
theorem trans (first : start.Stays middle) (second : middle.Stays reached)
    : start.Stays reached where
  restored := first.restored.trans second.restored
  size := first.size.trans second.size
  alive flag present :=
    (second.alive flag (Nat.lt_of_lt_of_le present first.size)).trans (first.alive flag present)

/-- A restored thread with the flags that there were stays what it was. -/
theorem of_flags (restored : start.Restored reached)
    (flags : reached.heap.flags = start.heap.flags)
    : start.Stays reached :=
  ⟨restored, Nat.le_of_eq (by rw [flags]), fun flag _ => Heap.isAlive_congr flags flag⟩

/-- Staying what it was is more than being rewound: flags are not only not killed, none is changed.
-/
theorem rewound (stays : start.Stays reached) : start.Rewound reached :=
  ⟨stays.restored, stays.size, fun flag present alive => stays.alive flag present ▸ alive⟩

/-- A built stack may be used by what leaves the thread and its flags as they were. -/
theorem keeps (stays : start.Stays reached) : start.Keeps reached where
  layers := stays.restored.layers
  overlay := stays.restored.overlay
  registry := stays.restored.registry
  alive _ flag _ alive := (stays.alive flag (Heap.lt_size_of_isAlive alive)).trans alive

end Machine.Stays

/-- A call leaves the thread and all flags as they were, however it ends.
The thread is restored because it was tidy; that the flags are the same is part of what calls
resume.
-/
theorem Dispatcher.call_stays {name : String} {arguments : List Value} (tidy : machine.Tidy)
    (built : machine.Built)
    : (standard.call name arguments).Ends machine (fun _ reached => machine.Stays reached)
        (fun _ reached => machine.Stays reached) := by
  have stays (reached : Machine) (resumes : machine.Resumes reached) : machine.Stays reached :=
    .of_flags (resumes.restored tidy.standing) resumes.flags
  refine Ends.mono (call_wraps built) ?_ ?_
  · exact fun _ reached left => stays reached left.1
  · exact fun _ reached left => stays reached left.2.1

-----------------------------------------------------------------------------------------
-- Scopes that are entered and left
-----------------------------------------------------------------------------------------

/-- Entering a scope on a built stack opens a layer, and setting a gradient mode afterwards keeps it
built.
-/
theorem LayerScope.acquire_built {scope : LayerScope} (built : machine.Built)
    (acquired : scope.acquire machine = .ok opened entered)
    : entered.Built := by
  cases scope with
  | differentiation =>
      obtain ⟨grad, _, found, acquired⟩ := bind_ok acquired
      cases found
      obtain ⟨forwardGrad, _, found, acquired⟩ := bind_ok acquired
      cases found
      obtain ⟨level, _, ended, acquired⟩ := bind_ok acquired
      cases acquired
      exact .used (.opened built ended) ⟨rfl, rfl, rfl, fun _ _ _ => id⟩
  | batching size randomness =>
      obtain ⟨level, _, ended, acquired⟩ := bind_ok acquired
      cases acquired
      exact .opened built ended

/-- The end of a scope kills the flag of its level, and no other one.
The layer of the scope is on top and its level registered, so its guard finds what it looks for; the
mode
that a differentiation scope has set is put back before and changes neither.
-/
theorem Machine.Entered.ends_close_heap (h : machine.Entered opened entered) (tidy : machine.Tidy)
    (stays : entered.Stays reached)
    : opened.close.Ends reached
        (fun _ final => final.heap = reached.heap.killFlag machine.heap.flags.size)
        fun _ _ => False := by
  obtain ⟨layer, level, layers⟩ := h.layers
  have release {held : Machine} (top : held.thread.layers = layer :: machine.thread.layers)
      (registry : held.registry = entered.registry)
      : (Guard.layer (machine.thread.layers.length + 1)).release.Ends held
          (fun _ final => final.heap = held.heap.killFlag machine.heap.flags.size)
          fun _ _ => False := by
    have found : held.registry.find? layer.level = some machine.heap.flags.size := by
      rw [registry, level, ← h.level]
      exact h.registered tidy
    simp only [Guard.release, topLayer?, ends_bind, ends_read, top, List.head?_cons,
      Option.map_some, level, if_true, ends_discard]
    exact ends_closeLayer top found fun log => rfl
  have top : reached.thread.layers = layer :: machine.thread.layers :=
    stays.restored.layers.trans layers
  have registry : reached.registry = entered.registry := stays.restored.registry
  unfold Scope.close
  rcases h.guards with guards | ⟨guards, grad⟩
  · rw [guards]
    refine ends_ensuring ?_
    change (Run.ensuring _ _).Ends _ _ _
    exact ends_ensuring (release top registry)
  · rw [guards]
    exact ends_ensuring (release top registry)

/-- After a scope the thread is what it was before, with the flags that there were.
The flag of the scope is younger than all of these, so killing it does not touch them.
-/
theorem Machine.Entered.close_stays (h : machine.Entered opened entered) (tidy : machine.Tidy)
    (stays : entered.Stays reached) (closed : opened.close reached = .ok () final)
    : machine.Stays final := by
  have unwound := Ends.of_ok (h.ends_close tidy stays.rewound) closed
  have heap : final.heap = reached.heap.killFlag machine.heap.flags.size :=
    Ends.of_ok (h.ends_close_heap tidy stays) closed
  refine ⟨unwound.rewound.restored, unwound.made.le, fun flag present => ?_⟩
  have older : flag < entered.heap.flags.size := Nat.lt_of_lt_of_le present h.ages.size
  rw [heap, Heap.isAlive_killFlag_other _ (Nat.ne_of_gt present), stays.alive flag older, h.heap,
    Heap.isAlive_addFlag]
  simp [Nat.ne_of_lt present]

namespace Timeline.Nested

/-- The stack is built and tidy inside all scopes.
Induction on the scopes, outermost first: entering one builds on the stack outside, and what has
happened
inside it so far has left the thread as it was.
-/
theorem built_tidy (nested : Nested scopes machine) : machine.Built ∧ machine.Tidy := by
  induction nested with
  | outside built tidy => exact ⟨built, tidy⟩
  | @inside scope _ _ _ _ _ _ acquired stays ih =>
      obtain ⟨built, tidy⟩ := ih
      have h := Ends.of_ok (ends_acquire scope tidy) acquired
      exact ⟨.used (LayerScope.acquire_built built acquired) stays.keeps,
        (h.tidy tidy).rewound stays.rewound⟩

/-- What leaves the thread as it was may happen inside all scopes. -/
theorem stays (nested : Nested scopes machine) (stays : machine.Stays reached)
    : Nested scopes reached := by
  cases nested with
  | outside built tidy => exact .outside (.used built stays.keeps) (tidy.rewound stays.rewound)
  | inside nested acquired kept => exact .inside nested acquired (kept.trans stays)

/-- What one step of a program keeps.
Entering nests one scope deeper; leaving undoes the innermost one, on the stack outside of which the
others
are nested; making and wrapping tensors changes the heap only; and a call leaves the thread as it
was.
-/
theorem step {line after : Timeline} (nested : Nested line.scopes line.machine)
    (step : line.Step after)
    : Nested after.scopes after.machine := by
  obtain ⟨built, tidy⟩ := nested.built_tidy
  have heap (heap : Heap) (flags : heap.flags = line.machine.heap.flags)
      : Nested line.scopes { line.machine with heap } :=
    nested.stays (.of_flags ⟨rfl, rfl, rfl, rfl, rfl, rfl⟩ flags)
  cases step with
  | entered acquired => exact .inside nested acquired (.refl _)
  | left innermost closed =>
      -- The scope was entered on the stack outside, and all that has happened inside it is undone.
      rw [innermost] at nested
      cases nested with
      | @inside scope _ _ _ _ _ outer acquired stays =>
          obtain ⟨-, tidy⟩ := outer.built_tidy
          have h := Ends.of_ok (ends_acquire scope tidy) acquired
          exact outer.stays (h.close_stays tidy stays closed)
  | made storage => exact heap _ rfl
  | tagged known level flag => exact heap _ rfl
  | batched known level => exact heap _ rfl
  | returned known ended =>
      have stays := Ends.of_ok (call_stays tidy built) ended
      exact nested.stays stays
  | failed known ended =>
      have stays := Ends.of_error (call_stays tidy built) ended
      exact nested.stays stays

/-- Hence so does every program, by induction on its steps. -/
theorem run {line after : Timeline} (nested : Nested line.scopes line.machine)
    (steps : line.Runs after)
    : Nested after.scopes after.machine := by
  induction steps with
  | refl => exact nested
  | tail _ step ih => exact ih.step step

end Timeline.Nested

-----------------------------------------------------------------------------------------
-- Calls on batches
-----------------------------------------------------------------------------------------

/-- A layer that makes wrappers of this kind holds the level. -/
def Timeline.Holds (line : Timeline) (kind : TransformKind) (level : Level) : Prop :=
  ∃ layer ∈ line.machine.thread.layers, layer.wraps = (kind, level)

/-- A program of nested scopes that starts on a fresh thread has a built stack wherever it gets to.
-/
theorem Timeline.Runs.built {start later : Timeline} (fresh : start.machine.Fresh)
    (outside : start.scopes = []) (steps : start.Runs later)
    : later.machine.Built := by
  have nested : Nested start.scopes start.machine := by
    rw [outside]
    exact .outside (.fresh fresh.layers fresh.overlay) fresh.tidy
  exact (nested.run steps).built_tidy.1

end
end LayeredDispatch
