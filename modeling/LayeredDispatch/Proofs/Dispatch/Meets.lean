import LayeredDispatch.Proofs.Dispatch.Workings

/-! Computations that hand the state back and end in order, with a condition on what they leave
apart from that. Main statements: the conditions of a sequence and of a body under a guard follow
from those of their parts.
-/

namespace LayeredDispatch
namespace Run

/-- From `machine` the computation ends in order and hands the state back. A value comes with boxed
values and a heap as `ok` says, any other end is as `failed` says.
-/
def Meets (body : Run α) (machine : Machine) (ok : α → List Value → Heap → Prop)
    (failed : Exit → Prop)
    : Prop :=
  body.Ends machine
    (fun value reached => machine.Resumes reached ∧ ok value reached.values reached.heap)
    (fun exit reached => exit.Orderly ∧ machine.Resumes reached ∧ failed exit)

/-- A computation that hands every state back. -/
def Quiet (body : Run α) : Prop :=
  ∀ machine, body.Meets machine (fun _ _ _ => True) (fun _ => True)

variable {machine reached : Machine} {failed failed' : Exit → Prop}

/-- The conditions on what is left may be weakened. -/
theorem Meets.mono {body : Run α} {ok ok' : α → List Value → Heap → Prop}
    (h : body.Meets machine ok failed)
    (hok : ∀ value values heap, ok value values heap → ok' value values heap)
    (hfailed : ∀ exit, failed exit → failed' exit)
    : body.Meets machine ok' failed' :=
  Ends.mono h (fun _ _ left => ⟨left.1, hok _ _ _ left.2⟩)
    (fun _ _ left => ⟨left.1, left.2.1, hfailed _ left.2.2⟩)

/-- A computation that gives a value hands the state back. -/
theorem Meets.resumes {body : Run α} {ok : α → List Value → Heap → Prop} {value : α}
    (h : body.Meets machine ok failed) (ended : body machine = .ok value reached)
    : machine.Resumes reached :=
  (Ends.of_ok h ended).1

/-- Whatever is known of it, a computation that meets conditions hands the state back. -/
theorem Meets.quiet {body : Run α} {ok : α → List Value → Heap → Prop}
    (h : body.Meets machine ok failed)
    : body.Meets machine (fun _ _ _ => True) (fun _ => True) :=
  h.mono (fun _ _ _ _ => trivial) (fun _ _ => trivial)

/-- Where a computation that hands every state back gives a known value. -/
theorem Quiet.meets {body : Run α} {ok : α → List Value → Heap → Prop} {value : α}
    (h : Quiet body) (ended : body machine = .ok value reached)
    (left : ok value reached.values reached.heap)
    : body.Meets machine ok failed := by
  have resumes := (h machine).resumes ended
  unfold Meets Ends
  rw [ended]
  exact ⟨resumes, left⟩

/-- Where a computation that hands every state back is known to end without a value. -/
theorem Quiet.meets_error {body : Run α} {ok : α → List Value → Heap → Prop} {exit : Exit}
    (h : Quiet body) (ended : body machine = .error exit reached) (left : failed exit)
    : body.Meets machine ok failed := by
  obtain ⟨orderly, resumes, -⟩ := Ends.of_error (h machine) ended
  unfold Meets Ends
  rw [ended]
  exact ⟨orderly, resumes, left⟩

/-- Parts that hand the state back make a sequence that does.
What the second part hands back is what the first one has handed back, so both steps add up.
-/
theorem Meets.bind {first : Run α} {next : α → Run β} {mid : α → List Value → Heap → Prop}
    {ok : β → List Value → Heap → Prop} (head : first.Meets machine mid failed)
    (tail
      : ∀ value reached,
          first machine = .ok value reached
          → machine.Resumes reached
          → mid value reached.values reached.heap
          → (next value).Meets reached ok failed)
    : (first >>= next).Meets machine ok failed := by
  unfold Meets at head ⊢
  rw [ends_bind]
  unfold Ends at head ⊢
  split
  · rename_i value reached started
    rw [started] at head
    exact Ends.mono (tail value reached started head.1 head.2)
      (fun _ _ later => ⟨head.1.trans later.1, later.2⟩)
      (fun _ _ later => ⟨later.1, head.1.trans later.2.1, later.2.2⟩)
  · rename_i exit reached started
    rwa [started] at head

/-- A sequence after a first part that gives a known value. -/
theorem Quiet.step {first : Run α} {next : α → Run β} {value : α}
    {ok : β → List Value → Heap → Prop} (head : Quiet first)
    (ended : first machine = .ok value reached) (tail : (next value).Meets reached ok failed)
    : (first >>= next).Meets machine ok failed := by
  have resumes := (head machine).resumes ended
  unfold Meets
  rw [ends_bind]
  unfold Ends
  rw [ended]
  exact Ends.mono tail (fun _ _ later => ⟨resumes.trans later.1, later.2⟩)
    (fun _ _ later => ⟨later.1, resumes.trans later.2.1, later.2.2⟩)

theorem Meets.map {body : Run α} {change : α → β} {ok : β → List Value → Heap → Prop}
    (h : body.Meets machine (fun value => ok (change value)) failed)
    : (change <$> body).Meets machine ok failed := by
  unfold Meets
  rw [ends_map]
  exact h

/-- A value is given in the state that there is, of which the condition has to hold. -/
theorem meets_pure {value : α} {ok : α → List Value → Heap → Prop}
    (left : ok value machine.values machine.heap)
    : (pure value : Run α).Meets machine ok failed :=
  ⟨.refl machine, left⟩

theorem meets_fail {error : DispatchError} {ok : α → List Value → Heap → Prop}
    (h : failed (.error error))
    : (fail error : Run α).Meets machine ok failed :=
  ⟨trivial, .refl machine, h⟩

/-- A fault ends in order unless it is one of those that the standard kernels do not have. -/
theorem meets_fault {fault : Fault} {ok : α → List Value → Heap → Prop}
    (orderly : (Exit.fault fault).Orderly) (h : failed (.fault fault))
    : (Run.fault fault : Run α).Meets machine ok failed :=
  ⟨orderly, .refl machine, h⟩

theorem quiet_pure (value : α) : Quiet (pure value : Run α) :=
  fun _ => meets_pure trivial

/-- A sequence of parts that hand every state back does so itself. -/
theorem Quiet.bind {first : Run α} {next : α → Run β} (head : Quiet first)
    (tail : ∀ value, Quiet (next value))
    : Quiet (first >>= next) :=
  fun machine => (head machine).bind fun value reached _ _ _ => tail value reached

theorem quiet_fail (error : DispatchError) : Quiet (fail error : Run α) :=
  fun _ => meets_fail trivial

theorem quiet_fault {fault : Fault} (orderly : (Exit.fault fault).Orderly)
    : Quiet (Run.fault fault : Run α) :=
  fun _ => meets_fault orderly trivial

theorem quiet_read (part : Machine → α) : Quiet (read part) :=
  fun machine => ⟨.refl machine, trivial⟩

/-- A pure computation leaves the state, and ends in order if its own ends are in order. -/
theorem quiet_lift {outcome : Outcome α} (orderly : outcome.Orderly)
    : Quiet (liftM outcome : Run α) := by
  intro machine
  unfold Meets
  rw [ends_lift]
  cases outcome with
  | ok value => exact ⟨.refl machine, trivial⟩
  | error exit => exact ⟨orderly exit rfl, .refl machine, trivial⟩

/-- Changes of values and of heap cells, but of no liveness flag, are of no account. -/
theorem quiet_modify {change : Machine → Machine}
    (thread : ∀ machine, (change machine).thread = machine.thread)
    (registry : ∀ machine, (change machine).registry = machine.registry)
    (flags : ∀ machine, (change machine).heap.flags = machine.heap.flags)
    : Quiet (modify change : Run PUnit) := by
  intro machine
  unfold Meets
  rw [ends_modify]
  refine ⟨?_, trivial⟩
  exact .of_eq (by simp only [Machine.ambient, thread]) (by rw [thread]) (registry machine)
    (flags machine)

/-- A change of the heap hands the state back if it leaves the liveness flags. -/
theorem quiet_onHeap {change : Heap → Heap} (flags : ∀ heap, (change heap).flags = heap.flags)
    : Quiet (onHeap change) :=
  quiet_modify (fun _ => rfl) (fun _ => rfl) (fun machine => flags machine.heap)

/-- So does making something on the heap. -/
theorem quiet_allocate {make : Heap → α × Heap} (flags : ∀ heap, (make heap).2.flags = heap.flags)
    : Quiet (allocate make) := by
  intro machine
  unfold Meets
  rw [ends_allocate]
  exact ⟨.of_eq rfl rfl rfl (flags machine.heap), trivial⟩

theorem quiet_log (event : Event) : Quiet (log event) :=
  fun _ => ⟨.of_eq rfl rfl rfl rfl, trivial⟩

/-- The parts of kernels that issue no calls hand every state back and end in order. The walks over
them are
shared with other such properties; here they have to be told of the single steps only.
-/
theorem quiet_writing : Writing Exit.Orderly Quiet where
  pure := quiet_pure
  bind := Quiet.bind
  plain h := h.orderly
  throw orderly _ := ⟨orderly, .refl _, trivial⟩
  look _ := quiet_read _
  read := quiet_read
  log := quiet_log
  setValues _ := quiet_modify (fun _ => rfl) (fun _ => rfl) (fun _ => rfl)
  setGenerator _ _ := ⟨.of_eq rfl rfl rfl rfl, trivial⟩
  onHeap := quiet_onHeap
  allocate := quiet_allocate

-----------------------------------------------------------------------------------------
-- Guards
-----------------------------------------------------------------------------------------

/-- From wherever a body started in `held` hands the state back, the cleanup leads to where one
started in `machine` does. It changes the boxed values as `after` says, and neither a heap cell nor
the generator.
-/
def Mends (machine held : Machine) (after : List Value → List Value) (cleanup : Run Unit) : Prop :=
  ∀ reached, held.Resumes reached →
    ∃ final,
      cleanup reached = .ok () final
      ∧ machine.Resumes final
      ∧ final.values = after reached.values
      ∧ final.heap = reached.heap
      ∧ final.thread.generator = reached.thread.generator

/-- A body with a cleanup that mends what the body hands back.
The body ends in order, so it does not abort, and its cleanup runs in each of the other cases; what
the
cleanup reaches is where a body that was started outside would have handed the state back.
-/
theorem Meets.ensuring {held : Machine} {after : List Value → List Value} {cleanup : Run Unit}
    {body outer : Run α} {ok : α → List Value → Heap → Prop}
    (mends : Mends machine held after cleanup)
    (started : outer machine = Run.ensuring body cleanup held)
    (h : body.Meets held (fun value values => ok value (after values)) failed)
    : outer.Meets machine ok failed := by
  unfold Meets Ends at *
  rw [started]
  unfold Run.ensuring
  cases ended : body held with
  | ok value reached =>
      rw [ended] at h
      obtain ⟨final, cleaned, resumes, values, heap, -⟩ := mends reached h.1
      have left : ok value (after reached.values) reached.heap := h.2
      simp only [cleaned]
      rw [values, heap]
      exact ⟨resumes, left⟩
  | error exit reached =>
      rw [ended] at h
      obtain ⟨orderly, resumed, left⟩ := h
      obtain ⟨final, cleaned, resumes, -⟩ := mends reached resumed
      cases exit with
      | error error => simpa only [cleaned] using ⟨orderly, resumes, left⟩
      | fault fault => simpa only [cleaned] using ⟨orderly, resumes, left⟩
      | abort => exact absurd orderly id

/-- A guard that moves from `machine` to another ambient state and, when it is released, mends what a
body hands back.
-/
def Moves (acquire : Run Guard) (machine : Machine) (ambient : Ambient) : Prop :=
  ∃ guard held,
    acquire machine = .ok guard held
    ∧ machine.Shifted ambient held
    ∧ Mends machine held id guard.release

/-- A body under a guard that moves meets what it meets wherever the guard is held. -/
theorem Meets.holding {acquire : Run Guard} {ambient : Ambient} {body : Run α}
    {ok : α → List Value → Heap → Prop} (moves : Moves acquire machine ambient)
    (inner : ∀ held, machine.Shifted ambient held → body.Meets held ok failed)
    : (Run.holding acquire body).Meets machine ok failed := by
  obtain ⟨guard, held, acquired, shifted, mends⟩ := moves
  refine Meets.ensuring mends ?_ (inner held shifted)
  unfold Run.holding
  rw [bind_apply, acquired]

/-- A guard that is held under a condition leads to one of two ambient states. -/
theorem Meets.holdingIf {condition : Bool} {acquire : Run Guard} {ambient : Ambient}
    {body : Run α} {ok : α → List Value → Heap → Prop} (moves : Moves acquire machine ambient)
    (inner
      : ∀ held,
          machine.Shifted (if condition then ambient else machine.ambient) held
          → body.Meets held ok failed)
    : (Run.holdingIf condition acquire body).Meets machine ok failed := by
  cases condition with
  | true => exact .holding moves inner
  | false => exact inner machine (.refl machine)

end Run
end LayeredDispatch
