import LayeredDispatch.Proofs.Dispatch.Meets

/-! In which ways computations can end without a value. Main statement: the parts of kernels that issue
no calls neither look anything up outside of its sequence nor divide by zero, they never run out of
room to nest, and they refuse no batch; each of them ends, from whatever state, with one of the other
errors or faults.
-/

namespace LayeredDispatch

open Run

/-- Every end without a value, from whatever state, is an allowed one. -/
def Run.Confined (allowed : Exit → Prop) (body : Run α) : Prop :=
  ∀ machine, body.Ends machine (fun _ _ => True) fun exit _ => allowed exit

section

variable {allowed : Exit → Prop}

namespace Run

variable {machine : Machine}

/-- More ends may be allowed. -/
theorem Confined.mono {allowed' : Exit → Prop} {body : Run α} (h : body.Confined allowed)
    (implies : ∀ exit, allowed exit → allowed' exit)
    : body.Confined allowed' :=
  fun machine => Ends.mono (h machine) (fun _ _ => id) fun exit _ => implies exit

/-- A computation that hands every state back, and of which the ends are known.
The two are said of the same end, whatever it is.
-/
theorem Confined.meets {body : Run α} (h : body.Confined allowed) (quiet : Quiet body)
    (machine : Machine)
    : body.Meets machine (fun _ _ _ => True) allowed := by
  have ends := h machine
  have resumes := quiet machine
  unfold Meets Ends at *
  cases ended : body machine with
  | ok value reached => rwa [ended] at resumes
  | error exit reached =>
      rw [ended] at ends resumes
      exact ⟨resumes.1, resumes.2.1, ends⟩

theorem confined_pure (value : α) : (pure value : Run α).Confined allowed :=
  fun _ => trivial

theorem confined_read (part : Machine → α) : (read part).Confined allowed :=
  fun _ => trivial

theorem confined_modify (change : Machine → Machine)
    : (modify change : Run PUnit).Confined allowed :=
  fun _ => trivial

theorem confined_onThread (change : Thread → Thread) : (onThread change).Confined allowed :=
  fun _ => trivial

theorem confined_onHeap (change : Heap → Heap) : (onHeap change).Confined allowed :=
  fun _ => trivial

theorem confined_allocate (make : Heap → α × Heap) : (allocate make).Confined allowed :=
  fun _ => trivial

/-- A pure computation ends as it does by itself. -/
theorem confined_lift {outcome : Outcome α} (h : outcome.Confined allowed)
    : Run.Confined allowed (liftM outcome : Run α) := by
  intro machine
  rw [ends_lift]
  cases outcome with
  | ok value => trivial
  | error exit => exact h exit rfl

/-- A sequence ends in allowed ways if its parts do: it ends with the one part or with the other.
-/
theorem Confined.bind {first : Run α} {next : α → Run β} (head : first.Confined allowed)
    (tail : ∀ value, (next value).Confined allowed)
    : (first >>= next).Confined allowed := by
  intro machine
  rw [ends_bind]
  exact Ends.mono (head machine) (fun value reached _ => tail value reached) fun _ _ => id

/-- Computations may do whatever they want to a state, as long as they end as allowed.
So every step but throwing is free, and plain refusals and faults have to be allowed.
-/
theorem confined_writing (plain : ∀ {exit}, Exit.Plain exit → allowed exit)
    : Writing allowed (Confined allowed) where
  pure := confined_pure
  bind := Confined.bind
  plain := plain
  throw h _ := h
  look _ := confined_read _
  read := confined_read
  log _ := confined_onThread _
  setValues _ := confined_modify _
  setGenerator _ := confined_onThread _
  onHeap _ := confined_onHeap _
  allocate _ := confined_allocate _

/-- The parts of kernels that issue no calls end in ways of their own: none of them runs out of room
to nest.
-/
theorem own_writing : Writing Exit.Own (Confined Exit.Own) :=
  confined_writing fun plain => plain.tame.own

/-- Apart from the base kernels they do not look anything up outside of its sequence either. -/
theorem regular_writing : Writing Exit.Regular (Confined Exit.Regular) :=
  confined_writing fun plain => plain.regular

/-- Parts that push, pop and restore layers may find one misplaced, and this is a regular end. -/
theorem regular_layering : Layering Exit.Regular (Confined Exit.Regular) where
  toLogging := regular_writing.toLogging
  misplaced _ _ := trivial
  onThread _ := confined_onThread _
  removeLevel :=
    regular_writing.removeLevel (fun _ => confined_onHeap _)
      (fun _ => confined_modify _)

end Run

/-- Base kernels come to an end by themselves, whatever the storages hold. -/
theorem Base.confined_baseKernel {name : String} {kernel : Kernel}
    (found : Dispatcher.baseKernel? name = some kernel) (calls : Calls) (op : Schema)
    : (kernel.run calls op).Confined Exit.Own :=
  own_writing.baseKernel (fun tame => tame.own) found calls op

end
end LayeredDispatch
