import LayeredDispatch.Proofs.Histories.Liveness
import LayeredDispatch.Proofs.Storages.Kernels

/-! Programs that make tensors and call operators on them, with acts on layers, levels, guards and
contexts in between, in any order and whatever becomes of the calls. Main statement: after every
sequence of steps all storages fit their shapes, and no call on what the program has been handed ends
at a position outside of a sequence or in a division by zero.
-/

namespace LayeredDispatch

open Run Dispatcher

/-- Storages that programs can make. -/
inductive Storage.Made : Storage → Prop where
  /-- Elements that are checked against the shape. -/
  | ofData {shape : Shape} {data : Array Float} {storage : Storage}
    (made : Storage.ofData shape data = .ok storage)
    : Made storage
  | zeros {shape : Shape} {storage : Storage} (made : Storage.zeros shape = .ok storage)
    : Made storage
  | scalar (value : Float) : Made (.scalar value)

/-- The tensors that an act is given. -/
def Act.given : Act → List Tensor
  | .tagAt value _ => [value]
  | _ => []

/-- A program between two steps: the course of its acts, and the tensors that it has been handed. -/
structure Workbench where
  course : Course
  tensors : List Tensor := []

/-- The state on which the next step runs. -/
def Workbench.machine (bench : Workbench) : Machine :=
  bench.course.machine

/-- The program in another state, with more tensors. -/
def Workbench.next (bench : Workbench) (machine : Machine) (handed : List Tensor) : Workbench where
  course := { bench.course with machine }
  tensors := handed ++ bench.tensors

/-- A program makes a tensor, wraps one that it has, calls an operator on tensors that it has, or acts
on layers, levels, guards and contexts; it goes on after a call without a value. At any time other
switches may be set, and another thread may go on, in whatever state.
-/
inductive Workbench.Step (bench : Workbench) : Workbench → Prop where
  | make {storage : Storage} (made : storage.Made)
    : Step bench (bench.next
        { bench.machine with heap := (bench.machine.heap.newDense storage).2 }
        [(bench.machine.heap.newDense storage).1])
  | tag {tensor : Tensor} (known : tensor ∈ bench.tensors) (level : Level) (flag : Nat)
    : Step bench (bench.next
        { bench.machine with heap := (bench.machine.heap.newTagged tensor level flag).2 }
        [(bench.machine.heap.newTagged tensor level flag).1])
  | batch {tensor : Tensor} (known : tensor ∈ bench.tensors) (level : Level)
    : Step bench (bench.next
        { bench.machine with heap := (bench.machine.heap.newBatched tensor level).2 }
        [(bench.machine.heap.newBatched tensor level).1])
  | unwrap {tensor value : Tensor} (known : tensor ∈ bench.tensors)
    (below : tensor.underlying? = some value)
    : Step bench (bench.next bench.machine [value])
  | returned {name : String} {arguments results : List Value} {reached : Machine}
    (known : Value.tensorsAll arguments ⊆ bench.tensors)
    (ended : standard.call name arguments bench.machine = .ok results reached)
    : Step bench (bench.next reached (Value.tensorsAll results))
  | failed {name : String} {arguments : List Value} {exit : Exit} {reached : Machine}
    (known : Value.tensorsAll arguments ⊆ bench.tensors)
    (ended : standard.call name arguments bench.machine = .error exit reached)
    : Step bench (bench.next reached [])
  | act {act : Act} (known : act.given ⊆ bench.tensors)
    : Step bench
        { course := bench.course.perform act
          tensors := (bench.course.perform act).tagged.map Prod.snd ++ bench.tensors }
  | resume (thread : Thread) (settings : Settings)
    : Step bench (bench.next { bench.machine with thread, settings } [])

/-- Storages fit their shapes, and all tensors that the program has been handed have storages. -/
structure Workbench.Stocked (bench : Workbench) : Prop where
  sized : bench.machine.heap.Sized
  tensors : ∀ tensor ∈ bench.tensors, tensor.Based bench.machine.heap.storages.size
  tagged : ∀ entry ∈ bench.course.tagged, entry.2.Based bench.machine.heap.storages.size

/-- After an act the storages are the same, and what has been tagged has one. -/
structure Workbench.Acted (bench : Workbench) (after : Course) : Prop where
  storages : after.machine.heap.storages = bench.machine.heap.storages
  tagged : ∀ entry ∈ after.tagged, entry.2.Based bench.machine.heap.storages.size

/-- The storages are the same, and so is what has been tagged. -/
structure Course.Spares (before after : Course) : Prop where
  storages : after.machine.heap.storages = before.machine.heap.storages
  tagged : after.tagged = before.tagged

section

variable {course : Course} {bench after : Workbench} {act : Act} {storage : Storage}
  {tensor : Tensor}

-----------------------------------------------------------------------------------------
-- Acts
-----------------------------------------------------------------------------------------

namespace Course

/-- An attempt leaves the storages and what has been tagged, if its body leaves storages alone and
what is
kept of a value is neither. After a body that gives no value nothing is kept.
-/
theorem attempt_spares {body : Run α} {keep : α → Course → Course} (apart : Apart body)
    (kept : ∀ value course, (keep value course).machine = course.machine)
    (tagged : ∀ value course, (keep value course).tagged = course.tagged)
    : course.Spares (course.attempt body keep) := by
  refine attempt_meets ((apart course.machine).mono (fun value reached spared => ?_) ?_)
  · refine ⟨?_, tagged _ _⟩
    rw [kept]
    exact spared.storages
  · exact fun _ _ spared => ⟨spared.storages, rfl⟩

theorem attempt_pass_spares {body : Run α} (apart : Apart body)
    : course.Spares (course.attempt body pass) :=
  attempt_spares apart (fun _ _ => rfl) fun _ _ => rfl

theorem attempt_guard_spares {body : Run Guard} (apart : Apart body)
    : course.Spares (course.attempt body keepGuard) :=
  attempt_spares apart (fun _ _ => rfl) fun _ _ => rfl

/-- Acts that are given no tensor leave storages alone.
One case for each act: it is an attempt at a computation that has been walked already, apart from
those
that only put a guard, a scope or a context aside.
-/
theorem perform_spares (untagged : act.given = []) : course.Spares (course.perform act) := by
  unfold perform
  cases act with
  | push layer => exact attempt_pass_spares (apart_layering.pushLayer layer)
  | pop => exact attempt_pass_spares apart_layering.popLayer
  | openLayer transform =>
      exact attempt_spares (apart_openLayer transform) noteLevel_machine noteLevel_tagged
  | closeLayer => exact attempt_pass_spares apart_layering.closeLayer
  | restoreLayers bottomFirst => exact attempt_pass_spares (apart_layering.restoreLayers bottomFirst)
  | createLevel level =>
      exact attempt_spares (apart_createLevel level) (fun _ _ => rfl) fun _ _ => rfl
  | levelFlag level => exact attempt_pass_spares (apart_noting.levelFlag level)
  | removeLevel level => exact attempt_pass_spares (apart_layering.removeLevel level)
  | tagAt value level => cases untagged
  | setIncluded capability member => exact attempt_pass_spares (apart_onThread _)
  | setExcluded capability member => exact attempt_pass_spares (apart_onThread _)
  | hide set => exact attempt_guard_spares (apart_layering.hide set)
  | forceOn set => exact attempt_guard_spares (apart_layering.forceOn set)
  | hideTop => exact attempt_guard_spares apart_layering.hideTop
  | ownLayer transform =>
      dsimp only
      rw [attempt_ownLayer]
      exact attempt_spares (apart_openLayer transform)
        (fun level after => noteLevel_machine level (after.keepGuard (.layer level)))
        fun level after => noteLevel_tagged level (after.keepGuard (.layer level))
  | capture => exact attempt_spares apart_layering.capture (fun _ _ => rfl) fun _ _ => rfl
  | enter position =>
      dsimp only
      split
      · exact attempt_guard_spares (apart_layering.enter _)
      · exact ⟨rfl, rfl⟩
  | release position =>
      dsimp only
      split
      · rename_i guard _
        have spares := @attempt_pass_spares
          { course with guards := course.guards.eraseIdx position } _ _ (apart_layering.release guard)
        exact ⟨spares.storages, spares.tagged⟩
      · exact ⟨rfl, rfl⟩

end Course

-----------------------------------------------------------------------------------------
-- Steps
-----------------------------------------------------------------------------------------

/-- Whatever storage a program can make fits its shape: elements are checked, zeros are counted by
the shape,
and a single number is the storage without dimensions.
-/
theorem Storage.Made.sized (made : storage.Made) : storage.Sized := by
  cases made with
  | ofData made =>
      obtain ⟨count, counted, made⟩ := Outcome.bind_ok made
      split at made
      · rename_i same
        cases made
        rw [Sized, Outcome.orFault_ok counted, same]
      · cases made
  | zeros made => exact sized_zeros made
  | scalar value => rfl

namespace Workbench

/-- After a step that takes no storage away, what the program has been handed before still has a
storage; so
only what it is handed now has to have one.
-/
theorem Stocked.next {machine : Machine} {handed : List Tensor} (stocked : bench.Stocked)
    (holding : machine.heap.Holding bench.machine.heap.storages.size)
    (based : ∀ tensor ∈ handed, tensor.Based machine.heap.storages.size)
    : (bench.next machine handed).Stocked where
  sized := holding.sized
  tensors tensor member := by
    rcases List.mem_append.mp member with fresh | old
    · exact based tensor fresh
    · exact (stocked.tensors tensor old).mono holding.enough
  tagged entry member := (stocked.tagged entry member).mono holding.enough

/-- The outermost wrapper is of no account to the storage. -/
theorem based_underlying {count : Nat} {value : Tensor} (below : tensor.underlying? = some value)
    (based : tensor.Based count)
    : value.Based count := by
  cases tensor <;> cases below <;> exact based

/-- An act keeps that what has been tagged has a storage.
Only tagging is given a tensor; it is one that the program has been handed, and its storage is that
of
the tagged one.
-/
theorem Stocked.perform (stocked : bench.Stocked) (known : act.given ⊆ bench.tensors)
    : bench.Acted (bench.course.perform act) := by
  by_cases untagged : act.given = []
  · obtain ⟨storages, tagged⟩ := Course.perform_spares untagged
    exact ⟨storages, by rw [tagged]; exact stocked.tagged⟩
  cases act with
  | tagAt value level =>
      have based := stocked.tensors value (known List.mem_cons_self)
      apply Course.attempt_meets
      have spares := apart_tagAt value level bench.course.machine
      unfold Ends at spares ⊢
      cases ended : tagAt value level bench.course.machine with
      | ok result reached =>
          rw [ended] at spares
          obtain ⟨cell, flag, rfl⟩ := tagAt_ok ended
          exact ⟨spares.storages, List.forall_mem_cons.mpr ⟨based, stocked.tagged⟩⟩
      | error exit reached =>
          rw [ended] at spares
          exact ⟨spares.storages, stocked.tagged⟩
  | _ => exact absurd rfl untagged

/-- The course after an act is that of a program that has been handed what was tagged meanwhile. -/
theorem Stocked.acted {course : Course} (stocked : bench.Stocked) (acted : bench.Acted course)
    : Workbench.Stocked ⟨course, course.tagged.map Prod.snd ++ bench.tensors⟩ := by
  have size : course.machine.heap.storages.size = bench.machine.heap.storages.size :=
    congrArg Array.size acted.storages
  refine ⟨stocked.sized.congr acted.storages, fun tensor member => ?_, fun entry member => ?_⟩
  · change tensor.Based course.machine.heap.storages.size
    rw [size]
    rcases List.mem_append.mp member with new | old
    · obtain ⟨entry, present, rfl⟩ := List.mem_map.mp new
      exact acted.tagged entry present
    · exact stocked.tensors tensor old
  · change entry.2.Based course.machine.heap.storages.size
    rw [size]
    exact acted.tagged entry member

/-- Every step keeps storages fitting their shapes.
A made tensor brings a storage that fits; wrapped ones are above storages that are there; a call
keeps
the storages whether it gives values or not; an act leaves them alone; and another thread has the
heap of
this one.
-/
theorem Stocked.step (stocked : bench.Stocked) (step : bench.Step after) : after.Stocked := by
  have same : bench.machine.heap.Holding bench.machine.heap.storages.size :=
    ⟨stocked.sized, le_rfl⟩
  have known_based {arguments : List Value} (known : Value.tensorsAll arguments ⊆ bench.tensors)
      : Value.Based bench.machine.heap.storages.size arguments :=
    Value.based_iff.mpr fun tensor member => stocked.tensors tensor (known member)
  cases step with
  | @make storage made =>
      refine stocked.next ⟨stocked.sized.newDense made.sized, ?_⟩ ?_
      · simp [Heap.newDense]
      · simp [Heap.newDense, Tensor.Based, Tensor.baseCell]
  | @tag tensor known level flag =>
      have based : tensor.Based _ := stocked.tensors tensor known
      exact stocked.next ⟨stocked.sized, le_rfl⟩ (List.forall_mem_singleton.mpr based)
  | @batch tensor known level =>
      have based : tensor.Based _ := stocked.tensors tensor known
      exact stocked.next ⟨stocked.sized, le_rfl⟩ (List.forall_mem_singleton.mpr based)
  | unwrap known below =>
      have based := based_underlying below (stocked.tensors _ known)
      exact stocked.next same (List.forall_mem_singleton.mpr based)
  | @returned name _ _ _ known ended =>
      obtain ⟨holding, based⟩ := Ends.of_ok (stocks_call name stocked.sized (known_based known)) ended
      exact stocked.next holding (Value.based_iff.mp based)
  | @failed name _ _ _ known ended =>
      have left := Ends.of_error (stocks_call name stocked.sized (known_based known)) ended
      exact stocked.next left.1 (List.forall_mem_nil _)
  | act known => exact stocked.acted (stocked.perform known)
  | resume thread settings => exact stocked.next ⟨stocked.sized, le_rfl⟩ (List.forall_mem_nil _)

/-- Hence every sequence of steps does, by induction from its end. -/
theorem Stocked.run (stocked : bench.Stocked) (steps : Relation.ReflTransGen Step bench after)
    : after.Stocked := by
  induction steps with
  | refl => exact stocked
  | tail _ step ih => exact ih.step step

end Workbench

/-- Storages fit their shapes after every program. Whatever tensors a program makes, wraps and calls
operators on, whatever it does to layers, levels, guards and contexts in between, and however its
calls
end: every storage has as many elements as the product of its dimensions, which is a size; every
tensor
that the program has been handed has a storage; and no call on such tensors ends at a position
outside
of a sequence or in a division by zero.
The start has neither storages nor tensors, so nothing is asked of it, and every step keeps the
rest.
-/
theorem Workbench.storages_consistent {start reached : Workbench}
    (empty : start.machine.heap.storages = #[]) (unhanded : start.tensors = [])
    (untagged : start.course.tagged = []) (steps : Relation.ReflTransGen Step start reached)
    : (∀ cell < reached.machine.heap.storages.size,
        let storage := reached.machine.heap.storage cell
        storage.shape.numel? = some storage.data.size
        ∧ storage.data.size = storage.shape.dims.prod)
      ∧ (∀ tensor ∈ reached.tensors, tensor.baseCell < reached.machine.heap.storages.size)
      ∧ ∀ name arguments exit left,
          Value.tensorsAll arguments ⊆ reached.tensors
          → standard.call name arguments reached.machine = .error exit left
          → exit.InRange := by
  have fresh : start.Stocked := by
    refine ⟨?_, ?_, ?_⟩
    · intro cell present
      rw [empty] at present
      cases present
    · rw [unhanded]
      exact List.forall_mem_nil _
    · rw [untagged]
      exact List.forall_mem_nil _
  have stocked := fresh.run steps
  refine ⟨fun cell present => ?_, stocked.tensors, fun name arguments exit left known ended => ?_⟩
  · have sized := stocked.sized cell present
    exact ⟨sized, Shape.numel?_eq_some sized⟩
  · have based : Value.Based reached.machine.heap.storages.size arguments :=
      Value.based_iff.mpr fun tensor member => stocked.tensors tensor (known member)
    exact (Ends.of_error (stocks_call name stocked.sized based) ended).2

/-- Witness: under a batching layer a tensor of zeros is resized in place, and then added in place to one
that it does not fit.
-/
theorem Workbench.storages_consistent_after_error
    : ∃ start reached : Workbench,
        start.machine.heap.storages = #[]
        ∧ Relation.ReflTransGen Step start reached
        ∧ [.batched 0 1 (.dense 0), .dense 1, .dense 0] ⊆ reached.tensors
        ∧ (∀ cell < reached.machine.heap.storages.size,
            (reached.machine.heap.storage cell).shape.numel?
            = some (reached.machine.heap.storage cell).data.size)
        ∧ ∀ exit left,
            standard.call "add" [.tensor (.batched 0 1 (.dense 0)), .tensor (.dense 1)] reached.machine
            = .error exit left
            → exit.InRange := by
  let start : Workbench := { course := { machine := {} } }
  let resized : List Value := [.tensor (.dense 1), .ints [3]]
  let summands : List Value := [.tensor (.dense 0), .tensor (.dense 1)]
  obtain ⟨before, steps, tensors, succeeds, fails⟩
      : ∃ before : Workbench,
          Relation.ReflTransGen Step start before
          ∧ before.tensors = [.batched 0 1 (.dense 0), .dense 1, .dense 0]
          ∧ (standard.call "resize_" resized).succeeds before.machine = true
          ∧ (standard.call "resize_" resized >>= fun _ => standard.call "add_" summands).exit?
              before.machine
            = some (.error (.shapeMismatch "add_" ⟨[2]⟩ ⟨[3]⟩)) := by
    have vector : Storage.ofData ⟨[2]⟩ #[1, 2] = .ok ⟨⟨[2]⟩, #[1, 2]⟩ := rfl
    have zeros : Storage.zeros ⟨[0]⟩ = .ok ⟨⟨[0]⟩, #[]⟩ := rfl
    have made := Relation.ReflTransGen.single (@Step.make start _ (.ofData vector))
    have both := made.tail (.make (.zeros zeros))
    have opened := both.tail (@Step.act _ (.openLayer (.batching 2 .error)) (List.nil_subset _))
    have batched := opened.tail (@Step.batch _ (.dense 0) (by decide) 1)
    exact ⟨_, batched, rfl, by decide +kernel, by decide +kernel⟩
  obtain ⟨results, middle, ended⟩ := succeeds_iff.mp succeeds
  obtain ⟨left, failed⟩ := exit?_eq_some.mp fails
  rw [bind_apply, ended] at failed
  have handed
      : [.batched 0 1 (.dense 0), .dense 1, .dense 0]
        ⊆ Value.tensorsAll results ++ before.tensors := by
    rw [tensors]
    exact List.subset_append_right _ _
  have known {arguments : List Value}
      (among : Value.tensorsAll arguments ⊆ [.batched 0 1 (.dense 0), .dense 1, .dense 0])
      : Value.tensorsAll arguments ⊆ Value.tensorsAll results ++ before.tensors :=
    List.Subset.trans among handed
  have returned := steps.tail (@Step.returned before _ _ _ _ (by rw [tensors]; decide) ended)
  have refused := returned.tail (@Step.failed (before.next middle (Value.tensorsAll results))
    "add_" summands _ _ (known (by decide)) failed)
  obtain ⟨sized, -, inRange⟩ := storages_consistent rfl rfl rfl refused
  exact ⟨start, _, rfl, refused, handed, fun cell present => (sized cell present).1,
    fun exit left => inRange _ _ exit left (known (by decide))⟩

end
end LayeredDispatch
