import LayeredDispatch.Guard
import LayeredDispatch.Wrapping
import LayeredDispatch.Proofs.Dispatch.Ends

/-! What a program does to the layers, levels and overlay of a thread, one act after another. Guards
are released at any time and in any order, and an act that ends without a value is given up while the
program goes on. Main statement: what every act keeps, whether it gives a value or not, holds after
every sequence of acts.
-/

namespace LayeredDispatch

open Run

/-- A thread in the course of a program, with what the program has been handed so far. -/
structure Course where
  machine : Machine
  /-- The guards that are not released yet, newest first. -/
  guards : List Guard := []
  /-- The contexts that were captured, newest first. -/
  contexts : List Context := []
  /-- The levels that were registered with the flags that they were given, newest first. -/
  issued : List (Level × Nat) := []
  /-- The values that were tagged with a level, newest first. -/
  tagged : List (Level × Tensor) := []

/-- An act on layers, levels, the overlay, guards or contexts. -/
inductive Act where
  | push (layer : Layer)
  | pop
  | openLayer (transform : Transform)
  | closeLayer
  | restoreLayers (bottomFirst : List Layer)
  | createLevel (level : Level)
  | levelFlag (level : Level)
  | removeLevel (level : Level)
  | tagAt (value : Tensor) (level : Level)
  | setIncluded (capability : Capability) (member : Bool)
  | setExcluded (capability : Capability) (member : Bool)
  | hide (set : CapabilitySet)
  | forceOn (set : CapabilitySet)
  | hideTop
  | ownLayer (transform : Transform)
  | capture
  /-- Enters a captured context, which is told by its position. -/
  | enter (position : Nat)
  /-- Releases a guard, which is told by its position. -/
  | release (position : Nat)

namespace Course

/-- Runs a computation and keeps what it gives; one that ends without a value is given up where it
has got to.
-/
def attempt (course : Course) (body : Run α) (keep : α → Course → Course) : Course :=
  match body course.machine with
  | .ok value machine => keep value { course with machine }
  | .error _ machine => { course with machine }

/-- Keeps nothing. -/
def pass (_ : α) (course : Course) : Course :=
  course

def keepGuard (guard : Guard) (course : Course) : Course :=
  { course with guards := guard :: course.guards }

def keepContext (context : Context) (course : Course) : Course :=
  { course with contexts := context :: course.contexts }

/-- Notes the flag with which a level was registered. -/
def noteFlag (level : Level) (flag : Nat) (course : Course) : Course :=
  { course with issued := (level, flag) :: course.issued }

/-- Notes the flag of a level that has just been registered. -/
def noteLevel (level : Level) (course : Course) : Course :=
  match course.machine.registry.find? level with
  | some flag => course.noteFlag level flag
  | none => course

def keepTagged (level : Level) (tensor : Tensor) (course : Course) : Course :=
  { course with tagged := (level, tensor) :: course.tagged }

/-- Keeps a guard and notes the level that it owns. -/
def keepOwner (guard : Guard) (course : Course) : Course :=
  match guard with
  | .layer level => (course.keepGuard guard).noteLevel level
  | other => course.keepGuard other

/-- Performs an act. -/
def perform (course : Course) : Act → Course
  | .push layer => course.attempt (pushLayer layer) pass
  | .pop => course.attempt popLayer pass
  | .openLayer transform => course.attempt (Run.openLayer transform) noteLevel
  | .closeLayer => course.attempt Run.closeLayer pass
  | .restoreLayers bottomFirst => course.attempt (Run.restoreLayers bottomFirst) pass
  | .createLevel level => course.attempt (Run.createLevel level) (noteFlag level)
  | .levelFlag level => course.attempt (Run.levelFlag level) pass
  | .removeLevel level => course.attempt (Run.removeLevel level) pass
  | .tagAt value level => course.attempt (Run.tagAt value level) (keepTagged level)
  | .setIncluded capability member =>
      course.attempt (onOverlay fun overlay => overlay.setIncluded capability member) pass
  | .setExcluded capability member =>
      course.attempt (onOverlay fun overlay => overlay.setExcluded capability member) pass
  | .hide set => course.attempt (Guard.hide set) keepGuard
  | .forceOn set => course.attempt (Guard.forceOn set) keepGuard
  | .hideTop => course.attempt Guard.hideTop keepGuard
  | .ownLayer transform => course.attempt (Guard.ownLayer transform) keepOwner
  | .capture => course.attempt Context.capture keepContext
  | .enter position =>
      match course.contexts[position]? with
      | some context => course.attempt (Guard.enter context) keepGuard
      | none => course
  | .release position =>
      match course.guards[position]? with
      | some guard =>
          { course with guards := course.guards.eraseIdx position }.attempt guard.release pass
      | none => course

/-- Performs acts one after another. -/
def performAll (course : Course) (acts : List Act) : Course :=
  acts.foldl perform course

/-- Acts that follow others start from the course that these have led to. -/
theorem performAll_append (course : Course) (first second : List Act)
    : course.performAll (first ++ second) = (course.performAll first).performAll second :=
  List.foldl_append

/-- What holds after an attempt follows from what holds where the computation ends. An attempt that
is given up counts with the state that it has got to.
-/
theorem attempt_meets {course : Course} {body : Run α} {keep : α → Course → Course}
    {holds : Course → Prop}
    (ends
      : body.Ends course.machine
          (fun value machine => holds (keep value { course with machine }))
          (fun _ machine => holds { course with machine }))
    : holds (course.attempt body keep) := by
  unfold attempt
  unfold Run.Ends at ends
  split <;> rename_i ended <;> rw [ended] at ends <;> exact ends

/-- What every act of a sequence keeps holds after all of them, by induction on the acts. No act
needs to succeed for this.
-/
theorem performAll_keeps {holds : Course → Prop} {acts : List Act}
    (step : ∀ act ∈ acts, ∀ course : Course, holds course → holds (course.perform act))
    {course : Course} (start : holds course)
    : holds (course.performAll acts) := by
  induction acts generalizing course with
  | nil => exact start
  | cons act acts ih =>
      exact ih (fun later member => step later (List.mem_cons_of_mem _ member))
        (step act List.mem_cons_self course start)

end Course
end LayeredDispatch
