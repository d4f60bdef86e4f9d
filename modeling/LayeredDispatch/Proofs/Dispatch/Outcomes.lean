import LayeredDispatch.Kernels.Base
import LayeredDispatch.Proofs.Dispatch.Ambient
import LayeredDispatch.Proofs.Dispatch.Inheritance

/-! In which ways pure computations can end without a value. Main statements: reading an argument and
making a storage refuse what does not suit them or run out of sizes; only combining two storages, which
may hold fewer elements than their shapes say, can also look outside of them or divide by zero.
-/

namespace LayeredDispatch

/-- An end that a computation comes to by itself: neither the end of the room that calls have to nest,
nor a refusal for want of a rule for batches.
-/
def Exit.Own : Exit → Prop
  | .fault .diverged | .error (.missingBatchRule _) => False
  | _ => True

/-- An end of a computation's own that is neither a position outside of its sequence nor a division by
zero.
-/
def Exit.Regular : Exit → Prop
  | .fault .divisionByZero | .fault .outOfBounds | .fault (.rangeOutOfBounds ..) => False
  | exit => exit.Own

/-- An orderly end of a computation's own. -/
structure Exit.Tame (exit : Exit) : Prop where
  orderly : exit.Orderly
  own : exit.Own

/-- An orderly end without a position outside of its sequence or a division by zero. -/
structure Exit.Plain (exit : Exit) : Prop where
  orderly : exit.Orderly
  regular : exit.Regular

/-- Every end without a value is an allowed one. -/
def Outcome.Confined (allowed : Exit → Prop) (outcome : Outcome α) : Prop :=
  ∀ exit, outcome = .error exit → allowed exit

namespace Exit

variable {exit : Exit}

/-- An end of a computation's own is not the end of the room to nest. -/
theorem Own.ne_diverged (h : exit.Own) : exit ≠ .fault .diverged := by
  rintro rfl
  exact h

/-- A regular end is one of the computation's own: the ends that `Exit.Regular` rules out come on
top of those that `Exit.Own` rules out.
-/
theorem Regular.own (h : exit.Regular) : exit.Own := by
  unfold Exit.Regular at h
  split at h
  · exact h.elim
  · exact h.elim
  · exact h.elim
  · exact h

theorem Regular.ne_diverged (h : exit.Regular) : exit ≠ .fault .diverged :=
  h.own.ne_diverged

/-- A plain end is tame. It says more: the computation looked at no position outside of its sequence
and divided by nothing.
-/
theorem Plain.tame (h : exit.Plain) : exit.Tame :=
  ⟨h.orderly, h.regular.own⟩

end Exit

namespace Outcome

variable {allowed : Exit → Prop}

theorem confined_ok (value : α) : Confined allowed (.ok value : Outcome α) :=
  fun _ ended => by cases ended

/-- An end without a value is confined to any set of ends that has it. -/
theorem confined_error {exit : Exit} (h : allowed exit)
    : Confined allowed (.error exit : Outcome α) :=
  fun _ ended => by cases ended; exact h

/-- Confinement passes to every larger set of allowed ends. -/
theorem Confined.mono {allowed' : Exit → Prop} {outcome : Outcome α}
    (h : outcome.Confined allowed) (implies : ∀ exit, allowed exit → allowed' exit)
    : outcome.Confined allowed' :=
  fun exit ended => implies exit (h exit ended)

theorem Confined.orderly {outcome : Outcome α} (h : outcome.Confined Exit.Plain)
    : outcome.Orderly :=
  h.mono fun _ => Exit.Plain.orderly

theorem Confined.regular {outcome : Outcome α} (h : outcome.Confined Exit.Plain)
    : outcome.Confined Exit.Regular :=
  h.mono fun _ => Exit.Plain.regular

theorem Confined.tame {outcome : Outcome α} (h : outcome.Confined Exit.Plain)
    : outcome.Confined Exit.Tame :=
  h.mono fun _ => Exit.Plain.tame

/-- A sequence ends as allowed if its first part does, and its second part whatever value it is
given.
-/
theorem Confined.bind {first : Outcome α} {next : α → Outcome β} (head : first.Confined allowed)
    (tail : ∀ value, (next value).Confined allowed)
    : Confined allowed (first >>= next) := by
  cases first with
  | ok value => exact tail value
  | error exit => exact confined_error (head exit rfl)

/-- Confinement is inherited by sequences, and with `Inherited` by all loops. It is the property
that the rest of this module proves of the parts of base kernels.
-/
theorem inherited_confined : Inherited Outcome (Confined allowed) :=
  ⟨confined_ok, Confined.bind⟩

/-- A missing value ends in the fault that stands for it, a present one does not end at all. -/
theorem confined_orFault (value? : Option α) {fault : Fault} (h : allowed (.fault fault))
    : Confined allowed (orFault value? fault) := by
  cases value? with
  | some value => exact confined_ok value
  | none => exact confined_error h

/-- A size that no word can hold is a plain end. -/
theorem plain_orOverflow (value? : Option α) : Confined Exit.Plain (orFault value? .overflow) :=
  confined_orFault value? ⟨trivial, trivial⟩

/-- A buffer that is too large is refused in a plain way. -/
theorem plain_checkCapacity (count : Size) : (checkCapacity count).Confined Exit.Plain := by
  unfold checkCapacity
  split
  · exact confined_ok ()
  · exact confined_error ⟨trivial, trivial⟩

end Outcome

open Outcome

-----------------------------------------------------------------------------------------
-- Arguments
-----------------------------------------------------------------------------------------

namespace Value

variable (arguments : List Value) (op : String) (index : Nat)

/-- Reading a tensor from the arguments either finds it or refuses the call with an error that names
the operator and the position. Neither looks outside of the list.
-/
theorem plain_tensorAt : (tensorAt arguments op index).Confined Exit.Plain := by
  unfold tensorAt
  split
  · exact confined_ok _
  · exact confined_error ⟨trivial, trivial⟩

/-- Reading a number from the arguments ends in the same ways as reading a tensor. -/
theorem plain_intAt : (intAt arguments op index).Confined Exit.Plain := by
  unfold intAt
  split
  · exact confined_ok _
  · exact confined_error ⟨trivial, trivial⟩

/-- Reading sizes can fail at the argument itself or at one of its numbers, a negative one being
refused. Both refusals are plain, and the loop over the numbers inherits that.
-/
theorem plain_sizesAt : (sizesAt arguments op index).Confined Exit.Plain := by
  unfold sizesAt
  split
  · refine inherited_confined.mapM (fun size => ?_) _
    split
    · exact confined_ok _
    · exact confined_error ⟨trivial, trivial⟩
  · exact confined_error ⟨trivial, trivial⟩

/-- Reading a list of tensors can fail at the argument itself or at an item that is no tensor. -/
theorem plain_tensorsAt : (tensorsAt arguments op index).Confined Exit.Plain := by
  unfold tensorsAt
  split
  · refine inherited_confined.mapM (fun item => ?_) _
    split
    · exact confined_ok _
    · exact confined_error ⟨trivial, trivial⟩
  · exact confined_error ⟨trivial, trivial⟩

end Value

-----------------------------------------------------------------------------------------
-- Storages
-----------------------------------------------------------------------------------------

namespace Storage

/-- A new storage of zeros can be refused for its number of elements or for the size of its buffer,
in this order, and for nothing else.
-/
theorem plain_zeros (shape : Shape) : (zeros shape).Confined Exit.Plain :=
  (plain_orOverflow _).bind fun _ => (plain_checkCapacity _).bind fun _ => confined_ok _

/-- A storage that is resized meets the same two limits as a new one. What it held before plays no
part in it.
-/
theorem plain_resize (storage : Storage) (shape : Shape)
    : (storage.resize shape).Confined Exit.Plain :=
  (plain_orOverflow _).bind fun _ => (plain_checkCapacity _).bind fun _ => confined_ok _

/-- Looking up positions divides by the sizes of the result, which ends the computation if one of
them is 0. This end is tame but not plain.
-/
theorem tame_checkDivisors (sizes : List Size) : (checkDivisors sizes).Confined Exit.Tame := by
  unfold checkDivisors
  split
  · exact confined_error ⟨trivial, trivial⟩
  · exact confined_ok ()

/-- The positions of an operand are worked out element by element, after both strides and the number
of elements have been found to fit. Each element divides by the strides.
-/
theorem tame_operandIndices (result operand : Shape)
    : (operandIndices result operand).Confined Exit.Tame := by
  refine (plain_orOverflow _).tame.bind fun _ => (plain_orOverflow _).tame.bind fun _ => ?_
  refine (plain_checkCapacity _).tame.bind fun _ => inherited_confined.mapM (fun flat => ?_) _
  exact (tame_checkDivisors _).bind fun _ => confined_ok _

/-- Reading an element can end at a position that the storage does not have. -/
theorem tame_read (storage : Storage) (index : Nat) : (storage.read index).Confined Exit.Tame :=
  confined_orFault _ ⟨trivial, trivial⟩

/-- Whatever the operands hold, combining them ends by itself, in an orderly way: shapes that do not
fit together are an error, and looking the elements up is done by a loop whose rounds are tame. The
operands may hold fewer elements than their shapes say, so reading outside of them is not ruled out
here.
-/
theorem tame_broadcastBinary (op : String) (left right : Storage)
    (combine : Float → Float → Float)
    : (broadcastBinary op left right combine).Confined Exit.Tame := by
  unfold broadcastBinary
  split
  · exact confined_error ⟨trivial, trivial⟩
  · refine (tame_operandIndices _ _).bind fun _ => (tame_operandIndices _ _).bind fun _ => ?_
    refine Confined.bind (inherited_confined.mapM (fun pair => ?_) _) fun _ => confined_ok _
    exact (tame_read _ _).bind fun _ => (tame_read _ _).bind fun _ => confined_ok _

/-- No abort and no unexpected push can come from combining two storages. -/
theorem orderly_broadcastBinary (op : String) (left right : Storage)
    (combine : Float → Float → Float)
    : (broadcastBinary op left right combine).Orderly :=
  (tame_broadcastBinary op left right combine).mono fun _ => Exit.Tame.orderly

end Storage

end LayeredDispatch
