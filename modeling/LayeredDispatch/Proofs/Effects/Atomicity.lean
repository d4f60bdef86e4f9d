import LayeredDispatch.Proofs.Dispatch.Stacks
import LayeredDispatch.Proofs.Effects.Rules

/-! What a call may change of what was there before it. Main statement: a call that ends with an
error has written nothing, and one that gives a value has written at most the storage of the argument
on which its operator works in place.
-/

namespace LayeredDispatch

open Run Dispatcher

/-- The tags around a tensor, each with the value that it wraps. -/
def Tensor.tags : Tensor → List (Nat × Tensor)
  | .dense _ => []
  | .tagged cell _ _ value => (cell, value) :: value.tags
  | .batched _ _ value => value.tags

/-- The tags around the tensors among values, members of lists included. -/
def Value.tags (values : List Value) : List (Nat × Tensor) :=
  (tensorsAll values).flatMap Tensor.tags

/-- Handles that lead to something that has been made. What is changeable about a tag is made
together with the tag, so it belongs to one wrapped value.
-/
structure Value.Coherent (heap : Heap) (values : List Value) : Prop where
  stored : ∀ tensor ∈ tensorsAll values, tensor.baseCell < heap.storages.size
  tagged : ∀ tag ∈ tags values, tag.1 < heap.wrappers.size
  single : ∀ tag ∈ tags values, ∀ other ∈ tags values, tag.1 = other.1 → tag.2 = other.2

/-- The tags around arguments, all of which were there. -/
def Census.among (heap : Heap) (arguments : List Value) : Census where
  count := heap.wrappers.size
  wraps cell value := (cell, value) ∈ Value.tags arguments

/-- Nothing known. -/
def Census.none : Census where
  count := 0
  wraps _ _ := False

section

variable {heap : Heap} {arguments : List Value} {tensor : Tensor} {machine : Machine}
  {census : Census} {name : String}

/-- Nothing known is true of every heap. -/
theorem Census.sound_none (heap : Heap) : Census.none.Sound heap :=
  ⟨Nat.zero_le _, False.elim, False.elim, False.elim, fun h _ => h.elim⟩

theorem Tensor.known_none (tensor : Tensor) : tensor.Known Census.none := by
  induction tensor with
  | dense cell => trivial
  | tagged cell level flag value ih => exact ⟨fun there => absurd there (Nat.not_lt_zero _), ih⟩
  | batched handle level value ih => exact ih

/-- A tensor is known if all tags around it are. -/
theorem Tensor.known_of_tags (h : ∀ tag ∈ tensor.tags, census.wraps tag.1 tag.2)
    : tensor.Known census := by
  induction tensor with
  | dense cell => trivial
  | tagged cell level flag value ih =>
      obtain ⟨own, others⟩ := List.forall_mem_cons.mp h
      exact ⟨fun _ => own, ih others⟩
  | batched handle level value ih => exact ih h

/-- A tensor is old if all tags around it are. -/
theorem Tensor.old_of_tags (h : ∀ tag ∈ tensor.tags, tag.1 < census.count)
    : tensor.Old census := by
  induction tensor with
  | dense cell => trivial
  | tagged cell level flag value ih =>
      obtain ⟨own, others⟩ := List.forall_mem_cons.mp h
      exact ⟨own, ih others⟩
  | batched handle level value ih => exact ih h

/-- A wrapped value has no tags and no storage that the tensor around it has not. -/
theorem Tensor.tags_within {tag : Nat × Tensor} (h : tag ∈ tensor.tags)
    : tag.2.tags ⊆ tensor.tags ∧ tag.2.baseCell = tensor.baseCell := by
  induction tensor with
  | dense cell => cases h
  | tagged cell level flag value ih =>
      rcases List.mem_cons.mp h with rfl | inside
      · exact ⟨List.subset_cons_self _ _, rfl⟩
      · exact ⟨fun _ member => List.mem_cons_of_mem _ ((ih inside).1 member), (ih inside).2⟩
  | batched handle level value ih => exact ih h

/-- What arguments tell of the tags around them, if all that is said of one tag agrees in shape.
What is told of a tag is the value that it wraps, which is again among the arguments' values.
-/
theorem Census.sound_among
    (stored : ∀ tensor ∈ Value.tensorsAll arguments, tensor.baseCell < heap.storages.size)
    (tagged : ∀ tag ∈ Value.tags arguments, tag.1 < heap.wrappers.size)
    (single
      : ∀ tag ∈ Value.tags arguments, ∀ other ∈ Value.tags arguments,
          tag.1 = other.1 → tag.2.actualShape heap = other.2.actualShape heap)
    : (Census.among heap arguments).Sound heap := by
  have within {cell : Nat} {value : Tensor} (wraps : (cell, value) ∈ Value.tags arguments)
      : value.tags ⊆ Value.tags arguments ∧ value.baseCell < heap.storages.size := by
    obtain ⟨tensor, member, inside⟩ := List.mem_flatMap.mp wraps
    obtain ⟨tags, base⟩ := Tensor.tags_within inside
    refine ⟨fun tag found => List.mem_flatMap.mpr ⟨tensor, member, tags found⟩, ?_⟩
    rw [base]
    exact stored tensor member
  refine ⟨Nat.le_refl _, fun wraps => ?_, fun wraps => ?_, fun wraps => (within wraps).2, ?_⟩
  · exact Tensor.known_of_tags fun tag found => (within wraps).1 found
  · exact Tensor.old_of_tags fun tag found => tagged tag ((within wraps).1 found)
  · intro cell value other wraps wraps'
    exact single _ wraps _ wraps' rfl

/-- Coherent arguments agree in what they say of a tag, so what they tell is true. -/
theorem Value.Coherent.sound (h : Coherent heap arguments)
    : (Census.among heap arguments).Sound heap := by
  apply Census.sound_among h.stored h.tagged
  intro tag found other found' same
  rw [h.single tag found other found' same]

theorem Census.known_among (heap : Heap) (arguments : List Value)
    : ∀ tensor ∈ Value.tensorsAll arguments, tensor.Known (Census.among heap arguments) :=
  fun tensor member => Tensor.known_of_tags fun _ found =>
    List.mem_flatMap.mpr ⟨tensor, member, found⟩

-----------------------------------------------------------------------------------------
-- All kernels
-----------------------------------------------------------------------------------------

/-- Every kernel of the standard dispatcher changes only what the call that it handles may. The
fields are the kernels, each settled where it handles calls; this puts them together.
-/
theorem Contract.effects_kept (census : Census) : (Contract.effects census).Kept where
  congr same affects sound known := .congr same (affects sound known)
  unhandled ended unhandled _ _ :=
    leaves_ended ended unhandled.orderly (Census.Keeps.refl census _).undone
  traced affects sound known := .traced (affects sound known)
  base poses _ found dense _ _ := affects_baseKernel _ poses found dense
  outside := effects_outside
  enter holds poses above _ := effects_enter holds poses above
  differentiate holds poses within kind _ _ := effects_differentiate holds poses within kind
  leaveDifferentiation holds poses within kind _ :=
    effects_leaveDifferentiation holds poses within.toAbove kind
  leaveBatching holds poses within kind _ owned :=
    effects_leaveBatching holds poses within.toAbove kind (owned.imp id And.left)
  pointwise holds poses within kind _ _ named := effects_pointwise holds poses within kind named
  unsqueeze holds poses within kind _ _ op := by
    subst op
    exact effects_unsqueeze holds poses within kind
  addInPlace holds poses within kind _ _ op := by
    subst op
    exact effects_addInPlace holds poses within kind
  missingRule := effects_missingRule
  random holds poses within kind _ shown op := by
    subst op
    exact effects_random holds poses within kind shown

/-- A call by name changes what the operator of that name may change. Operators that are refused by
name or number of arguments change nothing at all.
-/
theorem Dispatcher.leaves_call (built : machine.Built) (sound : census.Sound machine.heap)
    (known : ∀ tensor ∈ Value.tensorsAll arguments, tensor.Known census)
    : (standard.call name arguments).Leaves machine
        (fun results _ memory =>
          ∃ op ∈ Base.schemas,
            op.name = name
            ∧ ∃ result,
                results = [.tensor result]
                ∧ census.Done op machine.thread.layers arguments machine.memory memory result)
        (fun exit memory =>
          ∃ op : Schema, op.name = name ∧ census.Undone op arguments machine.memory exit memory) := by
  have unwritten : census.Keeps machine.memory machine.memory := .refl census _
  refine leaves_standard built (fun error _ => ?_) fun op named count calling => ?_
  · exact ⟨{ name, arguments := [], returns := [] }, rfl, unwritten.undone⟩
  have holds
      : (Contract.effects census).Holds (standard.budget machine.thread.layers.length) :=
    (Contract.effects_kept census).holds _
  have called
      : ((nested (standard.budget machine.thread.layers.length)).dispatch op).Affects census
          op machine.thread.layers arguments [] machine.memory { machine with values := arguments } :=
    holds.affects calling unwritten sound rfl count known rfl fun _ _ _ settled => settled
  apply called.mono
  · intro _ _ memory left
    rcases left with ⟨result, same, done⟩
    exact ⟨op, calling.member, named, result, same, done⟩
  · exact fun exit memory undone => ⟨op, named, undone⟩

-----------------------------------------------------------------------------------------
-- Atomicity
-----------------------------------------------------------------------------------------

/-- The operators that work in place are these two. -/
theorem Schema.named_of_isInPlace {op : Schema} (member : op ∈ Base.schemas)
    (pure : op.isInPlace = true)
    : op.name = "add_" ∨ op.name = "resize_" := by
  rcases inPlace_cases member pure with rfl | rfl
  · exact Or.inl rfl
  · exact Or.inr rfl

/-- An operator writes below its first argument or nowhere. -/
theorem Schema.written?_eq_some {op : Schema} {cell : Nat} (h : op.written? arguments = some cell)
    : op.isInPlace = true
      ∧ ∃ target, arguments.head? = some (.tensor target) ∧ target.baseCell = cell := by
  unfold Schema.written? at h
  split at h
  · rename_i pure
    obtain ⟨target, found, base⟩ := Option.map_eq_some_iff.mp h
    obtain ⟨value, first, tensor⟩ := Option.bind_eq_some_iff.mp found
    refine ⟨pure, target, ?_, base⟩
    rw [first, Value.tensor?_eq_some tensor]
  · cases h

/-- Calls under a built stack are atomic. One that ends with an error has changed nothing that was
there, no storage, no record of which operator produced a value and not the generator, but shapes that
tags remember; and a tag that remembers another shape than before is one around an argument and
remembers the shape that its value has now. One that gives a value has written at most the storage
below the first argument, and this only if its operator works in place; it has changed no record of
which operator produced a value that was there; and the generator only if it draws numbers.
-/
theorem Dispatcher.call_atomic (built : machine.Built) (name : String) (arguments : List Value)
    : (∀ error reached,
        standard.call name arguments machine = .error (.error error) reached
        → machine.memory.Spares reached.memory
          ∧ (Value.Coherent machine.heap arguments
            → ∀ cell < machine.heap.wrappers.size,
                (reached.heap.wrapper cell).shape = (machine.heap.wrapper cell).shape
                ∨ ∃ value,
                    (cell, value) ∈ Value.tags arguments
                    ∧ (reached.heap.wrapper cell).shape = value.shape reached.heap))
      ∧ ∀ results reached,
          standard.call name arguments machine = .ok results reached
          → (∀ cell < machine.heap.storages.size,
              cell < reached.heap.storages.size
              ∧ (reached.heap.storage cell = machine.heap.storage cell
                ∨ (name = "add_" ∨ name = "resize_")
                  ∧ ∃ target, arguments.head? = some (.tensor target) ∧ target.baseCell = cell))
            ∧ (∀ cell < machine.heap.wrappers.size,
                cell < reached.heap.wrappers.size
                ∧ (reached.heap.wrapper cell).gradFn = (machine.heap.wrapper cell).gradFn)
            ∧ (name ≠ "rand" → reached.thread.generator = machine.thread.generator) := by
  have leaves := @leaves_call arguments machine Census.none name built
    (Census.sound_none machine.heap) fun tensor _ => tensor.known_none
  refine ⟨fun error reached ended => ⟨?_, fun coherent cell present => ?_⟩,
    fun results reached ended => ?_⟩
  · obtain ⟨-, -, op, -, undone⟩ := Ends.of_error leaves ended
    exact (undone.keeps error rfl).toSpares
  · have leaves := @leaves_call arguments machine (Census.among machine.heap arguments) name built
      coherent.sound (Census.known_among machine.heap arguments)
    obtain ⟨-, -, op, -, undone⟩ := Ends.of_error leaves ended
    have keeps := undone.keeps error rfl
    rcases keeps.refreshed cell present with same | ⟨value, wraps, shape, settled⟩
    · exact Or.inl same
    · have up := settled.shape_eq (coherent.sound.old wraps)
      exact Or.inr ⟨value, wraps, shape.trans up.symm⟩
  · obtain ⟨-, op, member, named, result, -, done⟩ := Ends.of_ok leaves ended
    refine ⟨fun cell present => ?_, done.allows.wrappers, fun drawless => ?_⟩
    · obtain ⟨inside, kept⟩ := done.allows.storages cell present
      refine ⟨inside, ?_⟩
      by_cases written : op.written? arguments = some cell
      · obtain ⟨pure, target⟩ := Schema.written?_eq_some written
        rw [← named]
        exact Or.inr ⟨Schema.named_of_isInPlace member pure, target⟩
      · exact Or.inl (kept written)
    · rw [← named] at drawless
      exact done.allows.generator drawless

/-- Witness: two additions to a batch of tagged values, under two layers. The one in place leaves the
storage that it adds as it was. The other is refused, since the shapes do not match, but only after it
has padded the batch: the padding has corrected the shape that the tag remembered, and nothing else
that was there has changed.
-/
theorem Dispatcher.call_atomic_two_layers
    : ∃ (machine reached refused : Machine) (results : List Value) (row column : Value),
        let batch := Value.tensor (.batched 0 2 (.tagged 0 1 0 (.dense 0)))
        machine.Built
        ∧ standard.call "add_" [batch, row] machine = .ok results reached
        ∧ 1 < machine.heap.storages.size
        ∧ reached.heap.storage 1 = machine.heap.storage 1
        ∧ (reached.heap.wrapper 0).gradFn = (machine.heap.wrapper 0).gradFn
        ∧ reached.thread.generator = machine.thread.generator
        ∧ Value.Coherent machine.heap [batch, column]
        ∧ standard.call "add" [batch, column] machine
          = .error (.error (.shapeMismatch "add" ⟨[2, 1, 3]⟩ ⟨[1, 2]⟩)) refused
        ∧ machine.memory.Spares refused.memory
        ∧ (refused.heap.wrapper 0).shape ≠ (machine.heap.wrapper 0).shape
        ∧ (refused.heap.wrapper 0).shape = (Tensor.dense 0).shape refused.heap := by
  let fresh : Machine :=
    { heap :=
        { storages := #[⟨⟨[2, 3]⟩, #[1, 2, 3, 4, 5, 6]⟩, ⟨⟨[3]⟩, #[10, 20, 30]⟩, ⟨⟨[1, 2]⟩, #[7, 8]⟩]
          wrappers := #[{ shape := ⟨[2]⟩ }] } }
  let batch : Value := .tensor (.batched 0 2 (.tagged 0 1 0 (.dense 0)))
  let row : Value := .tensor (.dense 1)
  let column : Value := .tensor (.dense 2)
  let unrefreshed (outcome : EStateM.Result Exit Machine (List Value)) : Bool :=
    match outcome with
    | .error _ reached => decide ((reached.heap.wrapper 0).shape = ⟨[2]⟩)
    | .ok _ _ => true
  have opened := Machine.Built.opened
    (.opened (@Machine.Built.fresh fresh rfl rfl)
      (rfl : openLayer (.differentiation (some false) none) fresh = .ok 1 _))
    (rfl : openLayer (.batching 2 .error) _ = .ok 2 _)
  obtain ⟨machine, built, succeeds, stored, wrapped, coherent, mismatched, old, corrected⟩
      : ∃ machine : Machine,
          machine.Built
          ∧ (standard.call "add_" [batch, row]).succeeds machine = true
          ∧ 1 < machine.heap.storages.size
          ∧ 0 < machine.heap.wrappers.size
          ∧ Value.Coherent machine.heap [batch, column]
          ∧ (standard.call "add" [batch, column]).exit? machine
            = some (.error (.shapeMismatch "add" ⟨[2, 1, 3]⟩ ⟨[1, 2]⟩))
          ∧ (machine.heap.wrapper 0).shape = ⟨[2]⟩
          ∧ unrefreshed (standard.call "add" [batch, column] machine) = false :=
    ⟨_, opened, by decide +kernel, by decide, by decide, ⟨by decide, by decide, by decide⟩,
      by decide +kernel, rfl, by decide +kernel⟩
  obtain ⟨results, reached, ended⟩ := succeeds_iff.mp succeeds
  obtain ⟨refused, failed⟩ := exit?_eq_some.mp mismatched
  obtain ⟨storages, wrappers, generator⟩ := (call_atomic built _ _).2 results reached ended
  obtain ⟨spares, remembered⟩ := (call_atomic built _ _).1 _ refused failed
  have changed : (refused.heap.wrapper 0).shape ≠ (machine.heap.wrapper 0).shape := by
    rw [failed] at corrected
    rw [old]
    exact of_decide_eq_false corrected
  refine ⟨machine, reached, refused, results, row, column, built, ended, stored, ?_,
    (wrappers 0 wrapped).2, generator (by decide), coherent, failed, spares, changed, ?_⟩
  · rcases (storages 1 stored).2 with same | ⟨-, target, first, base⟩
    · exact same
    · obtain rfl := Value.tensor.inj (Option.some.inj first)
      cases base
  · rcases remembered coherent 0 wrapped with same | ⟨value, wraps, shape⟩
    · exact absurd same changed
    · obtain rfl : value = .dense 0 := by
        have wraps : (0, value) ∈ [(0, Tensor.dense 0)] := wraps
        simpa using wraps
      exact shape

end

end LayeredDispatch
