import LayeredDispatch.Proofs.Twins.Outside

/-! Calls on arguments some of whose dead tags are taken off, wherever these are. Main statement: under
every stack of layers both calls end alike, with results that differ in dead tags only, but that below
all layers a dead tag may hide a batch from an operator without a rule for batches.
-/

namespace LayeredDispatch

open Run Dispatcher

/-- Calls on two lists of arguments end alike: both give a result, and the results and what the calls
leave behind differ in dead tags only, or both end otherwise, as `failed` says.
-/
def Pairing.Interchanges (pairing : Pairing) (machine : Machine) (name : String)
    (arguments arguments' : List Value) (failed : Exit → Exit → Prop)
    : Prop :=
  match standard.call name arguments machine, standard.call name arguments' machine with
  | .ok results reached, .ok results' reached' =>
      ∃ result result',
        results = [.tensor result]
        ∧ results' = [.tensor result']
        ∧ pairing.Faces result result'
        ∧ pairing.Agrees reached.memory reached'.memory
  | .error exit _, .error exit' _ => failed exit exit'
  | _, _ => False

section

variable {pairing : Pairing} {exempt : Prop} {machine twin : Machine} {failed : Exit → Exit → Prop}
  {op : Schema} {layer : Layer} {below : List Layer} {name : String}
  {outer outer' arguments arguments' : List Value} {budget : Nat}

-----------------------------------------------------------------------------------------
-- Calls that go alike
-----------------------------------------------------------------------------------------

/-- The rules for batches go alike in both runs. There is one case for each operator, which has one
of the rules or none.
-/
theorem tallies_batchRule (holds : pairing.Holds exempt budget)
    (posed
      : pairing.Posed exempt (budget + 1) op op (layer :: below) machine twin outer outer' arguments
          arguments')
    (within : machine.InBody layer below) (kind : layer.kind = .batching)
    (shown : machine.thread.overlay.excluded.contains .batched = false)
    : ((batchRule op.name).run (nested budget) op).Tallies pairing exempt op outer outer' machine
        twin := by
  have listed := posed.calling.member
  simp only [Base.schemas, List.mem_cons, List.not_mem_nil, or_false] at listed
  rcases listed with rfl | rfl | rfl | rfl | rfl | rfl | rfl | rfl | rfl | rfl
  · exact tallies_pointwise holds posed within kind shown (by decide)
  · exact tallies_pointwise holds posed within kind shown (by decide)
  · exact tallies_pointwise holds posed within kind shown (by decide)
  · exact tallies_missingRule _
  · exact tallies_missingRule _
  · exact tallies_unsqueeze holds posed within kind shown rfl (by decide)
  · exact tallies_missingRule _
  · exact tallies_missingRule _
  · exact tallies_addInPlace holds posed within kind shown rfl (by decide)
  · exact tallies_missingRule _

/-- All calls on related arguments go alike, however deep they nest, by induction on the depth.
Under active layers the kernels that handle the calls are the same, and outside all layers dead tags
are taken off.
-/
theorem Pairing.holds (pairing : Pairing) (exempt : Prop) (budget : Nat)
    : pairing.Holds exempt budget := by
  induction budget with
  | zero =>
      intro op owners machine twin outer outer' arguments arguments' posed
      exact absurd (Nat.le_trans machine.ambient.two_le_reach posed.steps) (by decide)
  | succ budget holds =>
      intro op owners machine twin outer outer' arguments arguments' posed
      by_cases inactive : machine.thread.layers = []
      · -- The fallback for dead tags at the base takes a call of its own.
        have enough := Nat.le_trans machine.ambient.two_le_reach posed.steps
        obtain ⟨budget, rfl⟩ := Nat.exists_eq_add_of_le' (Nat.le_of_succ_le_succ enough)
        exact tallies_outside posed inactive
      refine Beside.dispatch posed inactive Iff.rfl ?_
      intro capability kernel kernel' posed handles
      cases handles with
      | enter above front => exact tallies_enter holds posed above front
      | differentiate within kind shown =>
          exact tallies_differentiate holds posed within kind shown
      | leaveDifferentiation within kind =>
          exact tallies_leaveDifferentiation holds posed within kind
      | random within kind forced shown named =>
          exact tallies_random holds posed within kind forced shown
            (arity_rand posed.calling.member named)
      | rule within kind shown => exact tallies_batchRule holds posed within kind shown
      | leaveBatching within kind _ => exact tallies_leaveBatching holds posed within kind

-----------------------------------------------------------------------------------------
-- Calls by name
-----------------------------------------------------------------------------------------

/-- Two calls side by side that answer alike interchange. -/
theorem Pairing.Interchanges.of_beside
    (beside
      : Beside True (standard.call name arguments) (standard.call name arguments') machine machine
          (fun results _ memory results' _ memory' =>
            pairing.Answers [] [] results memory results' memory')
          failed)
    : pairing.Interchanges machine name arguments arguments' failed := by
  unfold Pairing.Interchanges
  cases ended : standard.call name arguments machine with
  | ok results reached =>
      obtain ⟨results', reached', ended', -, -, result, result', rfl, rfl, agrees, faces⟩ :=
        beside.of_ok ended
      rw [ended']
      exact ⟨result, result', rfl, rfl, faces, agrees⟩
  | error exit reached =>
      obtain ⟨exit', reached', ended', left⟩ := beside.of_error ended trivial
      rw [ended']
      exact left

/-- Taking off dead tags that are around arguments, or anywhere inside them, makes no difference to
calls under built stacks. Below all layers, and where arguments are not checked on their way there, a
dead tag may hide a batch from an operator that has no rule for batches; then the call without the tag
is refused where the one with it is stopped.
-/
theorem Dispatcher.call_interchanges (built : machine.Built)
    (agrees : pairing.Agrees machine.memory machine.memory)
    (matched : Value.RelatedAll pairing.Matched arguments arguments') (name : String)
    : pairing.Interchanges machine name arguments arguments'
        (Exit.Follows (machine.thread.layers = [] ∨ machine.settings.checkUnwrapped = false)
          name) := by
  refine .of_beside (.step rfl rfl (.call matched.length_eq Exit.Follows.of_alike ?_))
  intro op found count
  obtain ⟨member, rfl⟩ := schema?_standard found
  have calling (values : List Value)
      : Machine.Calling { machine with values } op machine.thread.layers :=
    .of_layers member built.founded.owners rfl
  have shown : machine.thread.overlay.excluded.contains .entryInterceptor = false := by
    rw [built.founded.overlay]
    cases machine.thread.layers.isEmpty <;> rfl
  refine (pairing.holds _ _ {
    calling := calling arguments
    calling' := calling arguments'
    twins := ⟨rfl, rfl, rfl, agrees⟩
    values := (List.nil_append _).symm
    values' := (List.nil_append _).symm
    size := count
    size' := matched.length_eq.trans count
    matched := matched
    faced := fun hidden => absurd (hidden.symm.trans shown) Bool.noConfusion
    steps := machine.ambient.reach_le_budget standard
    unchecked := Or.inr
    based := fun inactive => Or.inl (Or.inl inactive) }).mono ?_ fun _ _ => id
  intro _ values memory _ values' memory' left
  exact left

/-- Witness: under two layers a batch of tagged values may lose its tags, which are dead. -/
theorem Dispatcher.call_interchanges_two_layers
    : ∃ (machine reached reached' : Machine) (pairing : Pairing) (arguments arguments' : List Value)
        (result result' : Tensor),
        machine.Built
        ∧ arguments = [.tensor (.batched 0 2 (.tagged 0 1 0 (.dense 0))), .tensor (.dense 1)]
        ∧ arguments' = [.tensor (.batched 0 2 (.dense 0)), .tensor (.dense 1)]
        ∧ standard.call "add" arguments machine = .ok [.tensor result] reached
        ∧ standard.call "add" arguments' machine = .ok [.tensor result'] reached'
        ∧ pairing.Faces result result'
        ∧ pairing.Agrees reached.memory reached'.memory := by
  let fresh : Machine :=
    { heap :=
        { storages := #[⟨⟨[2, 3]⟩, #[1, 2, 3, 4, 5, 6]⟩, ⟨⟨[3]⟩, #[10, 20, 30]⟩]
          wrappers := #[{ shape := ⟨[2, 3]⟩ }]
          flags := #[false] } }
  have opened := Machine.Built.opened
    (.opened (@Machine.Built.fresh fresh rfl rfl)
      (rfl : openLayer (.differentiation (some false) none) fresh = .ok 1 _))
    (rfl : openLayer (.batching 2 .error) _ = .ok 2 _)
  obtain ⟨machine, built, dead, succeeds⟩
      : ∃ machine : Machine,
          machine.Built
          ∧ machine.heap.flags.getD 0 false = false
          ∧ (standard.call "add"
              [.tensor (.batched 0 2 (.tagged 0 1 0 (.dense 0))), .tensor (.dense 1)]).succeeds
              machine = true :=
    ⟨_, opened, rfl, by decide +kernel⟩
  have agrees : (Pairing.identity machine.heap).Agrees machine.memory machine.memory :=
    ⟨Pairing.alike_identity machine.heap, rfl⟩
  have matched
      : Value.RelatedAll (Pairing.identity machine.heap).Matched
          [.tensor (.batched 0 2 (.tagged 0 1 0 (.dense 0))), .tensor (.dense 1)]
          [.tensor (.batched 0 2 (.dense 0)), .tensor (.dense 1)] :=
    .cons (.tensor (.batched (.dropped dead (.dense 0)))) (.cons (.tensor (.dense 1)) .nil)
  have interchanges := Dispatcher.call_interchanges built agrees matched "add"
  obtain ⟨results, reached, ended⟩ := succeeds_iff.mp succeeds
  unfold Pairing.Interchanges at interchanges
  rw [ended] at interchanges
  split at interchanges
  · rename_i reached' same ended'
    cases same
    rcases interchanges with ⟨result, result', rfl, rfl, faces, agrees⟩
    exact ⟨machine, reached, reached', _, _, _, result, result', built, rfl, rfl, ended, ended',
      faces, agrees⟩
  · rename_i same _
    cases same
  · exact interchanges.elim

/-- Whether a computation is stopped by a fault. -/
def Run.faults (body : Run α) (machine : Machine) : Bool :=
  match body machine with
  | .ok .. => false
  | .error exit _ => exit matches .fault _

/-- Of two calls that interchange, one faults exactly if the other does. -/
theorem Pairing.Interchanges.faults_eq
    (h : pairing.Interchanges machine name arguments arguments' Exit.Alike)
    : (standard.call name arguments).faults machine
      = (standard.call name arguments').faults machine := by
  unfold Pairing.Interchanges at h
  unfold Run.faults
  split at h
  · rename_i ended ended'
    rw [ended, ended']
  · rename_i ended ended'
    rw [ended, ended']
    cases h <;> rfl
  · exact h.elim

/-- Below all layers a dead tag hides a batch from an operator without a rule for batches. Without the
tag the call is refused; with it the call goes on to the live tag beside the batch, which faults.
-/
theorem Dispatcher.not_interchanges_below_layers
    : ∃ (machine : Machine) (pairing : Pairing) (arguments arguments' : List Value),
        machine.Built
        ∧ pairing.Agrees machine.memory machine.memory
        ∧ Value.RelatedAll pairing.Matched arguments arguments'
        ∧ ¬pairing.Interchanges machine "add_n" arguments arguments' Exit.Alike := by
  let machine : Machine :=
    { heap :=
        { storages := #[⟨⟨[1]⟩, #[1]⟩]
          wrappers := #[{ shape := ⟨[1]⟩ }, { shape := ⟨[1]⟩ }]
          flags := #[true, false] } }
  let batch : Tensor := .batched 0 1 (.dense 0)
  let live : Tensor := .tagged 1 1 0 (.dense 0)
  have matched (tensor : Tensor) := Pairing.matched_identity machine.heap tensor
  refine ⟨machine, .identity machine.heap, [.list [.tensor (.tagged 0 1 1 batch), .tensor live]],
    [.list [.tensor batch, .tensor live]], .fresh rfl rfl,
    ⟨Pairing.alike_identity machine.heap, rfl⟩,
    .cons (.list (.cons (.tensor (.dropped rfl (matched batch)))
      (.cons (.tensor (matched live)) .nil))) .nil, fun interchanges => ?_⟩
  exact absurd interchanges.faults_eq (by decide +kernel)

end

end LayeredDispatch
