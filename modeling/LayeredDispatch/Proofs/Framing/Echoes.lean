import LayeredDispatch.Proofs.Dispatch.Scoping

/-! Two runs of a computation, one of which has further values below those of the call in progress and
may let calls nest deeper. Main statements: such runs go on side by side through sequences, guards and
trace nodes, and what the first one does the second one does, unless the first one is cut short.
-/

namespace LayeredDispatch

open Run

/-- The state with further values below those of the call in progress. -/
def Machine.onto (machine : Machine) (outer : List Value) : Machine :=
  { machine with values := outer ++ machine.values }

/-- How a run ends in which calls nest too deep, or some scope cannot be left after that. -/
inductive Exit.CutShort : Exit → Prop where
  | nested : CutShort (.fault .diverged)
  | unwinding : CutShort .abort

/-- An error is an end of its own and not one of being cut short. -/
theorem Exit.not_cutShort (error : DispatchError) : ¬(Exit.error error).CutShort := by
  intro cut
  cases cut

/-- What `body` does from `machine`, `other` does on top of `outer`, unless `body` is cut short. A value
comes with boxed values as `left` says.
-/
def Run.Echoes (outer : List Value) (body other : Run α) (machine : Machine)
    (left : α → List Value → Prop)
    : Prop :=
  body.Ends machine
    (fun value reached =>
      other (machine.onto outer) = .ok value (reached.onto outer) ∧ left value reached.values)
    (fun exit reached =>
      exit.CutShort ∨ other (machine.onto outer) = .error exit (reached.onto outer))

/-- The computation neither looks at the boxed values nor changes them. -/
def Run.Aloof (body : Run α) : Prop :=
  ∀ (machine : Machine) (values : List Value),
    body { machine with values } =
      match body machine with
      | .ok value reached => .ok value { reached with values }
      | .error exit reached => .error exit { reached with values }

namespace Run

variable {machine reached : Machine} {outer : List Value}

-----------------------------------------------------------------------------------------
-- Computations that leave the boxed values alone
-----------------------------------------------------------------------------------------

theorem aloof_pure (value : α) : Aloof (pure value) :=
  fun _ _ => rfl

theorem aloof_read {part : Machine → α}
    (same : ∀ machine values, part { machine with values } = part machine)
    : Aloof (read part) := by
  intro machine values
  rw [read_apply, read_apply, same]

theorem aloof_onThread (change : Thread → Thread) : Aloof (onThread change) :=
  fun _ _ => rfl

theorem aloof_onHeap (change : Heap → Heap) : Aloof (onHeap change) :=
  fun _ _ => rfl

theorem aloof_allocate (make : Heap → α × Heap) : Aloof (allocate make) :=
  fun _ _ => rfl

theorem aloof_lift (outcome : Outcome α) : Aloof (liftM outcome : Run α) := by
  intro machine values
  cases outcome <;> rfl

/-- A sequence of parts that are indifferent to the boxed values is indifferent to them, whichever
part ends
it: the first part may be run with the other values, and then the second one from where it has
ended.
-/
theorem Aloof.bind {first : Run α} {next : α → Run β} (head : Aloof first)
    (tail : ∀ value, Aloof (next value))
    : Aloof (first >>= next) := by
  intro machine values
  rw [bind_apply, bind_apply, head machine values]
  cases first machine with
  | ok value reached => exact tail value reached values
  | error exit reached => rfl

/-- Parts of kernels that read, log, draw, make and write on the heap are indifferent to the boxed
values.
Reading is, as far as what is read does not depend on them.
-/
theorem aloof_making : Making (fun _ => True) Aloof where
  pure := aloof_pure
  bind := Aloof.bind
  plain _ := trivial
  throw _ _ _ := rfl
  look := aloof_read
  log _ := aloof_onThread _
  setGenerator _ := aloof_onThread _
  onHeap _ := aloof_onHeap _
  allocate _ := aloof_allocate _

/-- The same of parts that change layers, overlay, modes and levels, and so of acquiring and
releasing guards.
-/
theorem aloof_layering : Layering (fun _ => True) Aloof where
  toLogging := aloof_making.toLogging
  misplaced _ _ := trivial
  onThread _ := aloof_onThread _
  removeLevel :=
    aloof_making.removeLevel (fun _ => aloof_onHeap _)
      (fun _ _ _ => rfl)

-----------------------------------------------------------------------------------------
-- Sequences
-----------------------------------------------------------------------------------------

/-- Of the boxed values that are left less may be said. -/
theorem Echoes.mono {body other : Run α} {left left' : α → List Value → Prop}
    (h : body.Echoes outer other machine left)
    (implies : ∀ value values, left value values → left' value values)
    : body.Echoes outer other machine left' :=
  Ends.mono h (fun _ _ given => ⟨given.1, implies _ _ given.2⟩) fun _ _ => id

/-- Only what the computations do from the two states counts. -/
theorem Echoes.congr {body body' other other' : Run α} {left : α → List Value → Prop}
    (same : body machine = body' machine)
    (same' : other (machine.onto outer) = other' (machine.onto outer))
    (h : body'.Echoes outer other' machine left)
    : body.Echoes outer other machine left := by
  unfold Echoes Ends at h ⊢
  rwa [same, same']

/-- Where both computations end with a value at once. -/
theorem Echoes.of_ok {body other : Run α} {left : α → List Value → Prop} {value : α}
    (ended : body machine = .ok value reached)
    (again : other (machine.onto outer) = .ok value (reached.onto outer))
    (given : left value reached.values)
    : body.Echoes outer other machine left := by
  unfold Echoes Ends
  rw [ended]
  exact ⟨again, given⟩

/-- A sequence is echoed if its parts are, the second one from wherever the first one has ended.
Where the first part is cut short, or ends without a value in the same way, so does the sequence.
-/
theorem Echoes.bind {first first' : Run α} {next next' : α → Run β}
    {mid : α → List Value → Prop} {left : β → List Value → Prop}
    (head : first.Echoes outer first' machine mid)
    (tail
      : ∀ value reached,
          mid value reached.values → (next value).Echoes outer (next' value) reached left)
    : (first >>= next).Echoes outer (first' >>= next') machine left := by
  unfold Echoes Ends at head ⊢
  rw [bind_apply, bind_apply]
  cases ended : first machine with
  | ok value reached =>
      rw [ended] at head
      have rest := tail value reached head.2
      unfold Echoes Ends at rest
      rwa [head.1]
  | error exit reached =>
      rw [ended] at head
      exact head.imp_right fun again => by rw [again]

/-- A sequence after a first part that gives a known value. -/
theorem Echoes.step {first first' : Run α} {next next' : α → Run β} {value : α}
    {left : β → List Value → Prop} (ended : first machine = .ok value reached)
    (again : first' (machine.onto outer) = .ok value (reached.onto outer))
    (tail : (next value).Echoes outer (next' value) reached left)
    : (first >>= next).Echoes outer (first' >>= next') machine left := by
  unfold Echoes Ends at tail ⊢
  rwa [bind_apply, bind_apply, ended, again]

/-- An end with a value is the same with other boxed values, which are kept.
With the values that there are nothing is changed, which gives the first part; with further ones
below
them, the second.
-/
theorem Aloof.of_ok {body : Run α} {value : α} (h : Aloof body)
    (ended : body machine = .ok value reached)
    : reached.values = machine.values
      ∧ body (machine.onto outer) = .ok value (reached.onto outer) := by
  have kept := h machine machine.values
  have moved := h machine (outer ++ machine.values)
  rw [ended] at kept moved
  have same : reached.values = machine.values := by
    injection kept with _ kept
    rw [kept]
  rw [Machine.onto, Machine.onto, same]
  exact ⟨rfl, moved⟩

/-- So is any other end. -/
theorem Aloof.of_error {body : Run α} {exit : Exit} (h : Aloof body)
    (ended : body machine = .error exit reached)
    : body (machine.onto outer) = .error exit (reached.onto outer) := by
  have kept := h machine machine.values
  have moved := h machine (outer ++ machine.values)
  rw [ended] at kept moved
  have same : reached.values = machine.values := by
    injection kept with _ kept
    rw [kept]
  rw [Machine.onto, Machine.onto, same]
  exact moved

/-- What is indifferent to the boxed values echoes itself on top of any further ones. -/
theorem Aloof.echoes {body : Run α} (h : Aloof body)
    : body.Echoes outer body machine fun _ values => values = machine.values := by
  unfold Echoes Ends
  split
  · rename_i ended
    exact (h.of_ok ended).symm
  · rename_i ended
    exact Or.inr (h.of_error ended)

/-- A first part that neither looks at the boxed values nor changes them. -/
theorem Aloof.echoes_bind {first : Run α} {next next' : α → Run β}
    {left : β → List Value → Prop} (head : Aloof first)
    (tail
      : ∀ value reached,
          reached.values = machine.values
          → (next value).Echoes outer (next' value) reached left)
    : (first >>= next).Echoes outer (first >>= next') machine left :=
  head.echoes.bind tail

/-- A choice is echoed by the same choice, if each way is where it is taken. -/
theorem Echoes.ite {condition : Prop} [Decidable condition] {first first' second second' : Run α}
    {left : α → List Value → Prop} (yes : condition → first.Echoes outer first' machine left)
    (no : ¬condition → second.Echoes outer second' machine left)
    : Run.Echoes outer (if condition then first else second)
        (if condition then first' else second') machine left := by
  split
  · exact yes ‹_›
  · exact no ‹_›

theorem echoes_pure {value : α} {left : α → List Value → Prop} (given : left value machine.values)
    : (pure value : Run α).Echoes outer (pure value) machine left :=
  ⟨rfl, given⟩

theorem echoes_fail (error : DispatchError) (left : α → List Value → Prop)
    : (fail error : Run α).Echoes outer (fail error) machine left :=
  Or.inr rfl

theorem echoes_fault (fault : Fault) (left : α → List Value → Prop)
    : (Run.fault fault : Run α).Echoes outer (Run.fault fault) machine left :=
  Or.inr rfl

/-- Visits one after another, each of which leaves the boxed values as they are.
Induction on what is visited, for every state that the visits before have reached.
-/
theorem Echoes.mapM {visit visit' : α → Run β} {items : List α}
    (each
      : ∀ item ∈ items, ∀ start : Machine,
          (visit item).Echoes outer (visit' item) start fun _ values => values = start.values)
    : (items.mapM visit).Echoes outer (items.mapM visit') machine
        fun results values => values = machine.values ∧ results.length = items.length := by
  induction items generalizing machine with
  | nil => exact echoes_pure ⟨rfl, rfl⟩
  | cons item items ih =>
      obtain ⟨head, tail⟩ := List.forall_mem_cons.mp each
      rw [List.mapM_cons, List.mapM_cons]
      refine (head machine).bind fun result reached same => ?_
      refine (ih tail).bind fun results final left => echoes_pure ⟨left.1.trans same, ?_⟩
      rw [List.length_cons, List.length_cons, left.2]

-----------------------------------------------------------------------------------------
-- Scopes
-----------------------------------------------------------------------------------------

/-- A body with a cleanup that is indifferent to the boxed values is echoed if the body is.
After a value, an error or a fault the cleanup does the same in both runs, on top of what each has
left; if
the body was cut short, so is the whole, whatever its cleanup does.
-/
theorem Echoes.ensuring {body other : Run α} {cleanup : Run Unit} {left : α → List Value → Prop}
    (h : body.Echoes outer other machine left) (aloof : Aloof cleanup)
    : (Run.ensuring body cleanup).Echoes outer (Run.ensuring other cleanup) machine left := by
  unfold Echoes Ends at h ⊢
  unfold Run.ensuring
  cases ended : body machine with
  | ok value reached =>
      rw [ended] at h
      cases cleaned : cleanup reached with
      | ok _ final =>
          obtain ⟨kept, again⟩ := @Aloof.of_ok reached final outer Unit cleanup _ aloof cleaned
          simp only [h.1, cleaned, again, kept, h.2, and_self]
      | error exit final =>
          have again := @Aloof.of_error reached final outer Unit cleanup exit aloof cleaned
          simp only [h.1, cleaned, again, or_true]
  | error exit reached =>
      rw [ended] at h
      cases exit with
      | abort => exact Or.inl .unwinding
      | error error =>
          have same := h.resolve_left (Exit.not_cutShort error)
          cases cleaned : cleanup reached with
          | ok _ final =>
              have again := (@Aloof.of_ok reached final outer Unit cleanup _ aloof cleaned).2
              simp only [same, cleaned, again, or_true]
          | error exit final =>
              have again := @Aloof.of_error reached final outer Unit cleanup exit aloof cleaned
              simp only [same, cleaned, again, or_true]
      | fault fault =>
          cases cleaned : cleanup reached with
          | error exit final =>
              simp only [cleaned]
              exact Or.inl .unwinding
          | ok _ final =>
              simp only [cleaned]
              refine h.imp_right fun same => ?_
              have again := (@Aloof.of_ok reached final outer Unit cleanup _ aloof cleaned).2
              simp only [same, again]

/-- A body under a guard is echoed if it is wherever the guard is held. Guards know nothing of boxed
values.
-/
theorem Echoes.holding {acquire : Run Guard} {body other : Run α} {left : α → List Value → Prop}
    (acquires : Aloof acquire) (releases : ∀ guard : Guard, Aloof guard.release)
    (inner
      : ∀ held,
          held.values = machine.values → body.Echoes outer other held left)
    : (Run.holding acquire body).Echoes outer (Run.holding acquire other) machine left :=
  acquires.echoes_bind fun guard held same => (inner held same).ensuring (releases guard)

/-- The same of a body inside a node of the trace. -/
theorem Echoes.traced {op : String} {capability : Capability} {body other : Run α}
    {left : α → List Value → Prop}
    (inner : ∀ held, held.values = machine.values → body.Echoes outer other held left)
    : (Run.traced op capability body).Echoes outer (Run.traced op capability other) machine left := by
  have opens : Aloof (openSpan op capability) := by
    refine (aloof_read fun _ _ => rfl).bind fun recorder? => ?_
    split
    · exact (aloof_onThread _).bind fun _ => aloof_pure _
    · exact aloof_pure _
  refine opens.echoes_bind fun opened held same => ?_
  exact .ite (fun _ => (inner held same).ensuring (aloof_onThread _)) fun _ => inner held same

/-- Values of a call's own are of no account to those around it.
Both runs start on the same values, with nothing below them; afterwards each puts back what it had,
the
second one with the further values still below.
-/
theorem Echoes.onValues {values : List Value} {body other : Run α}
    {left : α × List Value → List Value → Prop}
    (inner
      : body.Echoes [] other { machine with values } fun value results =>
          left (value, results) machine.values)
    : (Run.onValues values body).Echoes outer (Run.onValues values other) machine left := by
  unfold Echoes Ends at inner ⊢
  rw [onValues_apply, onValues_apply]
  have start : { machine.onto outer with values } = Machine.onto { machine with values } [] := rfl
  rw [start]
  simp only [Run.ensuring, bind_apply]
  cases ended : body { machine with values } with
  | ok value reached =>
      rw [ended] at inner
      simp only [inner.1]
      exact ⟨rfl, inner.2⟩
  | error exit reached =>
      rw [ended] at inner
      cases exit with
      | abort => exact Or.inl .unwinding
      | error error =>
          have same := inner.resolve_left (Exit.not_cutShort error)
          simp only [same]
          exact Or.inr rfl
      | fault fault =>
          refine inner.imp id fun same => ?_
          simp only [same]
          rfl

end Run
end LayeredDispatch
