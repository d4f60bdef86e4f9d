import LayeredDispatch.Proofs.Dispatch.Leaves

/-! Two computations side by side, each on a state of its own. What holds of both ends is put together
from what holds of their parts; a part that only one of them has is gone through alone. Main
statements: the conditions of two sequences, and of two bodies under the guards of a call, follow from
those of their parts.
-/

namespace LayeredDispatch

/-- A state that is handed back, with the switches as they were. -/
structure Machine.Returns (start reached : Machine) : Prop extends start.Resumes reached where
  settings : reached.settings = start.settings

namespace Machine.Returns

variable {start middle reached : Machine}

theorem refl (machine : Machine) : machine.Returns machine :=
  ⟨.refl machine, rfl⟩

theorem trans (first : start.Returns middle) (second : middle.Returns reached)
    : start.Returns reached :=
  ⟨first.toResumes.trans second.toResumes, second.settings.trans first.settings⟩

/-- Values, heap cells, log and generator are of no account. -/
theorem of_eq (settings : reached.settings = start.settings)
    (ambient : reached.ambient = start.ambient)
    (recorder : reached.thread.recorder = start.thread.recorder)
    (registry : reached.registry = start.registry)
    (flags : reached.heap.flags = start.heap.flags)
    : start.Returns reached :=
  ⟨.of_eq ambient recorder registry flags, settings⟩

/-- Boxed values may be replaced. -/
theorem put (machine : Machine) (values : List Value)
    : machine.Returns { machine with values := values } :=
  .of_eq rfl rfl rfl rfl rfl

end Machine.Returns

namespace Run

/-- From `machine` and `twin` the two computations end alike and hand both states back. If the first
one gives a value, so does the other one, with boxed values and memories as `ok` says. If the first
one ends otherwise and `strict` holds, the other one ends as `failed` says.
-/
def Beside (strict : Prop) (body : Run α) (other : Run β) (machine twin : Machine)
    (ok : α → List Value → Memory → β → List Value → Memory → Prop) (failed : Exit → Exit → Prop)
    : Prop :=
  match body machine with
  | .ok value reached =>
      ∃ value' reached',
        other twin = .ok value' reached'
        ∧ machine.Returns reached
        ∧ twin.Returns reached'
        ∧ ok value reached.values reached.memory value' reached'.values reached'.memory
  | .error exit reached =>
      strict
      → ∃ exit' reached',
          other twin = .error exit' reached'
          ∧ (exit.Orderly ∧ machine.Resumes reached)
          ∧ (exit'.Orderly ∧ twin.Resumes reached')
          ∧ failed exit exit'

section

variable {strict : Prop} {machine twin held reached : Machine} {body : Run α} {other : Run β}
  {ok ok' : α → List Value → Memory → β → List Value → Memory → Prop}
  {failed failed' : Exit → Exit → Prop}

-----------------------------------------------------------------------------------------
-- How two computations end
-----------------------------------------------------------------------------------------

/-- Where the first computation gives a value, so does the other one, and both states are handed
back.
-/
theorem Beside.of_ok {value : α} (h : Beside strict body other machine twin ok failed)
    (ended : body machine = .ok value reached)
    : ∃ value' reached',
        other twin = .ok value' reached'
        ∧ machine.Returns reached
        ∧ twin.Returns reached'
        ∧ ok value reached.values reached.memory value' reached'.values reached'.memory := by
  unfold Beside at h
  rwa [ended] at h

theorem Beside.of_error {exit : Exit} (h : Beside strict body other machine twin ok failed)
    (ended : body machine = .error exit reached) (asked : strict)
    : ∃ exit' reached', other twin = .error exit' reached' ∧ failed exit exit' := by
  unfold Beside at h
  rw [ended] at h
  rcases h asked with ⟨exit', reached', ended', -, -, failed⟩
  exact ⟨exit', reached', ended', failed⟩

/-- What is said of both ends may be weakened. -/
theorem Beside.mono (h : Beside strict body other machine twin ok failed)
    (hok
      : ∀ value values memory value' values' memory',
          ok value values memory value' values' memory'
          → ok' value values memory value' values' memory')
    (hfailed : ∀ exit exit', failed exit exit' → failed' exit exit')
    : Beside strict body other machine twin ok' failed' := by
  unfold Beside at h ⊢
  split
  · rename_i value reached ended
    rw [ended] at h
    rcases h with ⟨value', reached', ended', returns, returns', left⟩
    exact ⟨value', reached', ended', returns, returns', hok _ _ _ _ _ _ left⟩
  · rename_i exit reached ended
    rw [ended] at h
    intro asked
    rcases h asked with ⟨exit', reached', ended', orderly, orderly', failed⟩
    exact ⟨exit', reached', ended', orderly, orderly', hfailed _ _ failed⟩

/-- Ends without a value may be left out of account. -/
theorem Beside.lenient (h : Beside strict body other machine twin ok failed)
    : Beside False body other machine twin ok failed := by
  unfold Beside at h ⊢
  split
  · rename_i value reached ended
    rwa [ended] at h
  · exact False.elim

/-- Only what the two computations do from their states counts. -/
theorem Beside.congr {body' : Run α} {other' : Run β} (same : body machine = body' machine)
    (same' : other twin = other' twin) (h : Beside strict body' other' machine twin ok failed)
    : Beside strict body other machine twin ok failed := by
  unfold Beside at h ⊢
  rwa [same, same']

/-- The same with what is known of the first computation alone, by which the first of the two values
is described further.
-/
theorem Beside.and_left {known : α → List Value → Memory → Prop}
    {refused : Exit → Memory → Prop} (h : Beside strict body other machine twin ok failed)
    (left : body.Leaves machine known refused)
    : Beside strict body other machine twin
        (fun value values memory value' values' memory' =>
          ok value values memory value' values' memory' ∧ known value values memory)
        failed := by
  unfold Beside at h ⊢
  split
  · rename_i value reached ended
    rw [ended] at h
    rcases h with ⟨value', reached', ended', returns, returns', both⟩
    exact ⟨value', reached', ended', returns, returns', both, (Ends.of_ok left ended).2⟩
  · rename_i exit reached ended
    rwa [ended] at h

/-- Where every end counts, the two computations may change places. Otherwise they may not, as
nothing is known of the other one where the first one ends without a value.
-/
theorem Beside.symm (h : Beside True body other machine twin ok failed)
    : Beside True other body twin machine
        (fun value values memory value' values' memory' =>
          ok value' values' memory' value values memory)
        (fun exit exit' => failed exit' exit) := by
  unfold Beside at *
  cases ended : body machine with
  | ok value reached =>
      rw [ended] at h
      rcases h with ⟨value', reached', ended', returns, returns', left⟩
      rw [ended']
      exact ⟨value, reached, rfl, returns', returns, left⟩
  | error exit reached =>
      rw [ended] at h
      rcases h trivial with ⟨exit', reached', ended', orderly, orderly', left⟩
      rw [ended']
      exact fun _ => ⟨exit, reached, rfl, orderly', orderly, left⟩

/-- Two computations that end where they start, without a value. -/
theorem Beside.ended {exit exit' : Exit} (ended : body machine = .error exit machine)
    (ended' : other twin = .error exit' twin) (orderly : exit.Orderly) (orderly' : exit'.Orderly)
    (left : failed exit exit')
    : Beside strict body other machine twin ok failed := by
  unfold Beside
  rw [ended]
  exact fun _ =>
    ⟨exit', twin, ended', ⟨orderly, .refl machine⟩, ⟨orderly', .refl twin⟩, left⟩

/-- Only where the first computation gives a value something is asked for. -/
theorem Beside.of_lenient (lenient : ¬strict)
    (given
      : ∀ value reached,
          body machine = .ok value reached
          → ∃ value' reached',
              other twin = .ok value' reached'
              ∧ machine.Returns reached
              ∧ twin.Returns reached'
              ∧ ok value reached.values reached.memory value' reached'.values reached'.memory)
    : Beside strict body other machine twin ok failed := by
  unfold Beside
  split
  · rename_i value reached ended
    exact given value reached ended
  · exact fun strictly => absurd strictly lenient

theorem beside_pure {value : α} {value' : β}
    (left : ok value machine.values machine.memory value' twin.values twin.memory)
    : Beside strict (pure value : Run α) (pure value' : Run β) machine twin ok failed :=
  ⟨value', twin, rfl, .refl machine, .refl twin, left⟩

theorem beside_fail {error error' : DispatchError} (left : failed (.error error) (.error error'))
    : Beside strict (fail error : Run α) (fail error' : Run β) machine twin ok failed :=
  .ended rfl rfl trivial trivial left

theorem beside_fault {fault fault' : Fault} (orderly : (Exit.fault fault).Orderly)
    (orderly' : (Exit.fault fault').Orderly) (left : failed (.fault fault) (.fault fault'))
    : Beside strict (Run.fault fault : Run α) (Run.fault fault' : Run β) machine twin ok failed :=
  .ended rfl rfl orderly orderly' left

/-- Two computations that are both known to give a value. -/
theorem Beside.of_values {value : α} {value' : β} {reached' : Machine}
    (ended : body machine = .ok value reached) (ended' : other twin = .ok value' reached')
    (returns : machine.Returns reached) (returns' : twin.Returns reached')
    (left
      : ok value reached.values reached.memory value' reached'.values reached'.memory)
    : Beside strict body other machine twin ok failed := by
  unfold Beside
  rw [ended]
  exact ⟨value', reached', ended', returns, returns', left⟩

-----------------------------------------------------------------------------------------
-- Sequences
-----------------------------------------------------------------------------------------

/-- A part that the first computation has alone, and that gives a value. The other one waits for it.
-/
theorem Beside.step_left {first : Run γ} {next : γ → Run α} {value : γ}
    (returns : machine.Returns reached) (ended : first machine = .ok value reached)
    (tail : Beside strict (next value) other reached twin ok failed)
    : Beside strict (first >>= next) other machine twin ok failed := by
  have same : (first >>= next) machine = next value reached := by rw [bind_apply, ended]
  unfold Beside at tail ⊢
  rw [same]
  split
  · rename_i final last
    rw [last] at tail
    rcases tail with ⟨value', reached', ended', later, returns', left⟩
    exact ⟨value', reached', ended', returns.trans later, returns', left⟩
  · rename_i exit final last
    rw [last] at tail
    intro asked
    rcases tail asked with ⟨exit', reached', ended', ⟨orderly, later⟩, orderly', left⟩
    exact ⟨exit', reached', ended', ⟨orderly, returns.toResumes.trans later⟩, orderly', left⟩

/-- A part that the other computation has alone, and that gives a value. -/
theorem Beside.step_right {first : Run γ} {next : γ → Run β} {value : γ} {reached : Machine}
    (returns : twin.Returns reached) (ended : first twin = .ok value reached)
    (tail : Beside strict body (next value) machine reached ok failed)
    : Beside strict body (first >>= next) machine twin ok failed := by
  have same : (first >>= next) twin = next value reached := by rw [bind_apply, ended]
  unfold Beside at tail ⊢
  split
  · rename_i final last
    rw [last] at tail
    rcases tail with ⟨value', reached', ended', returns', later, left⟩
    exact ⟨value', reached', same.trans ended', returns', returns.trans later, left⟩
  · rename_i exit final last
    rw [last] at tail
    intro asked
    rcases tail asked with ⟨exit', reached', ended', orderly, ⟨orderly', later⟩, left⟩
    exact ⟨exit', reached', same.trans ended', orderly,
      ⟨orderly', returns.toResumes.trans later⟩, left⟩

/-- Parts beside each other make sequences beside each other. The first parts end alike, so that
either both sequences go on or neither does.
-/
theorem Beside.bind {first : Run γ} {first' : Run δ} {next : γ → Run α} {next' : δ → Run β}
    {mid : γ → List Value → Memory → δ → List Value → Memory → Prop}
    (head : Beside strict first first' machine twin mid failed)
    (tail
      : ∀ value reached value' reached',
          first machine = .ok value reached
          → first' twin = .ok value' reached'
          → machine.Returns reached
          → twin.Returns reached'
          → mid value reached.values reached.memory value' reached'.values reached'.memory
          → Beside strict (next value) (next' value') reached reached' ok failed)
    : Beside strict (first >>= next) (first' >>= next') machine twin ok failed := by
  cases started : first machine with
  | ok value reached =>
      obtain ⟨value', reached', started', returns, returns', left⟩ := head.of_ok started
      refine .step_left returns started (.step_right returns' started' ?_)
      exact tail value reached value' reached' started started' returns returns' left
  | error exit reached =>
      unfold Beside at head ⊢
      rw [started] at head
      rw [bind_apply, started]
      intro asked
      rcases head asked with ⟨exit', reached', started', orderly, orderly', left⟩
      exact ⟨exit', reached', by rw [bind_apply, started'], orderly, orderly', left⟩

/-- The same part of both computations, which leaves both states as they are. -/
theorem Beside.step {first : Run γ} {first' : Run δ} {next : γ → Run α} {next' : δ → Run β}
    {value : γ} {value' : δ} (ended : first machine = .ok value machine)
    (ended' : first' twin = .ok value' twin)
    (tail : Beside strict (next value) (next' value') machine twin ok failed)
    : Beside strict (first >>= next) (first' >>= next') machine twin ok failed :=
  .step_left (.refl machine) ended (.step_right (.refl twin) ended' tail)

/-- Both computations take the last values away. -/
theorem Beside.pop {count count' : Nat} {outer outer' arguments arguments' : List Value}
    {next : List Value → Run α} {next' : List Value → Run β}
    (values : machine.values = outer ++ arguments) (values' : twin.values = outer' ++ arguments')
    (size : arguments.length = count) (size' : arguments'.length = count')
    (tail
      : Beside strict (next arguments) (next' arguments') { machine with values := outer }
          { twin with values := outer' } ok failed)
    : Beside strict (Run.pop count >>= next) (Run.pop count' >>= next') machine twin ok failed := by
  have popped := pop_append values
  have popped' := pop_append values'
  rw [size] at popped
  rw [size'] at popped'
  exact .step_left (.put machine outer) popped (.step_right (.put twin outer') popped' tail)

/-- Both computations put values on top. -/
theorem Beside.pushAll {given given' : List Value} {next : Run α} {next' : Run β}
    (tail
      : Beside strict next next' { machine with values := machine.values ++ given }
          { twin with values := twin.values ++ given' } ok failed)
    : Beside strict (Run.pushAll given >>= fun _ => next) (Run.pushAll given' >>= fun _ => next')
        machine twin ok failed :=
  .step_left (.put machine _) rfl (.step_right (.put twin _) rfl tail)

/-- Two computations that are both known to end without a value. -/
theorem Beside.of_errors {left right : Exit → Memory → Prop}
    (h : body.Leaves machine (fun _ _ _ => False) left)
    (h' : other.Leaves twin (fun _ _ _ => False) right)
    (refused
      : ∀ exit memory exit' memory', left exit memory → right exit' memory' → failed exit exit')
    : Beside strict body other machine twin ok failed := by
  unfold Beside
  cases ended : body machine with
  | ok value reached => exact (Ends.of_ok h ended).2.elim
  | error exit reached =>
      obtain ⟨orderly, resumes, left⟩ := Ends.of_error h ended
      cases ended' : other twin with
      | ok value' reached' => exact (Ends.of_ok h' ended').2.elim
      | error exit' reached' =>
          obtain ⟨orderly', resumes', left'⟩ := Ends.of_error h' ended'
          exact fun _ => ⟨exit', reached', rfl, ⟨orderly, resumes⟩, ⟨orderly', resumes'⟩,
            refused _ _ _ _ left left'⟩

-----------------------------------------------------------------------------------------
-- Scopes
-----------------------------------------------------------------------------------------

/-- A computation that gives a value leaves the switches alone. -/
def Settles (body : Run α) : Prop :=
  ∀ machine value reached, body machine = .ok value reached → reached.settings = machine.settings

theorem Settles.bind {first : Run α} {next : α → Run β} (head : Settles first)
    (tail : ∀ value, Settles (next value))
    : Settles (first >>= next) := by
  intro machine value reached ended
  obtain ⟨between, middle, started, ended⟩ := bind_ok ended
  exact (tail between middle value reached ended).trans (head machine between middle started)

theorem settles_pure (value : α) : Settles (pure value : Run α) := by
  intro machine given reached ended
  cases ended
  rfl

theorem settles_read (part : Machine → α) : Settles (read part) := by
  intro machine value reached ended
  cases ended
  rfl

theorem settles_onThread (change : Thread → Thread) : Settles (onThread change) := by
  intro machine value reached ended
  cases ended
  rfl

/-- Everything that looks at the state and logs leaves the switches alone. -/
theorem settles_logging : Logging (fun _ => True) Settles where
  pure := settles_pure
  bind := Settles.bind
  plain _ := trivial
  throw _ _ _ _ ended := by cases ended
  look _ := settles_read _
  log _ := settles_onThread _

/-- So does every change of layers, releases of guards included. -/
theorem settles_layering : Layering (fun _ => True) Settles where
  toLogging := settles_logging
  misplaced _ _ := trivial
  onThread _ := settles_onThread _
  removeLevel :=
    settles_logging.removeLevel (fun _ _ _ _ ended => by cases ended; rfl)
      fun _ _ _ _ ended => by cases ended; rfl

theorem ensuring_ok {cleanup : Run Unit} {value : α} {final : Machine}
    (ended : body held = .ok value reached) (cleaned : cleanup reached = .ok () final)
    : Run.ensuring body cleanup held = .ok value final := by
  unfold Run.ensuring
  simp only [ended, cleaned]

/-- A body that ends in order without a value does so with its cleanup, for the same reason. Only
after an abort there is no cleanup.
-/
theorem ensuring_error {cleanup : Run Unit} {exit : Exit} {final : Machine}
    (ended : body held = .error exit reached) (orderly : exit.Orderly)
    (cleaned : cleanup reached = .ok () final)
    : Run.ensuring body cleanup held = .error exit final := by
  unfold Run.ensuring
  cases exit with
  | error error => simp only [ended, cleaned]
  | fault fault => simp only [ended, cleaned]
  | abort => exact absurd orderly id

/-- A body that ends without a value does so with its cleanup, whatever that does. -/
theorem ensuring_fails {cleanup : Run Unit} {exit : Exit} (ended : body held = .error exit reached)
    : ∃ exit' final, Run.ensuring body cleanup held = .error exit' final := by
  unfold Run.ensuring
  cases exit with
  | error error =>
      simp only [ended]
      cases cleanup reached <;> exact ⟨_, _, rfl⟩
  | fault fault =>
      simp only [ended]
      cases cleanup reached <;> exact ⟨_, _, rfl⟩
  | abort => exact ⟨.abort, reached, by simp only [ended]⟩

/-- The first computation has a cleanup that mends what its body hands back. The cleanup keeps the
memory, and brings the boxed values into the form in which they are described.
-/
theorem Beside.ensuring_left {after : List Value → List Value} {cleanup : Run Unit}
    {outer : Run α} (mends : Mends machine held after cleanup) (settles : Settles cleanup)
    (settings : held.settings = machine.settings)
    (started : outer machine = Run.ensuring body cleanup held)
    (h : Beside strict body other held twin (fun value values => ok value (after values)) failed)
    : Beside strict outer other machine twin ok failed := by
  unfold Beside at h ⊢
  rw [started]
  cases ended : body held with
  | ok value reached =>
      rw [ended] at h
      rcases h with ⟨value', reached', ended', returns, returns', left⟩
      obtain ⟨final, cleaned, resumes, values, heap, generator⟩ := mends reached returns.toResumes
      have memory : final.memory = reached.memory := by
        rw [Machine.memory, heap, generator]
        rfl
      rw [ensuring_ok ended cleaned]
      refine ⟨value', reached', ended', ⟨resumes, ?_⟩, returns', ?_⟩
      · exact (settles _ _ _ cleaned).trans (returns.settings.trans settings)
      · rw [values, memory]
        exact left
  | error exit reached =>
      rw [ended] at h
      by_cases asked : strict
      · rcases h asked with ⟨exit', reached', ended', ⟨orderly, resumed⟩, orderly', left⟩
        obtain ⟨final, cleaned, resumes, -⟩ := mends reached resumed
        rw [ensuring_error ended orderly cleaned]
        exact fun _ => ⟨exit', reached', ended', ⟨orderly, resumes⟩, orderly', left⟩
      · have fails : ∃ exit' final, Run.ensuring body cleanup held = .error exit' final :=
          ensuring_fails ended
        obtain ⟨exit', final, ends⟩ := fails
        rw [ends]
        exact fun strictly => absurd strictly asked

/-- The other computation has such a cleanup. -/
theorem Beside.ensuring_right {held : Machine} {after : List Value → List Value}
    {cleanup : Run Unit} {outer : Run β} (mends : Mends twin held after cleanup)
    (settles : Settles cleanup) (settings : held.settings = twin.settings)
    (started : outer twin = Run.ensuring other cleanup held)
    (h
      : Beside strict body other machine held
          (fun value values memory value' values' => ok value values memory value' (after values'))
          failed)
    : Beside strict body outer machine twin ok failed := by
  unfold Beside at h ⊢
  rw [started]
  cases ended : body machine with
  | ok value reached =>
      rw [ended] at h
      rcases h with ⟨value', reached', ended', returns, returns', left⟩
      obtain ⟨final, cleaned, resumes, values, heap, generator⟩ :=
        mends reached' returns'.toResumes
      have memory : final.memory = reached'.memory := by
        rw [Machine.memory, heap, generator]
        rfl
      refine ⟨value', final, ensuring_ok ended' cleaned, returns, ⟨resumes, ?_⟩, ?_⟩
      · exact (settles _ _ _ cleaned).trans (returns'.settings.trans settings)
      · rw [values, memory]
        exact left
  | error exit reached =>
      rw [ended] at h
      intro asked
      rcases h asked with ⟨exit', reached', ended', orderly, ⟨orderly', resumed⟩, left⟩
      obtain ⟨final, cleaned, resumes, -⟩ := mends reached' resumed
      exact ⟨exit', final, ensuring_error ended' orderly' cleaned, orderly, ⟨orderly', resumes⟩,
        left⟩

/-- The first computation runs under a guard, whose release mends what the body hands back. -/
theorem Beside.holding_left {acquire : Run Guard} {ambient : Ambient}
    (moves : Moves acquire machine ambient)
    (inner
      : ∀ held,
          machine.Shifted ambient held → Beside strict body other held twin ok failed)
    : Beside strict (Run.holding acquire body) other machine twin ok failed := by
  obtain ⟨guard, held, acquired, shifted, mends⟩ := moves
  refine Beside.ensuring_left mends (settles_layering.release guard) shifted.settings ?_
    (inner held shifted)
  unfold Run.holding
  rw [bind_apply, acquired]

/-- The other computation runs under a guard. -/
theorem Beside.holding_right {acquire : Run Guard} {ambient : Ambient}
    (moves : Moves acquire twin ambient)
    (inner
      : ∀ held,
          twin.Shifted ambient held → Beside strict body other machine held ok failed)
    : Beside strict body (Run.holding acquire other) machine twin ok failed := by
  obtain ⟨guard, held, acquired, shifted, mends⟩ := moves
  refine Beside.ensuring_right mends (settles_layering.release guard) shifted.settings ?_
    (inner held shifted)
  unfold Run.holding
  rw [bind_apply, acquired]

theorem Beside.holdingIf_left {condition : Bool} {acquire : Run Guard} {ambient : Ambient}
    (moves : Moves acquire machine ambient)
    (inner
      : ∀ held,
          machine.Shifted (if condition then ambient else machine.ambient) held
          → Beside strict body other held twin ok failed)
    : Beside strict (Run.holdingIf condition acquire body) other machine twin ok failed := by
  cases condition with
  | true => exact .holding_left moves inner
  | false => exact inner machine (.refl machine)

theorem Beside.holdingIf_right {condition : Bool} {acquire : Run Guard} {ambient : Ambient}
    (moves : Moves acquire twin ambient)
    (inner
      : ∀ held,
          twin.Shifted (if condition then ambient else twin.ambient) held
          → Beside strict body other machine held ok failed)
    : Beside strict body (Run.holdingIf condition acquire other) machine twin ok failed := by
  cases condition with
  | true => exact .holding_right moves inner
  | false => exact inner twin (.refl twin)

theorem settles_closeSpan : Settles closeSpan :=
  settles_onThread _

/-- The first computation runs in a trace node of its own, which is closed whichever way it ends.
-/
theorem Beside.traced_left {op : String} {capability : Capability}
    (inner : Beside strict body other (machine.inSpan op capability) twin ok failed)
    : Beside strict (Run.traced op capability body) other machine twin ok failed := by
  cases recording : machine.thread.recorder with
  | none =>
      have unopened := inSpan_of_unrecorded recording op capability
      have unfolded : Run.traced op capability body machine = body machine := by
        simp [traced_apply, recording, unopened]
      rw [unopened] at inner
      unfold Beside at inner ⊢
      rwa [unfolded]
  | some recorder =>
      exact Beside.ensuring_left (mends_closeSpan recording op capability) settles_closeSpan rfl
        (by simp [traced_apply, recording]) inner

/-- The other computation runs in a trace node of its own. -/
theorem Beside.traced_right {op : String} {capability : Capability}
    (inner : Beside strict body other machine (twin.inSpan op capability) ok failed)
    : Beside strict body (Run.traced op capability other) machine twin ok failed := by
  cases recording : twin.thread.recorder with
  | none =>
      have unopened := inSpan_of_unrecorded recording op capability
      have unfolded : Run.traced op capability other twin = other twin := by
        simp [traced_apply, recording, unopened]
      rw [unopened] at inner
      unfold Beside at inner ⊢
      rwa [unfolded]
  | some recorder =>
      exact Beside.ensuring_right (mends_closeSpan recording op capability) settles_closeSpan rfl
        (by simp [traced_apply, recording]) inner

theorem settles_putBack (values : List Value)
    : Settles (modify fun machine => { machine with values } : Run PUnit) := by
  intro machine value reached ended
  cases ended
  rfl

/-- Values of calls' own are of no account to the states around them: the values from before are put
back, and the results taken off.
-/
theorem Beside.onValues {values values' : List Value}
    {ok : α × List Value → List Value → Memory → β × List Value → List Value → Memory → Prop}
    (inner
      : Beside strict body other { machine with values := values } { twin with values := values' }
          (fun value left memory value' left' memory' =>
            ok (value, left) machine.values memory (value', left') twin.values memory')
          failed)
    : Beside strict (Run.onValues values body) (Run.onValues values' other) machine twin ok
        failed := by
  refine .ensuring_left (mends_onValues values machine) (settles_putBack _) rfl
    (onValues_apply values body machine) ?_
  refine .ensuring_right (mends_onValues values' twin) (settles_putBack _) rfl
    (onValues_apply values' other twin) ?_
  refine inner.bind ?_
  intro value reached value' reached' _ _ _ _ left
  exact .step rfl rfl (beside_pure left)

/-- An event is noted at most, which counts for nothing but the log. -/
theorem logDispatch_noted (event : Event) (machine : Machine)
    : ∃ final,
        logDispatch event machine = .ok () final
        ∧ machine.Returns final
        ∧ final.values = machine.values
        ∧ final.memory = machine.memory := by
  obtain ⟨log, noted⟩ := logDispatch_apply event machine
  exact ⟨_, noted, .of_eq rfl rfl rfl rfl rfl, rfl, rfl⟩

/-- Coming back from the base is noted at most. -/
theorem reentering_apply (op : String) (machine : Machine)
    : ∃ final,
        (do if (← layerCount) = 0 then logDispatch (.reentering op) : Run Unit) machine
          = .ok () final
        ∧ machine.Returns final
        ∧ final.values = machine.values
        ∧ final.memory = machine.memory := by
  rw [bind_apply]
  change ∃ final,
    (if machine.thread.layers.length = 0 then logDispatch (.reentering op) else pure () : Run Unit)
        machine
      = .ok () final
    ∧ _
  split
  · exact logDispatch_noted (.reentering op) machine
  · exact ⟨machine, rfl, .refl machine, rfl, rfl⟩

/-- Calls that go on below the top layers, which are the same layer, once both may leave it. Each of
the two pops its layer, looks for the overlay below, and puts the layer back when the call has
ended.
-/
theorem Beside.below {layer : Layer} {below : List Layer} {calls : Calls} {op op' : Schema}
    {ok : Unit → List Value → Memory → Unit → List Value → Memory → Prop} {passed : Prop}
    (top : machine.thread.layers = layer :: below) (top' : twin.thread.layers = layer :: below)
    (level : layer.level = below.length + 1)
    (leaves
      : ∀ start start' : Machine,
          start.thread.layers = below
          → start'.thread.layers = below
          → start.values = machine.values
          → start'.values = twin.values
          → start.memory = machine.memory
          → start'.memory = twin.memory
          → start.settings = machine.settings
          → start'.settings = twin.settings
          → Beside strict (overlayBelow op layer) (overlayBelow op' layer) start start'
              (fun _ _ _ _ _ _ => passed) failed)
    (inner
      : ∀ held held' : Machine,
          machine.Shifted (machine.ambient.leave layer below) held
          → twin.Shifted (twin.ambient.leave layer below) held'
          → passed
          → Beside strict (calls.dispatch op) (calls.dispatch op') held held' ok failed)
    : Beside strict (dispatchBelow calls op layer) (dispatchBelow calls op' layer) machine twin ok
        failed := by
  have emptied {start popped gradSet reached : Machine}
      (atPopped
        : start.Shifted
            { start.ambient with
              layers := below
              overlay :=
                if below.isEmpty then start.thread.overlay.setInterception false
                else start.thread.overlay } popped)
      (atGradSet
        : popped.Shifted
            (if decide (layer.transform.priorGrad? = some false) then
              { popped.ambient with grad := false }
            else popped.ambient) gradSet)
      (atReached
        : gradSet.Shifted
            (if decide (layer.transform.priorForwardGrad? = some false) then
              { gradSet.ambient with forwardGrad := false }
            else gradSet.ambient) reached)
      : reached.thread.layers = below := by
    have atPopped := congrArg Ambient.layers atPopped.ambient
    have atGradSet := congrArg Ambient.layers atGradSet.ambient
    have atReached := congrArg Ambient.layers atReached.ambient
    simp only [apply_ite Ambient.layers, ite_self] at atPopped atGradSet atReached
    exact atReached.trans (atGradSet.trans atPopped)
  refine .holding_left (moves_hideTop top level) fun popped atPopped => ?_
  refine .holding_right (moves_hideTop top' level) fun popped' atPopped' => ?_
  refine .holdingIf_left (moves_gradMode false popped) fun gradSet atGradSet => ?_
  refine .holdingIf_right (moves_gradMode false popped') fun gradSet' atGradSet' => ?_
  refine .holdingIf_left (moves_forwardGradMode false gradSet) fun start atStart => ?_
  refine .holdingIf_right (moves_forwardGradMode false gradSet') fun start' atStart' => ?_
  have moved := atPopped.trans (atGradSet.trans atStart)
  have moved' := atPopped'.trans (atGradSet'.trans atStart')
  refine (leaves start start' (emptied atPopped atGradSet atStart)
    (emptied atPopped' atGradSet' atStart') moved.values moved'.values moved.memory moved'.memory
    moved.settings moved'.settings).bind ?_
  intro overlay checked overlay' checked' ran ran' _ _ passed
  refine .holding_left (moves_replaceOverlay overlay checked) fun held atHeld => ?_
  refine .holding_right (moves_replaceOverlay overlay' checked') fun held' atHeld' => ?_
  refine (inner held held' (shifted_leave atPopped atGradSet atStart ran atHeld)
    (shifted_leave atPopped' atGradSet' atStart' ran' atHeld') passed).bind ?_
  intro _ reached _ reached' _ _ _ _ left
  obtain ⟨final, noted, returns, values, memory⟩ := reentering_apply op.name reached
  obtain ⟨final', noted', returns', values', memory'⟩ := reentering_apply op'.name reached'
  refine .of_values noted noted' returns returns' ?_
  rw [values, memory, values', memory']
  exact left

end

end Run
end LayeredDispatch
