import LayeredDispatch.Proofs.Nesting.Termination

/-! The boxed calling convention. Main statement: under a built stack, to dispatch an operator whose
arguments are the last boxed values does what a call on these arguments alone does; the values below
stay as they are, whatever they are and however the call ends.
-/

namespace LayeredDispatch

open Run Dispatcher

section

variable {machine : Machine} {op : Schema} {arguments : List Value}

/-- The base operators are registered under their own names. -/
theorem Dispatcher.schema?_of_mem (member : op ∈ Base.schemas)
    : standard.schema? op.name = some op := by
  simp only [Base.schemas, List.mem_cons, List.not_mem_nil, or_false] at member
  rcases member with rfl | rfl | rfl | rfl | rfl | rfl | rfl | rfl | rfl | rfl <;> rfl

-----------------------------------------------------------------------------------------
-- Calls and what they dispatch
-----------------------------------------------------------------------------------------

/-- What a body leaves of its own values comes with its value; those around it are put back. -/
theorem Run.onValues_of_ok {body : Run α} {value : α}
    (ended : body { machine with values } = .ok value reached)
    : Run.onValues values body machine
      = .ok (value, reached.values) { reached with values := machine.values } := by
  rw [onValues_apply, Run.ensuring, bind_apply, ended]
  rfl

/-- Where a body ends without a value, the values around it are put back as well. Only an abort
would leave
them, and it is not an orderly end.
-/
theorem Run.onValues_of_error {body : Run α} {exit : Exit} (orderly : exit.Orderly)
    (ended : body { machine with values } = .error exit reached)
    : Run.onValues values body machine = .error exit { reached with values := machine.values } := by
  rw [onValues_apply, Run.ensuring, bind_apply, ended]
  cases exit with
  | abort => exact orderly.elim
  | error error => rfl
  | fault fault => rfl

/-- A call of a registered operator dispatches it on values of its own.
Its name is known and the number of its arguments is right, so nothing is refused before.
-/
theorem Calls.call_of_found {calls : Calls} (found : calls.schema? op.name = some op)
    (size : arguments.length = op.arity)
    : calls.call op.name arguments
      = (do return (← Run.onValues arguments (calls.dispatch op)).2) := by
  have required : calls.require op.name = .ok op := by
    rw [Calls.require, found]
  rw [Calls.call, required]
  exact if_pos size

/-- Where dispatching an operator on its arguments alone ends with values, these are the results of
the call.
-/
theorem Dispatcher.call_of_ok (member : op ∈ Base.schemas) (size : arguments.length = op.arity)
    (ended : standard.dispatch op { machine with values := arguments } = .ok () reached)
    : standard.call op.name arguments machine
      = .ok reached.values { reached with values := machine.values } := by
  let calls := nested (standard.budget machine.thread.layers.length)
  have dispatched : calls.dispatch op { machine with values := arguments } = .ok () reached := ended
  have called : calls.call op.name arguments machine
      = .ok reached.values { reached with values := machine.values } := by
    rw [Calls.call_of_found (schema?_of_mem member) size, bind_apply, onValues_of_ok dispatched]
    rfl
  exact called

/-- Where it ends otherwise, so does the call, in the same state. -/
theorem Dispatcher.call_of_error {exit : Exit} (member : op ∈ Base.schemas)
    (size : arguments.length = op.arity) (orderly : exit.Orderly)
    (ended : standard.dispatch op { machine with values := arguments } = .error exit reached)
    : standard.call op.name arguments machine
      = .error exit { reached with values := machine.values } := by
  let calls := nested (standard.budget machine.thread.layers.length)
  have dispatched : calls.dispatch op { machine with values := arguments } = .error exit reached :=
    ended
  have called : calls.call op.name arguments machine
      = .error exit { reached with values := machine.values } := by
    rw [Calls.call_of_found (schema?_of_mem member) size, bind_apply,
      onValues_of_error orderly dispatched]
  exact called

/-- What to dispatch an operator on its arguments alone does, it does on top of any values.
The run on the arguments alone is not cut short under a built stack, since its budget is enough.
-/
theorem Dispatcher.dispatch_echoes (built : machine.Built) (member : op ∈ Base.schemas)
    (size : arguments.length = op.arity) (outer : List Value)
    : (standard.dispatch op).Ends { machine with values := arguments }
        (fun _ reached =>
          ∃ result,
            reached.values = [.tensor result]
            ∧ standard.dispatch op { machine with values := outer ++ arguments }
              = .ok () { reached with values := outer ++ [.tensor result] })
        (fun exit reached =>
          exit.Orderly
          ∧ standard.dispatch op { machine with values := outer ++ arguments }
            = .error exit { reached with values := outer ++ reached.values }) := by
  let start : Machine := { machine with values := arguments }
  let budget := standard.budget machine.thread.layers.length
  have calling : start.Calling op machine.thread.layers :=
    .of_layers member built.founded.owners rfl
  have room : start.depth op ≤ budget :=
    (start.depth_le op).trans (enough_budget machine.thread.layers.length)
  have finishes : (standard.dispatchWithin budget op).Finishes start :=
    Contract.finishes_holds budget calling room
  have echoes
      : (standard.dispatchWithin budget op).Echoes outer (standard.dispatchWithin budget op) start
          fun _ values => ∃ result, values = [.tensor result] :=
    conforms_dispatchWithin (Nat.le_refl budget) member outer [] arguments start rfl size
  have ends := echoes.ends finishes
  have starts : standard.dispatch op start = standard.dispatchWithin budget op start := rfl
  unfold Ends at ends ⊢
  rw [starts]
  split at ends
  · obtain ⟨same, result, single⟩ := ends
    refine ⟨result, single, same.trans ?_⟩
    rw [Machine.onto, single]
  · exact ends

/-- The boxed calling convention. On top of any values an operator is dispatched on its arguments as it
is called on them alone: where the call gives a value, its result takes the place of the arguments; where
the call ends otherwise, so does the dispatch; and in both cases the values below are left as they were.
-/
theorem Dispatcher.dispatch_onto (built : machine.Built) (member : op ∈ Base.schemas)
    (size : arguments.length = op.arity) (outer : List Value)
    : ((∃ left, standard.dispatch op { machine with values := outer ++ arguments } = .ok () left)
        ↔ ∃ results reached, standard.call op.name arguments machine = .ok results reached)
      ∧ (∀ results reached,
          standard.call op.name arguments machine = .ok results reached
          → ∃ result,
              results = [.tensor result]
              ∧ standard.dispatch op { machine with values := outer ++ arguments }
                = .ok () { reached with values := outer ++ [.tensor result] })
      ∧ (∀ exit reached,
          standard.call op.name arguments machine = .error exit reached
          → ∃ left,
              standard.dispatch op { machine with values := outer ++ arguments }
              = .error exit { reached with values := outer ++ left }) := by
  have echoes := dispatch_echoes built member size outer
  unfold Ends at echoes
  split at echoes
  · rename_i final ended
    obtain ⟨result, single, same⟩ := echoes
    have called := call_of_ok member size ended
    rw [single] at called
    refine ⟨⟨fun _ => ⟨_, _, called⟩, fun _ => ⟨_, same⟩⟩, fun _ _ given => ?_, fun _ _ given => ?_⟩
    · cases called.symm.trans given
      exact ⟨result, rfl, same⟩
    · cases called.symm.trans given
  · rename_i exit final ended
    obtain ⟨orderly, same⟩ := echoes
    have called := call_of_error member size orderly ended
    refine ⟨⟨?_, ?_⟩, fun _ _ given => ?_, fun _ _ given => ?_⟩
    · rintro ⟨_, given⟩
      cases same.symm.trans given
    · rintro ⟨_, _, given⟩
      cases called.symm.trans given
    · cases called.symm.trans given
    · cases called.symm.trans given
      exact ⟨final.values, same⟩

/-- Witness: below the arguments there are a live tag, a batch in a list and a number, and the call goes
through a rule that pads under two layers.
-/
theorem Dispatcher.dispatch_onto_two_layers
    : ∃ (machine reached : Machine) (outer arguments : List Value) (result : Tensor),
        machine.Built
        ∧ machine.thread.layers.length = 2
        ∧ (Value.tensorsAll outer).map (Tensor.liveWrappers machine.heap)
          = [[(.differentiation, 1)], [(.batching, 2), (.differentiation, 1)]]
        ∧ standard.call "add" arguments machine = .ok [.tensor result] reached
        ∧ standard.dispatch (Base.binarySchema "add") { machine with values := outer ++ arguments }
          = .ok () { reached with values := outer ++ [.tensor result] } := by
  let fresh : Machine :=
    { heap :=
        { storages := #[⟨⟨[2, 3]⟩, #[1, 2, 3, 4, 5, 6]⟩, ⟨⟨[1, 3]⟩, #[10, 20, 30]⟩]
          wrappers := #[{ shape := ⟨[2, 3]⟩ }] } }
  let outer : List Value :=
    [.tensor (.tagged 0 1 0 (.dense 0)), .list [.tensor (.batched 7 2 (.tagged 0 1 0 (.dense 0)))],
      .int 5]
  let arguments : List Value := [.tensor (.batched 0 2 (.tagged 0 1 0 (.dense 0))), .tensor (.dense 1)]
  have opened := Machine.Built.opened
    (.opened (@Machine.Built.fresh fresh rfl rfl)
      (rfl : openLayer (.differentiation (some true) none) fresh = .ok 1 _))
    (rfl : openLayer (.batching 2 .error) _ = .ok 2 _)
  obtain ⟨machine, built, layers, wrappers, succeeds⟩
      : ∃ machine : Machine,
          machine.Built
          ∧ machine.thread.layers.length = 2
          ∧ (Value.tensorsAll outer).map (Tensor.liveWrappers machine.heap)
            = [[(.differentiation, 1)], [(.batching, 2), (.differentiation, 1)]]
          ∧ (standard.call "add" arguments).succeeds machine = true :=
    ⟨_, opened, rfl, by decide +kernel, by decide +kernel⟩
  obtain ⟨results, reached, ended⟩ := succeeds_iff.mp succeeds
  have member : Base.binarySchema "add" ∈ Base.schemas := by decide
  obtain ⟨result, rfl, dispatched⟩ := (dispatch_onto built member rfl outer).2.1 results reached ended
  exact ⟨machine, reached, outer, arguments, result, built, layers, wrappers, ended, dispatched⟩

end
end LayeredDispatch
