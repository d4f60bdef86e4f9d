import LayeredDispatch.Proofs.Framing.Kernels
import LayeredDispatch.Proofs.Nesting.Depth

/-! Dispatch comes to an end. Main statement: under a built stack of layers the calls of kernels nest at
most three deep for every layer, and two deeper below all of them; so what a call does is decided as
soon as calls may nest that deep.
-/

namespace LayeredDispatch

open Run Dispatcher

section

variable {machine : Machine} {budget budget' : Nat}

/-- What comes to an end before calls nest too deep goes the same way on top of further values and
with
more room to nest.
The two ways of being cut short are excluded: one by the end itself, the other because it is no
orderly end.
-/
theorem Run.Echoes.ends {body other : Run α} {outer : List Value} {left : α → List Value → Prop}
    (echoes : body.Echoes outer other machine left) (finishes : body.Finishes machine)
    : body.Ends machine
        (fun value reached =>
          other (machine.onto outer) = .ok value (reached.onto outer) ∧ left value reached.values)
        (fun exit reached =>
          exit.Orderly ∧ other (machine.onto outer) = .error exit (reached.onto outer)) := by
  unfold Finishes Leaves Echoes Ends at *
  cases ended : body machine with
  | ok value reached =>
      rw [ended] at echoes
      exact echoes
  | error exit reached =>
      rw [ended] at echoes finishes
      rcases echoes with cut | same
      · cases cut with
        | nested => exact absurd rfl finishes.2.2
        | unwinding => exact finishes.1.elim
      · exact ⟨finishes.1, same⟩

/-- With nothing below the values, both runs are the same from the same state. -/
theorem Run.Echoes.eq_of_finishes {body other : Run α} {left : α → List Value → Prop}
    (echoes : body.Echoes [] other machine left) (finishes : body.Finishes machine)
    : other machine = body machine := by
  have ends := echoes.ends finishes
  unfold Ends at ends
  split at ends
  · rename_i ended
    exact ends.1.trans ended.symm
  · rename_i ended
    exact ends.2.trans ended.symm

/-- Kernels that issue calls of one kind go the same way with those that may nest deeper. -/
theorem Dispatcher.nested_conform (room : budget ≤ budget')
    : (nested budget).Conform (nested budget') where
  dispatch _ := conforms_dispatchWithin room
  schemas := rfl
  known _ _ found := (schema?_standard found).1

/-- The room that a call is given from the outside is enough: it has forty for each layer and more.
-/
theorem Dispatcher.enough_budget (layers : Nat) : 3 * layers + 2 ≤ standard.budget layers := by
  have each : 40 ≤ 40 * (standard.operators.length + 1) := Nat.le_mul_of_pos_right 40 (Nat.succ_pos _)
  calc 3 * layers + 2 ≤ (layers + 2) * 40 := by omega
    _ ≤ standard.budget layers := Nat.mul_le_mul_left _ each

/-- A call under a built stack comes to an end as soon as it may nest three deep for every layer and
two
deeper.
A call on values of its own starts in front of the top layer, and that is as deep as calls nest
there.
-/
theorem Dispatcher.call_finishes (built : machine.Built)
    (room : 3 * machine.thread.layers.length + 2 ≤ budget) (name : String) (arguments : List Value)
    : ((nested budget).call name arguments).Finishes machine := by
  refine .call (fun _ _ => nofun) fun op found _ => ?_
  have calling : Machine.Calling { machine with values := arguments } op machine.thread.layers :=
    .of_layers (schema?_standard found).1 built.founded.owners rfl
  have depth : Machine.depth { machine with values := arguments } op ≤ budget :=
    (Machine.depth_le _ op).trans room
  exact Contract.finishes_holds budget calling depth

/-- Under a built stack of `n` layers, calls nest at most `3 * n + 2` deep: with that much room, or with
more of it, a call of any operator on any arguments does the same, and it comes to an end, with every
value that rules pad.
-/
theorem Dispatcher.call_nesting (built : machine.Built) (name : String) (arguments : List Value)
    (room : 3 * machine.thread.layers.length + 2 ≤ budget)
    : (nested budget).call name arguments machine = standard.call name arguments machine
      ∧ (standard.call name arguments).Finishes machine := by
  have least := call_finishes built (Nat.le_refl _) name arguments
  have same {budget : Nat} (room : 3 * machine.thread.layers.length + 2 ≤ budget)
      : (nested budget).call name arguments machine
        = (nested (3 * machine.thread.layers.length + 2)).call name arguments machine :=
    ((nested_conform room).call name arguments).eq_of_finishes least
  have enough := enough_budget machine.thread.layers.length
  have starts
      : standard.call name arguments machine
        = (nested (standard.budget machine.thread.layers.length)).call name arguments machine :=
    rfl
  exact ⟨(same room).trans ((same enough).symm.trans starts.symm),
    .congr starts (call_finishes built enough name arguments)⟩

/-- Witness: a dead tag inside a live one takes a call through all five kernels that there can be under
one layer; it is cut short where calls may nest only four deep.
-/
theorem Dispatcher.call_nesting_one_layer
    : ∃ (machine reached cut : Machine) (arguments results : List Value),
        machine.Built
        ∧ machine.thread.layers.length = 1
        ∧ (nested 5).call "neg" arguments machine = .ok results reached
        ∧ (nested 4).call "neg" arguments machine = .error (.fault .diverged) cut := by
  let fresh : Machine :=
    { heap :=
        { storages := #[⟨⟨[2]⟩, #[1, 2]⟩]
          wrappers := #[{ shape := ⟨[2]⟩ }, { shape := ⟨[2]⟩ }]
          flags := #[false] } }
  let arguments : List Value := [.tensor (.tagged 0 1 1 (.tagged 1 1 0 (.dense 0)))]
  have opened := Machine.Built.opened (@Machine.Built.fresh fresh rfl rfl)
    (rfl : openLayer (.differentiation (some true) none) fresh = .ok 1 _)
  obtain ⟨machine, built, layers, succeeds, short⟩
      : ∃ machine : Machine,
          machine.Built
          ∧ machine.thread.layers.length = 1
          ∧ (standard.call "neg" arguments).succeeds machine = true
          ∧ ((nested 4).call "neg" arguments).exit? machine = some (.fault .diverged) :=
    ⟨_, opened, rfl, by decide +kernel, by decide +kernel⟩
  obtain ⟨results, reached, ended⟩ := succeeds_iff.mp succeeds
  obtain ⟨cut, ends⟩ := exit?_eq_some.mp short
  have room : 3 * machine.thread.layers.length + 2 ≤ 5 := by rw [layers]
  have nesting := call_nesting built "neg" arguments room
  exact ⟨machine, reached, cut, arguments, results, built, layers, nesting.1.trans ended, ends⟩

end
end LayeredDispatch
