import LayeredDispatch.Proofs.Dispatch.Restoration
import LayeredDispatch.Proofs.Results.Fitting

/-! Well-formed values are closed under calls. Main statements: a call on well-formed arguments gives
one well-formed tensor, wrapped by exactly the layers that mark the call; and whatever a program of
calls comes by is well formed, as is still what it had.
-/

namespace LayeredDispatch

open Run Dispatcher

/-- A tensor that a program may hold under the active layers: it is well formed, and its tags have
the flags under which their levels are registered.
-/
structure Tensor.Sound (machine : Machine) (tensor : Tensor) : Prop where
  wellFormed : tensor.WellFormed machine.heap machine.thread.layers
  current : tensor.Current machine.registry

/-- A program between two calls: the state, and the tensors that it has. -/
structure Client where
  machine : Machine
  tensors : List Tensor

/-- A program issues a call on tensors that it has. It keeps these, and what the call gives is added
to them; it may go on after a call without a value. Nothing is resized in place.
-/
inductive Client.Step (client : Client) : Client → Prop where
  | returned {name : String} {arguments results : List Value} {reached : Machine}
    (known : Value.tensorsAll arguments ⊆ client.tensors) (shaped : name ≠ "resize_")
    (ended : standard.call name arguments client.machine = .ok results reached)
    : Step client ⟨reached, Value.tensorsAll results ++ client.tensors⟩
  | failed {name : String} {arguments : List Value} {exit : Exit} {reached : Machine}
    (known : Value.tensorsAll arguments ⊆ client.tensors) (shaped : name ≠ "resize_")
    (ended : standard.call name arguments client.machine = .error exit reached)
    : Step client ⟨reached, client.tensors⟩

/-- A program under a built stack of layers, all tensors of which are sound. -/
structure Client.Sound (client : Client) (layers : List Layer) : Prop where
  built : client.machine.Built
  stack : client.machine.thread.layers = layers
  bounded : Layer.Bounded layers
  tensors : ∀ tensor ∈ client.tensors, tensor.Sound client.machine

section

variable {machine reached : Machine} {layers : List Layer} {arguments results : List Value}
  {tensor : Tensor} {name : String} {client next : Client}

-----------------------------------------------------------------------------------------
-- Single calls
-----------------------------------------------------------------------------------------

/-- A call keeps a built stack built, as it puts back the layers, the registry and the flags. -/
theorem Machine.Built.resumes (built : machine.Built) (resumes : machine.Resumes reached)
    : reached.Built := by
  have founded := built.founded
  have restored : machine.Restored reached := by
    apply Machine.Resumes.restored ?_ resumes
    refine ⟨founded.levelled, ?_, ?_⟩
    · rw [founded.overlay]
      cases machine.thread.layers.isEmpty <;> rfl
    · rw [founded.overlay]
      cases machine.thread.layers.isEmpty <;> rfl
  refine .used built ⟨restored.layers, restored.overlay, restored.registry, fun _ _ _ alive => ?_⟩
  exact (Heap.isAlive_congr resumes.flags _).trans alive

/-- Before a call under a built stack all layers are ahead, so that a layer marks the call if it
does so by itself.
-/
theorem Machine.Founded.marks_iff (founded : machine.Founded) {layer : Layer}
    (active : layer ∈ machine.thread.layers)
    : machine.ambient.Marks machine.heap name arguments layer
      ↔ layer.Marks machine.heap name arguments := by
  have ahead : layer ∈ machine.ambient.ahead := by
    rw [Ambient.ahead_front (founded.front (List.ne_nil_of_mem active))]
    exact active
  exact or_congr_right (or_congr_right (and_congr_right fun _ => and_iff_left (.inl ahead)))

/-- A call that gives a value gives one tensor, which the layers wrap that mark the call. This is
the contract at the depth with which a call starts, read for a built stack.
-/
theorem Dispatcher.call_wraps (built : machine.Built)
    : (standard.call name arguments).Leaves machine
        (fun results _ _ =>
          ∃ (result : Tensor) (op : Schema),
            op.name = name
            ∧ results = [.tensor result]
            ∧ op.Typed arguments
            ∧ result.liveWrappers machine.heap
              = (machine.thread.layers.filter (·.Marks machine.heap name arguments)).map Layer.wraps
            ∧ ((∀ tensor ∈ Value.tensorsAll arguments, tensor.Current machine.registry)
              → result.Current machine.registry))
        (fun _ _ => True) := by
  refine leaves_standard built (fun _ _ => trivial) ?_
  intro op named count calling
  subst named
  have founded := built.founded
  have registered : Machine.Registered { machine with values := arguments } := founded.registered
  have wraps
      : Contract.wraps.Holds (standard.budget machine.thread.layers.length) :=
    Contract.wraps_kept.holds _
  have called := wraps.wraps calling registered (List.nil_append arguments).symm count
  apply called.mono ?_ fun _ _ => id
  intro _ values _ left
  rcases left with ⟨result, rfl, wraps, -⟩
  refine ⟨result, op, rfl, rfl, wraps.typed, wraps.wrappers.trans ?_, wraps.current⟩
  refine congrArg (List.map Layer.wraps) (List.filter_congr fun layer active => ?_)
  exact decide_eq_decide.mpr (founded.marks_iff active)

/-- Operators that are asked for in no request give tensors that fit the layers, also in the storage
that the call leaves behind.
-/
theorem Dispatcher.call_places (built : machine.Built)
    (bounded : Layer.Bounded machine.thread.layers)
    (named : name ∉ ["add", "mul", "neg", "unsqueeze"])
    (fits : ∀ tensor ∈ Value.tensorsAll arguments, tensor.Fits machine.heap machine.thread.layers)
    : (standard.call name arguments).Leaves machine
        (fun results _ memory =>
          ∃ result, results = [.tensor result] ∧ result.Fits memory.heap machine.thread.layers)
        (fun _ _ => True) := by
  refine leaves_standard built (fun _ _ => trivial) ?_
  intro op same count calling
  subst same
  have founded := built.founded
  have supplied := founded.supplied calling count fits
  have places : Contract.places.Holds (standard.budget machine.thread.layers.length) :=
    Contract.places_kept.holds _
  apply Leaves.mono (places calling [] arguments named bounded supplied)
  · intro _ values _ left
    rcases left with ⟨result, rfl, places⟩
    exact ⟨result, rfl, places.fits⟩
  · exact fun _ _ => id

/-- A call on well-formed arguments gives a well-formed tensor. Its wrappers and its place in the
storage are found separately, for the operators that batching rules ask for and for the others.
-/
theorem Dispatcher.call_sound (built : machine.Built)
    (bounded : Layer.Bounded machine.thread.layers)
    (sound : ∀ tensor ∈ Value.tensorsAll arguments, tensor.Sound machine)
    (ended : standard.call name arguments machine = .ok results reached)
    : ∃ result,
        results = [.tensor result]
        ∧ reached.thread.layers = machine.thread.layers
        ∧ result.Sound reached
        ∧ result.liveWrappers reached.heap
          = (machine.thread.layers.filter (·.Marks machine.heap name arguments)).map
              Layer.wraps := by
  have levelled := built.founded.levelled
  obtain ⟨resumes, result, op, named, rfl, typed, wrappers, current⟩ :=
    Ends.of_ok (call_wraps built) ended
  have fits : result.Fits reached.heap machine.thread.layers := by
    by_cases requested : name ∈ ["add", "mul", "neg", "unsqueeze"]
    · rcases typed (named ▸ requested) with ⟨request, rfl, rfl⟩
      subst named
      rw [request.tensorsAll_arguments] at sound
      have meets := @meets_call machine request built fun tensor member =>
        (sound tensor member).wellFormed
      obtain ⟨-, other, same, answered⟩ := Ends.of_ok meets ended
      cases same
      exact answered.fits
    · have placed := call_places built bounded requested fun tensor member =>
        (Tensor.wellFormed_iff_fits levelled).mp (sound tensor member).wellFormed
      obtain ⟨-, other, same, fits⟩ := Ends.of_ok placed ended
      cases same
      exact fits
  refine ⟨result, rfl, resumes.layers, ⟨?_, ?_⟩, ?_⟩
  · rw [resumes.layers]
    exact (Tensor.wellFormed_iff_fits levelled).mpr fits
  · rw [resumes.registry]
    exact current fun tensor member => (sound tensor member).current
  · rwa [Tensor.liveWrappers_congr resumes.flags]

-----------------------------------------------------------------------------------------
-- Programs
-----------------------------------------------------------------------------------------

/-- What is sound before a call is so afterwards, if nothing is resized: shapes stay, and so do the
levels and flags that tags refer to.
-/
theorem Tensor.Sound.steady (h : tensor.Sound machine) (built : machine.Built)
    (resumes : machine.Resumes reached) (steady : machine.heap.Steady reached.heap)
    : tensor.Sound reached := by
  have levelled := built.founded.levelled
  have fits := (Tensor.wellFormed_iff_fits levelled).mp h.wellFormed
  constructor
  · rw [resumes.layers]
    exact (Tensor.wellFormed_iff_fits levelled).mpr (fits.steady steady).1
  · rw [resumes.registry]
    exact h.current

/-- A call keeps a program sound, whichever way it ends. A result is added to the tensors that the
program holds, and those that it held before are still sound.
-/
theorem Client.Sound.step (sound : client.Sound layers) (step : client.Step next)
    : next.Sound layers := by
  have built := sound.built
  have steadily {name : String} {arguments : List Value}
      (known : Value.tensorsAll arguments ⊆ client.tensors) (shaped : name ≠ "resize_") :=
    call_steady built shaped fun tensor member =>
      (sound.tensors tensor (known member)).wellFormed.suits
  cases step with
  | @returned name arguments results reached known shaped ended =>
      obtain ⟨resumes, steady⟩ := Ends.of_ok (steadily known shaped) ended
      refine ⟨built.resumes resumes, resumes.layers.trans sound.stack, sound.bounded, ?_⟩
      obtain ⟨result, rfl, -, given, -⟩ := call_sound built (sound.stack ▸ sound.bounded)
        (fun tensor member => sound.tensors tensor (known member)) ended
      refine List.forall_mem_cons.mpr ⟨given, fun tensor member => ?_⟩
      exact (sound.tensors tensor member).steady built resumes steady
  | failed known shaped ended =>
      obtain ⟨-, resumes, steady⟩ := Ends.of_error (steadily known shaped) ended
      refine ⟨built.resumes resumes, resumes.layers.trans sound.stack, sound.bounded, ?_⟩
      intro tensor member
      exact (sound.tensors tensor member).steady built resumes steady

/-- So does a program of any length, by induction on its calls. -/
theorem Client.Sound.run (sound : client.Sound layers)
    (steps : Relation.ReflTransGen Client.Step client next)
    : next.Sound layers := by
  induction steps with
  | refl => exact sound
  | tail _ step ih => exact ih.step step

/-- Results are wrapped exactly as the stack says. Under a built stack, a call on sound arguments that
gives a value gives one sound tensor, tagged at every differentiation level, and batched at the levels
at which some argument is, and where random numbers are drawn for each entry of a batch. So all that a
program of calls comes by is sound, as long as it resizes nothing in place, and the stack is the same.
-/
theorem Dispatcher.call_closed (built : machine.Built)
    (bounded : Layer.Bounded machine.thread.layers)
    : (∀ name arguments results reached,
        (∀ tensor ∈ Value.tensorsAll arguments, tensor.Sound machine)
        → standard.call name arguments machine = .ok results reached
        → ∃ result,
            results = [.tensor result]
            ∧ reached.thread.layers = machine.thread.layers
            ∧ result.Sound reached
            ∧ result.liveWrappers reached.heap
              = (machine.thread.layers.filter (·.Marks machine.heap name arguments)).map
                  Layer.wraps)
      ∧ ∀ tensors client,
          (∀ tensor ∈ tensors, tensor.Sound machine)
          → Relation.ReflTransGen Client.Step ⟨machine, tensors⟩ client
          → client.Sound machine.thread.layers :=
  ⟨fun _ _ _ _ sound ended => call_sound built bounded sound ended,
    fun _ _ sound steps => Client.Sound.run ⟨built, rfl, bounded, sound⟩ steps⟩

/-- Witness: a batch of tagged values plus a plain value, under two layers. -/
theorem Dispatcher.call_closed_two_layers
    : ∃ (machine reached : Machine) (arguments : List Value) (result : Tensor),
        machine.Built
        ∧ Layer.Bounded machine.thread.layers
        ∧ (∀ tensor ∈ Value.tensorsAll arguments, tensor.Sound machine)
        ∧ standard.call "add" arguments machine = .ok [.tensor result] reached
        ∧ result.Sound reached
        ∧ result.liveWrappers reached.heap = [(.batching, 2), (.differentiation, 1)]
        ∧ Client.Sound ⟨reached, result :: Value.tensorsAll arguments⟩ machine.thread.layers := by
  let fresh : Machine :=
    { heap :=
        { storages := #[⟨⟨[2, 3]⟩, #[1, 2, 3, 4, 5, 6]⟩, ⟨⟨[3]⟩, #[10, 20, 30]⟩]
          wrappers := #[{ shape := ⟨[2, 3]⟩ }] } }
  let arguments : List Value :=
    [.tensor (.batched 0 2 (.tagged 0 1 0 (.dense 0))), .tensor (.dense 1)]
  have opened := Machine.Built.opened
    (.opened (@Machine.Built.fresh fresh rfl rfl)
      (rfl : openLayer (.differentiation (some false) none) fresh = .ok 1 _))
    (rfl : openLayer (.batching 2 .error) _ = .ok 2 _)
  obtain ⟨machine, built, bounded, sound, succeeds, marks⟩
      : ∃ machine : Machine,
          machine.Built
          ∧ Layer.Bounded machine.thread.layers
          ∧ (∀ tensor ∈ Value.tensorsAll arguments, tensor.Sound machine)
          ∧ (standard.call "add" arguments).succeeds machine = true
          ∧ (machine.thread.layers.filter (·.Marks machine.heap "add" arguments)).map Layer.wraps
            = [(.batching, 2), (.differentiation, 1)] := by
    refine ⟨_, opened, ?_, ?_, by decide +kernel, by decide +kernel⟩
    · refine List.forall_mem_cons.mpr ⟨?_, List.forall_mem_cons.mpr ⟨nofun, List.forall_mem_nil _⟩⟩
      rintro _ ⟨⟩
      decide
    · refine List.forall_mem_cons.mpr ⟨⟨⟨by decide, ⟨_, List.mem_cons_self, rfl, 2, rfl, rfl⟩, ?_⟩,
        ⟨rfl, trivial⟩⟩, List.forall_mem_cons.mpr ⟨⟨⟨by decide, by decide, rfl⟩, trivial⟩,
        List.forall_mem_nil _⟩⟩
      exact ⟨⟨_, List.mem_cons_of_mem _ List.mem_cons_self, rfl, rfl⟩, rfl, by decide, rfl,
        by decide, rfl⟩
  have closed := call_closed built bounded
  obtain ⟨results, reached, ended⟩ := succeeds_iff.mp succeeds
  obtain ⟨result, rfl, -, given, wrappers⟩ := closed.1 "add" arguments results reached sound ended
  have steps := Relation.ReflTransGen.single (@Client.Step.returned
    ⟨machine, Value.tensorsAll arguments⟩ _ _ _ _ (List.Subset.refl _) (by decide) ended)
  exact ⟨machine, reached, arguments, result, built, bounded, sound, ended, given,
    wrappers.trans marks, closed.2 _ _ sound steps⟩

end

end LayeredDispatch
