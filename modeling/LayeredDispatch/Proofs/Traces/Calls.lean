import LayeredDispatch.Proofs.Results.Closure
import LayeredDispatch.Proofs.Traces.Rules

/-! Every layer handles a call exactly once, top to bottom. Main statement: what recording a call under a
built stack gives is a single trace, in which the call follows the way past all layers, and where
there is nothing else but padding.
-/

namespace LayeredDispatch

open Run Dispatcher

mutual
/-- The hooks on the way along last children. -/
def TraceNode.spine : TraceNode → List Capability
  | ⟨_, capability, children⟩ => capability :: spineAll children

/-- Of several traces the last one counts. -/
def TraceNode.spineAll : List TraceNode → List Capability
  | [] => []
  | node :: nodes => if nodes.isEmpty then node.spine else spineAll nodes
end

/-- The path of a call if padding changed nothing that layers see: each of them looks at the arguments
that the call was given.
-/
def Layer.plainPath (name : String) : List Layer → List Outline → List Capability
  | [], _ => [.backend]
  | layer :: below, outlines =>
      .entryInterceptor :: (layer.body? below name outlines).toList
        ++ .exitInterceptor :: plainPath name below outlines

/-- The state in which a recording starts. -/
def Machine.recording (machine : Machine) : Machine :=
  { machine with thread := { machine.thread with recorder := some {} } }

/-- The ways along last children from the roots that recording a body gives, if that gives a value. -/
def Run.spines (body : Run α) (machine : Machine) : Option (List (List Capability)) :=
  match body machine.recording with
  | .ok _ reached => some (((reached.thread.recorder.map Recorder.roots).getD []).map TraceNode.spine)
  | .error _ _ => none

section

variable {machine reached final : Machine} {name : String} {arguments results : List Value}
  {roots : List TraceNode} {budget : Nat}

/-- Where a kernel handles a call, it leads the call the way that it has still to go. The cases are
those of where a call can be handled at all: below all layers, in front of a layer, in its body, and
on the way out of it. Each of them has been settled for the kernel in question.
-/
theorem Kernel.leads_handling (holds : Contract.traces.Holds budget)
    : Handling budget (Kernel.Leads budget) where
  unhandled ended _ _ _ _ := .of_error ended
  base _ atBase found _ := leads_base atBase found
  outside _ _ carries := leads_outside carries
  enter _ above front := leads_enter holds above front
  differentiate _ within kind shown carries := leads_differentiate holds within kind shown carries
  leaveDifferentiation _ within kind passed := leads_leaveDifferentiation holds within kind passed
  leaveBatching _ within kind drawn owned := leads_leaveBatching holds within kind drawn owned
  pointwise poses within kind shown carries named :=
    leads_pointwise holds poses within kind shown carries named
  unsqueeze _ within kind shown carries same := by
    subst same
    exact leads_unsqueeze holds within kind shown carries
  addInPlace _ within kind shown carries same := by
    subst same
    exact leads_addInPlace holds within kind shown carries
  missingRule _ _ _ :=
    .silently (silent_writing.log _) fun _ _ _ => .of_error (fail_apply _ _)
  random _ within kind forces shown same := by
    subst same
    exact leads_random holds within kind forces shown

/-- However deep calls nest, each of them goes its way. Calls without room fault and add nothing;
with room to nest, the kernel that is selected leads the call, given that the calls it issues go
theirs.
-/
theorem Contract.traces_holds (budget : Nat) : Contract.traces.Holds budget := by
  refine @holds_of_selected Contract.traces ?_ ?_ ?_ budget
  · intro _ _ _ _ _ _ same traces outer arguments supplied
    exact .congr same (traces outer arguments supplied)
  · intro _ _ _ _ _ _ ended _ _ _ _
    exact .of_error ended
  · intro budget owners op machine capability kernel holds poses calling selected outer arguments
      supplied
    let inside := machine.inSpan op.name capability
    have poses : inside.Poses op := ⟨poses.member, poses.enough⟩
    have calling : inside.Calling op owners := ⟨calling.member, calling.owning, calling.drawn⟩
    have leads := (Kernel.leads_handling holds).select poses calling selected
    refine .traced ((leads outer arguments (supplied.inSpan capability)).mono ?_)
    exact fun nodes follows => ⟨_, rfl, follows⟩

-----------------------------------------------------------------------------------------
-- Recorded calls
-----------------------------------------------------------------------------------------

/-- A body that was attempted and gave a value has given it from the same state. -/
theorem Run.attempt_ok {body : Run α} {value : α}
    (ended : attempt body machine = .ok (.ok value) reached)
    : body machine = .ok value reached := by
  unfold attempt at ended
  split at ended
  · rename_i given other started
    cases ended
    exact started
  · cases ended
  · cases ended

/-- A recording gives what the body has added to an empty trace. -/
theorem Run.Appends.recorded {body : Run α} {appended : List TraceNode → Prop} {value : α}
    (h : body.Appends machine.recording appended)
    (ended : Run.record body machine = .ok (.ok value, roots) final)
    : appended roots := by
  have started
      : Run.ensuring
          (do
            let result ← attempt body
            return (result, ← recordedRoots))
          (setRecorder machine.thread.recorder) machine.recording
        = .ok (.ok value, roots) final :=
    ended
  obtain ⟨reached, inner, -⟩ := ended_of_ensuring started
  obtain ⟨result, middle, attempted, inner⟩ := bind_ok inner
  cases inner
  obtain ⟨nodes, added, left⟩ := Ends.of_ok h (attempt_ok attempted)
  dsimp only
  rw [added]
  exact left

/-- A body that gives a value is recorded up to there: the recording ends well, with the roots that
the body has left in the recorder.
-/
theorem Run.record_apply {body : Run α} {value : α}
    (ended : body machine.recording = .ok value reached)
    : ∃ final,
        Run.record body machine
        = .ok (.ok value, (reached.thread.recorder.map Recorder.roots).getD []) final := by
  have attempted : attempt body machine.recording = .ok (.ok value) reached := by
    rw [attempt, ended]
  have inner
      : (do
          let result ← attempt body
          return (result, ← recordedRoots) : Run _) machine.recording
        = .ok (.ok value, (reached.thread.recorder.map Recorder.roots).getD []) reached := by
    rw [bind_apply, attempted]
    rfl
  refine ⟨{ reached with thread := { reached.thread with recorder := machine.thread.recorder } }, ?_⟩
  change Run.ensuring _ (setRecorder machine.thread.recorder) machine.recording = _
  unfold Run.ensuring
  rw [inner]
  rfl

/-- Recording is none of the things that built states depend on. -/
theorem Machine.Built.recording (built : machine.Built) : machine.recording.Built :=
  .used built ⟨rfl, rfl, rfl, fun _ _ _ alive => alive⟩

/-- In front of all layers a call has the way past all of them to go. With a layer on top the
overlay of a founded stack includes the interceptors, so the call is in front of that layer.
-/
theorem Machine.Founded.route_eq (founded : machine.Founded) (outlines : List Outline)
    : machine.ambient.route name outlines = Layer.path name machine.thread.layers outlines := by
  cases layers : machine.thread.layers with
  | nil => exact Ambient.route_base layers
  | cons layer below =>
      have active : machine.thread.layers ≠ [] := layers ▸ List.cons_ne_nil layer below
      rw [Ambient.route_front (founded.front active)]
      exact congrArg (Layer.path name · outlines) layers

/-- A call under a built stack adds a single node, which goes the way past all layers. The state in
which the dispatch starts has the arguments alone among its boxed values, and they fit the layers.
-/
theorem Dispatcher.call_appends (built : machine.Built)
    (fits : ∀ tensor ∈ Value.tensorsAll arguments, tensor.Fits machine.heap machine.thread.layers)
    : (standard.call name arguments).Appends machine fun nodes =>
        ∃ root,
          nodes = [root]
          ∧ root.Follows name
              (Layer.path name machine.thread.layers (Value.outlines machine.heap arguments)) := by
  have founded := built.founded
  refine .step (silent_read _) rfl (.call fun op found count => ?_)
  obtain ⟨member, named⟩ := schema?_standard found
  subst named
  let posed : Machine := { machine with values := arguments }
  have calling : posed.Calling op machine.thread.layers := .of_layers member founded.owners rfl
  have supplied := founded.supplied calling count fits
  have traces := Contract.traces_holds _ calling [] arguments supplied
  have way : machine.ambient.route op.name (Value.outlines machine.heap arguments) = _ :=
    founded.route_eq _
  exact way ▸ traces

/-- Every layer handles a call exactly once, top to bottom. Where a call on well-formed arguments under
a built stack gives a value, recording it gives a single root. Along last children from there the call
comes to the entry interceptor of each layer, its body if the layer has something to do, and its exit
interceptor, and at last to the base operator. All else are insertions of dimensions by which rules of
batching layers pad.
-/
theorem Dispatcher.call_traced (built : machine.Built)
    (wellFormed
      : ∀ tensor ∈ Value.tensorsAll arguments,
          tensor.WellFormed machine.heap machine.thread.layers)
    (ended : Run.record (standard.call name arguments) machine = .ok (.ok results, roots) reached)
    : ∃ root,
        roots = [root]
        ∧ root.Follows name
            (Layer.path name machine.thread.layers (Value.outlines machine.heap arguments)) := by
  have levelled := built.founded.levelled
  have fits : ∀ tensor ∈ Value.tensorsAll arguments,
      tensor.Fits machine.recording.heap machine.recording.thread.layers :=
    fun tensor member => (Tensor.wellFormed_iff_fits levelled).mp (wellFormed tensor member)
  exact (call_appends built.recording fits).recorded ended

/-- Witness: a batch of batches of too small a rank plus a plain value, under three layers. -/
theorem Dispatcher.call_traced_three_layers
    : ∃ (machine reached : Machine) (arguments results : List Value) (root : TraceNode),
        machine.Built
        ∧ (∀ tensor ∈ Value.tensorsAll arguments,
          tensor.WellFormed machine.heap machine.thread.layers)
        ∧ Run.record (standard.call "add" arguments) machine = .ok (.ok results, [root]) reached
        ∧ root.Follows "add"
            [.entryInterceptor, .batched, .exitInterceptor, .entryInterceptor, .differentiation,
              .exitInterceptor, .entryInterceptor, .batched, .exitInterceptor, .backend] := by
  let fresh : Machine :=
    { heap := { storages := #[⟨⟨[2, 2]⟩, #[1, 2, 3, 4]⟩, ⟨⟨[1]⟩, #[10]⟩] } }
  let arguments : List Value :=
    [.tensor (.batched 1 3 (.batched 0 1 (.dense 0))), .tensor (.dense 1)]
  have opened := Machine.Built.opened
    (.opened
      (.opened (@Machine.Built.fresh fresh rfl rfl)
        (rfl : openLayer (.batching 2 .error) fresh = .ok 1 _))
      (rfl : openLayer (.differentiation (some true) none) _ = .ok 2 _))
    (rfl : openLayer (.batching 2 .error) _ = .ok 3 _)
  obtain ⟨machine, built, wellFormed, succeeds, path⟩
      : ∃ machine : Machine,
          machine.Built
          ∧ (∀ tensor ∈ Value.tensorsAll arguments,
            tensor.WellFormed machine.heap machine.thread.layers)
          ∧ (standard.call "add" arguments).succeeds machine.recording = true
          ∧ Layer.path "add" machine.thread.layers (Value.outlines machine.heap arguments)
            = [.entryInterceptor, .batched, .exitInterceptor, .entryInterceptor, .differentiation,
              .exitInterceptor, .entryInterceptor, .batched, .exitInterceptor, .backend] := by
    refine ⟨_, opened, ?_, by decide +kernel, by decide +kernel⟩
    refine List.forall_mem_cons.mpr ⟨⟨by decide, ⟨_, List.mem_cons_self, rfl, 2, rfl, rfl⟩, ?_⟩,
      List.forall_mem_singleton.mpr ⟨by decide, by decide, rfl⟩⟩
    exact ⟨⟨_, .tail _ (.tail _ (.head _)), rfl, 2, rfl, rfl⟩, by decide, rfl⟩
  obtain ⟨results, final, ended⟩ := succeeds_iff.mp succeeds
  obtain ⟨reached, ended⟩ := record_apply ended
  obtain ⟨root, single, follows⟩ := call_traced built wellFormed ended
  exact ⟨machine, reached, arguments, results, root, built, wellFormed, single ▸ ended,
    path ▸ follows⟩

-----------------------------------------------------------------------------------------
-- What padding changes
-----------------------------------------------------------------------------------------

/-- A way past layers is what is read along last children. -/
theorem TraceNode.Follows.spine_eq {path : List Capability} {node : TraceNode}
    (h : node.Follows name path)
    : node.spine = path := by
  have last (padding : List TraceNode) (next : TraceNode)
      : spineAll (padding ++ [next]) = next.spine := by
    induction padding with
    | nil => simp [spineAll]
    | cons node padding ih => simp [spineAll, ih]
  induction h with
  | last capability => simp [spine, spineAll]
  | step padded follows ih => rw [spine, last, ih]

/-- A way that is read off a recording comes from a recording with a single root. -/
theorem Run.record_spines {body : Run α} {way : List Capability}
    (read : body.spines machine = some [way])
    : ∃ value root final,
        Run.record body machine = .ok (.ok value, [root]) final ∧ root.spine = way := by
  unfold spines at read
  cases ended : body machine.recording with
  | error exit reached =>
      rw [ended] at read
      cases read
  | ok value reached =>
      rw [ended] at read
      obtain ⟨root, single, same⟩ := List.map_eq_singleton_iff.mp (Option.some.inj read)
      obtain ⟨final, recorded⟩ := record_apply ended
      exact ⟨value, root, final, single ▸ recorded, same⟩

/-- What a rule has padded does not look as the argument did to the layers below. Under four layers, of
which the second one differentiates, a batch at the top of a batch at the bottom is padded, and what
takes its place is tagged; so the third layer does not run its body, though the uppermost wrapper that
it had seen of the argument itself would have been a batch.
-/
theorem Dispatcher.call_off_plainPath
    : ∃ (machine reached : Machine) (arguments results : List Value) (root : TraceNode),
        machine.Built
        ∧ (∀ tensor ∈ Value.tensorsAll arguments,
          tensor.WellFormed machine.heap machine.thread.layers)
        ∧ Run.record (standard.call "add" arguments) machine = .ok (.ok results, [root]) reached
        ∧ ¬root.Follows "add"
            (Layer.plainPath "add" machine.thread.layers
              (Value.outlines machine.heap arguments)) := by
  let fresh : Machine :=
    { heap := { storages := #[⟨⟨[2, 2]⟩, #[1, 2, 3, 4]⟩, ⟨⟨[1]⟩, #[10]⟩] } }
  let arguments : List Value :=
    [.tensor (.batched 1 4 (.batched 0 1 (.dense 0))), .tensor (.dense 1)]
  have opened := Machine.Built.opened
    (.opened
      (.opened
        (.opened (@Machine.Built.fresh fresh rfl rfl)
          (rfl : openLayer (.batching 2 .error) fresh = .ok 1 _))
        (rfl : openLayer (.differentiation (some true) none) _ = .ok 2 _))
      (rfl : openLayer (.batching 2 .error) _ = .ok 3 _))
    (rfl : openLayer (.batching 2 .error) _ = .ok 4 _)
  obtain ⟨machine, built, wellFormed, read, apart⟩
      : ∃ machine : Machine,
          machine.Built
          ∧ (∀ tensor ∈ Value.tensorsAll arguments,
            tensor.WellFormed machine.heap machine.thread.layers)
          ∧ (standard.call "add" arguments).spines machine
            = some
                [[.entryInterceptor, .batched, .exitInterceptor, .entryInterceptor,
                  .exitInterceptor, .entryInterceptor, .differentiation, .exitInterceptor,
                  .entryInterceptor, .batched, .exitInterceptor, .backend]]
          ∧ Layer.plainPath "add" machine.thread.layers (Value.outlines machine.heap arguments)
            = [.entryInterceptor, .batched, .exitInterceptor, .entryInterceptor, .batched,
              .exitInterceptor, .entryInterceptor, .differentiation, .exitInterceptor,
              .entryInterceptor, .batched, .exitInterceptor, .backend] := by
    refine ⟨_, opened, ?_, by decide +kernel, by decide +kernel⟩
    refine List.forall_mem_cons.mpr ⟨⟨by decide, ⟨_, List.mem_cons_self, rfl, 2, rfl, rfl⟩, ?_⟩,
      List.forall_mem_singleton.mpr ⟨by decide, by decide, rfl⟩⟩
    exact ⟨⟨_, .tail _ (.tail _ (.tail _ (.head _))), rfl, 2, rfl, rfl⟩, by decide, rfl⟩
  obtain ⟨results, root, reached, ended, spine⟩ := record_spines read
  refine ⟨machine, reached, arguments, results, root, built, wellFormed, ended, fun follows => ?_⟩
  have same := spine.symm.trans follows.spine_eq
  rw [apart] at same
  exact absurd same (by decide)

end

end LayeredDispatch
