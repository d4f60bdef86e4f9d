import LayeredDispatch.Proofs.Dispatch.Exchange
import LayeredDispatch.Proofs.Dispatch.Phases
import LayeredDispatch.Proofs.Dispatch.Stacks

/-! The base operators know nothing of layers. Main statement: under every built stack, whatever the
arguments are, their kernels only start where no layer is active, the overlay and the gradient modes
are those from below all layers, and all tensors among the arguments are dense.
-/

namespace LayeredDispatch

open Run

/-- The ambient state below all layers: the overlay is the one that the bottom layer saved, and a
gradient mode is on if it is on now and was on outside every layer that remembers it.
-/
def Ambient.atBase (ambient : Ambient) : Ambient where
  layers := []
  overlay := (ambient.layers.getLast?.map Layer.saved).getD ambient.overlay
  grad :=
    ambient.grad
      && ambient.layers.all fun layer => layer.transform.priorGrad? != some false
  forwardGrad :=
    ambient.forwardGrad
      && ambient.layers.all fun layer => layer.transform.priorForwardGrad? != some false

/-- Without layers a state is its own state below all layers. -/
theorem Ambient.atBase_eq_self {ambient : Ambient} (inactive : ambient.layers = [])
    : ambient.atBase = ambient := by
  obtain ⟨layers, overlay, grad, forwardGrad⟩ := ambient
  obtain rfl : layers = [] := inactive
  simp [atBase]

/-- While a layer is active the overlay in force is of no account to the base, since the base runs
under the overlay that the bottom layer has saved.
-/
theorem Ambient.atBase_overlay {ambient : Ambient} (active : ambient.layers ≠ [])
    (overlay : Overlay)
    : ({ ambient with overlay } : Ambient).atBase = ambient.atBase := by
  obtain ⟨layers, present, grad, forwardGrad⟩ := ambient
  cases layers with
  | nil => exact absurd rfl active
  | cons layer below => simp [atBase, List.getLast?_cons]

/-- Leaving the top layer leads to a state with the same base. What the layer shuts of the gradient
modes is shut from then on, and so it is counted once, here or among the layers.
-/
theorem Ambient.atBase_leave {ambient : Ambient} {layer : Layer} {below : List Layer}
    (top : ambient.layers = layer :: below)
    : (ambient.leave layer below).atBase = ambient.atBase := by
  obtain ⟨layers, overlay, grad, forwardGrad⟩ := ambient
  obtain rfl : layers = layer :: below := top
  have shut (prior : Option Bool) (mode rest : Bool)
      : ((if prior = some false then false else mode) && rest)
        = (mode && (prior != some false && rest)) := by
    cases prior with
    | none => rfl
    | some flag => cases flag <;> cases mode <;> rfl
  simp only [atBase, leave, List.all_cons, shut, Ambient.mk.injEq, true_and, and_true]
  cases below <;> simp [List.getLast?_cons]

/-- Whether a call of `op` is below all layers: the ambient state is `base`, and all tensors among
the arguments, members of lists included, are dense.
-/
def Machine.isIsolated (base : Ambient) (op : Schema) (machine : Machine) : Bool :=
  decide (machine.ambient = base)
    && (Value.tensorsAll (machine.lastValues op.arity)).all Tensor.isDense

/-- The kernel with an alarm, a fault in the words of `alarm`, where it starts in a state that is
not allowed.
-/
def Kernel.guarded (allowed : Schema → Machine → Bool) (alarm : String) (kernel : Kernel)
    : Kernel where
  name := kernel.name
  run calls op := do
    if ← Run.read (allowed op) then kernel.run calls op
    else Run.fault (.stated alarm)

/-- All states from which `base` is the state below all layers, and in which an interceptor
precedes the base operators while a layer is active.
-/
def Regime.above (base : Ambient) : Regime where
  admits ambient :=
    Layer.Levelled ambient.layers
    ∧ ambient.atBase = base
    ∧ (ambient.layers ≠ []
      → ambient.overlay.forces .entryInterceptor ∨ ambient.overlay.forces .exitInterceptor)
  levelled h := h.1
  intercepting := by
    rintro ambient ⟨levelled, rfl, forced⟩ active
    refine ⟨levelled, Ambient.atBase_overlay active _, fun _ => ?_⟩
    exact (forced active).imp .intercepting .intercepting
  hide := by
    rintro ambient set ⟨levelled, rfl, forced⟩ active entry exit
    refine ⟨levelled, Ambient.atBase_overlay active _, fun _ => ?_⟩
    exact (forced active).imp (.hide · entry) (.hide · exit)
  enter := by
    rintro ambient layer below ⟨levelled, rfl, forced⟩ layers
    have active : ambient.layers ≠ [] := by simp [layers]
    refine ⟨levelled, Ambient.atBase_overlay active _, fun _ => ?_⟩
    exact Or.inr (layer.kind.entryOverlay_forces _)
  leave := by
    rintro ambient layer below ⟨levelled, rfl, forced⟩ layers
    rw [layers] at levelled
    refine ⟨levelled.2, Ambient.atBase_leave layers, fun active => Or.inl ?_⟩
    cases below with
    | nil => exact absurd rfl active
    | cons next rest => exact Overlay.front_forces _

/-- Calls reach the base only where no layer is active: with an active layer one of the interceptors
is forced on, and both come before the base.
-/
theorem Regime.above_layers {base ambient : Ambient} (admitted : (above base).admits ambient)
    {op : Schema} {carried : CapabilitySet} {kernel : Kernel}
    (selected
      : Dispatcher.standard.select op (ambient.overlay.apply carried) = some (.backend, kernel))
    : ambient.layers = [] := by
  obtain ⟨-, entry, -, -, -, exit⟩ := Dispatcher.select_backend selected
  refine Decidable.byContradiction ?_
  intro active
  rcases admitted.2.2 active with forced | forced
  · simp [forced.apply carried] at entry
  · simp [forced.apply carried] at exit

/-- Where calls reach the base under an empty overlay they are isolated. The state is the base one
because there are no layers, and the tensors are dense because nothing in the dispatch set hides the
hooks of a wrapper.
-/
theorem Regime.above_isIsolated {base : Ambient} (overlay : base.overlay = {})
    {machine : Machine} {op : Schema} {set : CapabilitySet} {kernel : Kernel}
    (admitted : (above base).admits machine.ambient)
    (found : Dispatcher.dispatchSet op machine = .ok set machine)
    (selected : Dispatcher.standard.select op set = some (.backend, kernel))
    : machine.isIsolated base op = true := by
  obtain ⟨-, -, rfl⟩ := Dispatcher.dispatchSet_ok found
  have layers : machine.ambient.layers = [] := above_layers admitted selected
  have atBase : machine.ambient = base :=
    (Ambient.atBase_eq_self layers).symm.trans admitted.2.1
  obtain ⟨-, -, batched, -, tagged, -⟩ := Dispatcher.select_backend selected
  have empty : machine.thread.overlay = {} := by rw [← overlay, ← atBase]; rfl
  simp only [empty, Overlay.contains_apply, CapabilitySet.contains_empty, Bool.or_false,
    Bool.not_false, Bool.and_true, reduceCtorEq, decide_false] at batched tagged
  simp [Machine.isIsolated, atBase, Value.dense_of_carried tagged batched]

/-- The base kernels with an alarm do what the base kernels do, since the condition of the alarm
holds wherever calls reach the base.
-/
theorem Regime.baseAgrees_guarded {base : Ambient} (overlay : base.overlay = {})
    (alarm : String)
    : (above base).BaseAgrees (Kernel.guarded (Machine.isIsolated base) alarm) := by
  intro machine op set kernel calls other admitted found selected
  have isolated := above_isIsolated overlay admitted found selected
  have quiet := Dispatcher.agree_baseKernel (Dispatcher.select_backend selected).1 calls other op
    (machine.inSpan op.name .backend)
  refine ⟨?_, quiet.meets⟩
  have allowed : (machine.inSpan op.name .backend).isIsolated base op = true := isolated
  simpa [Kernel.guarded, bind_apply, read_apply, allowed] using quiet.same

/-- A built stack satisfies what calls need to reach the base below all layers only. The overlay of
a built stack with layers includes both interceptors.
-/
theorem Machine.Founded.above {machine : Machine} (founded : machine.Founded)
    : (Regime.above machine.ambient.atBase).admits machine.ambient := by
  refine ⟨founded.levelled, rfl, fun active => Or.inl ?_⟩
  have active : machine.thread.layers.isEmpty = false := by simpa [Machine.ambient] using active
  have overlay := founded.overlay
  rw [active] at overlay
  simp only [Machine.ambient, overlay]
  exact ⟨rfl, rfl⟩

/-- Below all layers of a built stack the overlay is empty. The bottom layer was opened on a fresh
thread, and has saved the overlay of that time.
-/
theorem Machine.Founded.atBase_overlay {machine : Machine} (founded : machine.Founded)
    : machine.ambient.atBase.overlay = {} := by
  have overlay := founded.overlay
  have saved := founded.saved
  cases layers : machine.thread.layers with
  | nil =>
      rw [Ambient.atBase_eq_self layers, Machine.ambient, overlay, layers]
      exact Overlay.setInterception_empty_false
  | cons layer below =>
      rw [layers] at saved
      simp only [Ambient.atBase, Machine.ambient, layers]
      cases last : (layer :: below).getLast? with
      | none => simp at last
      | some bottom => simpa using saved bottom last

/-- From every built state a call does the same if the kernels of all base operators raise an alarm
where they start with a layer active, under another overlay or other gradient modes than those
below all layers, or with an argument that is not dense. The alarm is never raised.
-/
theorem Dispatcher.base_isolated {machine : Machine} (built : machine.Built) (alarm name : String)
    (arguments : List Value)
    : (standard.overBase
          (Kernel.guarded (Machine.isIsolated machine.ambient.atBase) alarm)).call name arguments
        machine
      = standard.call name arguments machine
      ∧ (standard.call name arguments).Ends machine (fun _ _ => True)
          (fun exit _ => exit ≠ .fault (.stated alarm) ∧ exit ≠ .abort) := by
  have founded := built.founded
  have agree := Regime.agree_call (Regime.baseAgrees_guarded founded.atBase_overlay alarm) name
    arguments machine founded.above
  refine ⟨agree.same, Ends.mono agree.meets (fun _ _ _ => trivial) ?_⟩
  rintro exit reached ⟨orderly, -⟩
  constructor
  · rintro rfl
    exact orderly
  · rintro rfl
    exact orderly

/-- Witness: a batch of tagged numbers plus a row, under batching over differentiation. The batch is
padded by a call of its own before the sum; the base kernels of both start, since an alarm that every
start of one of them raises is heard, but the one for a start above the base is not.
-/
theorem Dispatcher.base_isolated_two_layers
    : ∃ (machine reached padding adding : Machine) (arguments results : List Value),
        machine.Built
        ∧ machine.thread.layers.map Layer.kind = [.batching, .differentiation]
        ∧ standard.call "add" arguments machine = .ok results reached
        ∧ (standard.overBase
              (Kernel.guarded (Machine.isIsolated machine.ambient.atBase) "reached")).call "add"
              arguments machine
          = .ok results reached
        ∧ (standard.overBase (Kernel.guarded (fun op _ => op.name != "unsqueeze") "started")).call
              "add" arguments machine
          = .error (.fault (.stated "started")) padding
        ∧ (standard.overBase (Kernel.guarded (fun op _ => op.name != "add") "started")).call "add"
              arguments machine
          = .error (.fault (.stated "started")) adding := by
  let fresh : Machine :=
    { heap :=
        { storages := #[⟨⟨[2]⟩, #[1, 2]⟩, ⟨⟨[3]⟩, #[10, 20, 30]⟩]
          wrappers := #[{ shape := ⟨[2]⟩ }] } }
  let arguments : List Value :=
    [.tensor (.batched 0 2 (.tagged 0 1 0 (.dense 0))), .tensor (.dense 1)]
  have opened := Machine.Built.opened
    (.opened (@Machine.Built.fresh fresh rfl rfl)
      (rfl : openLayer (.differentiation (some false) none) fresh = .ok 1 _))
    (rfl : openLayer (.batching 2 .error) _ = .ok 2 _)
  obtain ⟨machine, built, kinds, succeeds, pads, adds⟩
      : ∃ machine : Machine,
          machine.Built
          ∧ machine.thread.layers.map Layer.kind = [.batching, .differentiation]
          ∧ (standard.call "add" arguments).succeeds machine = true
          ∧ ((standard.overBase
                (Kernel.guarded (fun op _ => op.name != "unsqueeze") "started")).call "add"
                arguments).exit? machine
            = some (.fault (.stated "started"))
          ∧ ((standard.overBase (Kernel.guarded (fun op _ => op.name != "add") "started")).call "add"
                arguments).exit? machine
            = some (.fault (.stated "started")) :=
    ⟨_, opened, rfl, by decide +kernel, by decide +kernel, by decide +kernel⟩
  obtain ⟨results, reached, ended⟩ := succeeds_iff.mp succeeds
  obtain ⟨padding, padded⟩ := exit?_eq_some.mp pads
  obtain ⟨adding, added⟩ := exit?_eq_some.mp adds
  obtain ⟨same, -⟩ := base_isolated built "reached" "add" arguments
  exact ⟨machine, reached, padding, adding, arguments, results, built, kinds, ended, same.trans ended,
    padded, added⟩

end LayeredDispatch
