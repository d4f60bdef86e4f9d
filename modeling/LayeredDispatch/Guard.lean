import LayeredDispatch.Machine.Layers

/-! Guards: changes of the running thread that are undone when the guard is released. Released in the
reverse order of their making, they leave the thread as it was; each also says what it does when it is
released out of order. Scopes: a layer that is active while a body runs. It is removed and its level
killed on every way out of the scope, so values that leave it come back dead.
-/

namespace LayeredDispatch

-----------------------------------------------------------------------------------------
-- Guards
-----------------------------------------------------------------------------------------

/-- What a guard remembers to undo its change. -/
inductive Guard where
  /-- Puts a whole overlay back. -/
  | overlay (saved : Overlay)
  /-- Reveals the hooks that it hid itself. -/
  | exclusion (added : CapabilitySet)
  /-- Takes back the hooks that it forced on itself. -/
  | inclusion (added : CapabilitySet)
  /-- Restores the recording of history. -/
  | grad (previous : Bool)
  /-- Restores the propagation of forward tangents. -/
  | forwardGrad (previous : Bool)
  /-- Pushes a layer back. -/
  | withoutTop (layer : Layer)
  /-- Removes the layer that it owns. -/
  | layer (level : Level)
  /-- Restores layers and overlay. -/
  | context (saved : Context)
  deriving DecidableEq, Inhabited

namespace Guard

/-- Replaces the overlay. -/
def replaceOverlay (overlay : Overlay) : Run Guard := do
  let saved ← Run.read (·.thread.overlay)
  Run.setOverlay overlay
  return .overlay saved

/-- Hides hooks. -/
def hide (set : CapabilitySet) : Run Guard := do
  let current ← Run.read (·.thread.overlay)
  Run.setOverlay { current with excluded := current.excluded ∪ set }
  return .exclusion (set \ current.excluded)

/-- Forces hooks on. -/
def forceOn (set : CapabilitySet) : Run Guard := do
  let current ← Run.read (·.thread.overlay)
  Run.setOverlay { current with included := current.included ∪ set }
  return .inclusion (set \ current.included)

/-- Switches the recording of history. -/
def gradMode (enabled : Bool) : Run Guard := do
  let previous ← Run.read (·.thread.grad)
  Run.setGrad enabled
  return .grad previous

/-- Switches the propagation of forward tangents. -/
def forwardGradMode (enabled : Bool) : Run Guard := do
  let previous ← Run.read (·.thread.forwardGrad)
  Run.setForwardGrad enabled
  return .forwardGrad previous

/-- Pops the top layer. -/
def hideTop : Run Guard :=
  return .withoutTop (← Run.popLayer)

/-- Opens a layer and owns it. -/
def ownLayer (transform : Transform) : Run Guard :=
  return .layer (← Run.openLayer transform)

/-- Enters a context. -/
def enter (context : Context) : Run Guard := do
  let saved ← Context.capture
  context.install
  return .context saved

/-- Undoes the change of a guard. A guard that owns a layer removes it if it is on top; otherwise
somebody else removed the layer, and its values are killed all the same. -/
def release : Guard → Run Unit
  | .overlay saved => Run.setOverlay saved
  | .exclusion added =>
      Run.onOverlay fun overlay => { overlay with excluded := overlay.excluded \ added }
  | .inclusion added =>
      Run.onOverlay fun overlay => { overlay with included := overlay.included \ added }
  | .grad previous => Run.setGrad previous
  | .forwardGrad previous => Run.setForwardGrad previous
  | .withoutTop popped => discard (Run.pushLayer popped)
  | .layer level => do
      let top? := (← Run.topLayer?).map Layer.level
      if top? = some level then discard Run.closeLayer
      else do
        Run.log (.foreignTop level top?)
        Run.removeLevel level
  | .context outer => outer.install

/-- Releases guards in the given order, the remaining ones also after a fault. -/
def releaseAll : List Guard → Run Unit
  | [] => return
  | guard :: guards => Run.ensuring guard.release (releaseAll guards)

end Guard

namespace Run

/-- Runs `body` under a guard, which is released however the body ends. -/
def holding (acquire : Run Guard) (body : Run α) : Run α := do
  let guard ← acquire
  ensuring body guard.release

/-- Runs `body` under a guard if `condition` holds, and without it otherwise. -/
def holdingIf (condition : Bool) (acquire : Run Guard) (body : Run α) : Run α :=
  if condition then holding acquire body else body

end Run

-----------------------------------------------------------------------------------------
-- Scopes
-----------------------------------------------------------------------------------------

/-- An open scope. -/
structure Scope where
  /-- The level of the layer that the scope opened. -/
  level : Level
  /-- What is released at the end, in this order. -/
  guards : List Guard
  deriving Inhabited

namespace Scope

/-- Opens a differentiation layer, which remembers the gradient modes in force, and switches the
recording of history on. -/
def differentiation : Run Scope := do
  let grad ← Run.read (·.thread.grad)
  let forwardGrad ← Run.read (·.thread.forwardGrad)
  let level ← Run.openLayer (.differentiation (some grad) (some forwardGrad))
  let mode ← Guard.gradMode true
  return ⟨level, [mode, .layer level]⟩

/-- Opens a batching layer. -/
def batching (size : Size) (randomness : Randomness) : Run Scope := do
  let level ← Run.openLayer (.batching size randomness)
  return ⟨level, [.layer level]⟩

/-- Ends a scope. -/
def close (scope : Scope) : Run Unit :=
  Guard.releaseAll scope.guards

end Scope

namespace Run

/-- Runs `body` inside a scope. -/
def within (acquire : Run Scope) (body : Level → Run α) : Run α := do
  let scope ← acquire
  ensuring (body scope.level) scope.close

/-- Runs `body` under a differentiation layer. -/
def gradScope (body : Level → Run α) : Run α :=
  within Scope.differentiation body

/-- Runs `body` under a batching layer. -/
def batchScope (size : Size) (randomness : Randomness) (body : Level → Run α) : Run α :=
  within (Scope.batching size randomness) body

end Run
end LayeredDispatch
