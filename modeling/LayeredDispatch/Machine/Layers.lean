import LayeredDispatch.Machine.Basic

/-! The layers of the running thread and the registration of their levels. Layers are pushed and
popped at the top only, a layer's level is its position counted from one, and the interceptors are
included exactly while a layer is active. -/

namespace LayeredDispatch
namespace Run

/-- Registers a level with a new flag. A level that is registered already is a fault. -/
def createLevel (level : Level) : Run Nat := do
  if (← read Machine.registry).contains level then fault (.levelTaken level)
  let flag ← allocate Heap.addFlag
  modify fun machine => { machine with registry := machine.registry.insert level flag }
  return flag

/-- The flag of a registered level. -/
def levelFlag (level : Level) : Run Nat := do
  match (← read Machine.registry).find? level with
  | some flag => return flag
  | none => fault (.levelMissing level)

/-- Kills the flag of a level and forgets the level. -/
def removeLevel (level : Level) : Run Unit := do
  match (← read Machine.registry).find? level with
  | some flag =>
      onHeap fun heap => heap.killFlag flag
      modify fun machine => { machine with registry := machine.registry.erase level }
  | none => log (.alreadyRemoved level)

-----------------------------------------------------------------------------------------
-- The stack of layers
-----------------------------------------------------------------------------------------

/-- The number of active layers. -/
def layerCount : Run Nat :=
  read (·.thread.layers.length)

/-- The active layers, bottom first. -/
def layersBottomFirst : Run (List Layer) :=
  read (·.thread.layers.reverse)

/-- The report text of the active layers. -/
def renderLayers : Run String :=
  return Layer.renderStack (← layersBottomFirst)

/-- Replaces the active layers, given top first. -/
def setLayers (layers : List Layer) : Run Unit :=
  onThread fun thread => { thread with layers }

/-- The top layer, if there is one. -/
def topLayer? : Run (Option Layer) :=
  read (·.thread.layers.head?)

/-- The top layer. -/
def currentLayer : Run Layer := do
  match ← topLayer? with
  | some layer => return layer
  | none => fault .noActiveLayer

/-- Builds a layer with the overlay in force. -/
def buildLayer (transform : Transform) (level : Level) : Run Layer := do
  if transform.isComplete then return ⟨transform, level, ← read (·.thread.overlay)⟩
  else fault (.missingPriorFlag level)

/-- Pushes a layer and gives its level, which must be the next one. -/
def pushLayer (layer : Layer) : Run Level := do
  let below ← read (·.thread.layers)
  let expected := below.length + 1
  if layer.level = expected then
    setLayers (layer :: below)
    if below.isEmpty then
      logDispatch .layersOn
      onOverlay fun overlay => overlay.setInterception true
    return expected
  else fault (.unexpectedPush layer expected)

/-- Pops the top layer. -/
def popLayer : Run Layer := do
  match ← read (·.thread.layers) with
  | [] => fault .popFromEmpty
  | layer :: below =>
      setLayers below
      if below.isEmpty then
        logDispatch .layersOff
        onOverlay fun overlay => overlay.setInterception false
      return layer

/-- Replaces all layers, given bottom first. Of the overlay only the inclusion of the interceptors
changes, and only where layers become active or cease to be. -/
def restoreLayers (bottomFirst : List Layer) : Run Unit := do
  bottomFirst.zipIdx.forM fun (layer, position) => do
    if layer.level ≠ position + 1 then fault (.unexpectedRestore layer position)
  let wasEmpty := (← read (·.thread.layers)).isEmpty
  setLayers bottomFirst.reverse
  if wasEmpty ≠ bottomFirst.isEmpty then
    onOverlay fun overlay => overlay.setInterception (!bottomFirst.isEmpty)

/-- Builds the next layer, pushes it and registers its level. -/
def openLayer (transform : Transform) : Run Level := do
  let level := (← layerCount) + 1
  let layer ← buildLayer transform level
  discard (pushLayer layer)
  discard (createLevel level)
  log (.pushedLayer level transform.kind)
  return level

/-- Pops the top layer and kills every value tagged at its level. -/
def closeLayer : Run Layer := do
  let layer ← popLayer
  removeLevel layer.level
  log (.poppedLayer layer.level layer.kind)
  return layer

end Run

/-- The layers and the overlay of a thread, from which another thread can go on. -/
structure Context where
  /-- The layers, bottom first. -/
  layers : List Layer
  /-- The overlay. -/
  overlay : Overlay
  deriving DecidableEq, Inhabited

namespace Context

/-- The context of the running thread. -/
def capture : Run Context :=
  return ⟨← Run.layersBottomFirst, ← Run.read (·.thread.overlay)⟩

/-- Makes a context that of the running thread. -/
def install (context : Context) : Run Unit := do
  Run.restoreLayers context.layers
  Run.setOverlay context.overlay

/-- The report text. -/
def render (context : Context) : String :=
  Layer.renderStack context.layers ++ " " ++ context.overlay.render

end Context
end LayeredDispatch
