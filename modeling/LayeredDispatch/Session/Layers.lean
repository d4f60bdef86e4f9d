import LayeredDispatch.Session.State

/-! Steps on levels, layers, overlays, gradient modes and guards. -/

namespace LayeredDispatch

/-- A step on liveness flags, levels and layers. -/
inductive LayerAction where
  /-- Makes a flag that belongs to no level. -/
  | newFlag (out : String)
  | killFlag (flag : String)
  | liveness (flag : String)
  | sameFlag (left right : String)
  | createLevel (level : Level) (out? : Option String)
  | levelFlag (level : Level) (out? : Option String)
  | removeLevel (level : Level)
  | containsLevel (level : Level)
  /-- Builds, pushes and registers a layer. -/
  | openLayer (transform : Transform)
  /-- Pops a layer and kills its level. -/
  | closeLayer
  | build (transform : Transform) (level : Level) (out? : Option String)
  | view (layer : String)
  | batchSize (layer : String)
  | randomness (layer : String)
  | kind (transform : Transform)
  | push (layer : String)
  | pop (out? : Option String)
  | top
  | current (out? : Option String)
  | count
  | snapshot (out : String)
  | restoreSnapshot (name : String)
  | restoreLayers (names : List String)
  | capture (out : String)

namespace LayerAction

/-- Plays a step on flags, levels and layers. -/
def play : LayerAction → Play Reply
  | .newFlag out => do
      Play.keepFlag (some out) (← (Run.allocate Heap.addFlag : Run Nat))
      return .done
  | .killFlag name => do
      let flag ← Play.resolve Session.flags name
      (Run.onHeap fun heap => heap.killFlag flag : Run Unit)
      return .text (← Play.onHeap fun heap => heap.renderFlag flag)
  | .liveness name => do
      let flag ← Play.resolve Session.flags name
      return .liveness (← Play.onHeap fun heap => heap.isAlive flag)
        (← Play.onHeap fun heap => heap.renderFlag flag)
  | .sameFlag left right => do
      let first ← Play.resolve Session.flags left
      let second ← Play.resolve Session.flags right
      return .flag (first == second)
  | .createLevel level out? => do
      Play.keepFlag out? (← (Run.createLevel level : Run Nat))
      return .done
  | .levelFlag level out? => do
      let flag ← (Run.levelFlag level : Run Nat)
      Play.keepFlag out? flag
      return .flag (← Play.onHeap fun heap => heap.isAlive flag)
  | .removeLevel level => do
      (Run.removeLevel level : Run Unit)
      return .done
  | .containsLevel level => do
      let registry ← (Run.read Machine.registry : Run Registry)
      return .flags (registry.contains level) (!registry.isEmpty)
  | .openLayer transform => do
      let level ← (Run.openLayer transform : Run Level)
      return .number level
  | .closeLayer => do
      return .layer (← (Run.closeLayer : Run Layer))
  | .build transform level out? => do
      Play.keepLayer out? (← (Run.buildLayer transform level : Run Layer))
  | .view name => do
      return .layer (← Play.resolve Session.layers name)
  | .batchSize name => do
      let layer ← Play.resolve Session.layers name
      match layer.transform.batchSize? with
      | some size => return .number size
      | none => (Run.fault (.noBatchSize layer) : Run Reply)
  | .randomness name => do
      let layer ← Play.resolve Session.layers name
      match layer.transform.randomness? with
      | some policy => return .text policy.word
      | none => (Run.fault (.noRandomness layer) : Run Reply)
  | .kind transform => return .text transform.kind.render
  | .push name => do
      let layer ← Play.resolve Session.layers name
      let level ← (Run.pushLayer layer : Run Level)
      return .number level
  | .pop out? => do
      Play.keepLayer out? (← (Run.popLayer : Run Layer))
  | .top => do
      match ← (Run.topLayer? : Run (Option Layer)) with
      | some layer => return .layer layer
      | none => return .noLayer
  | .current out? => do
      Play.keepLayer out? (← (Run.currentLayer : Run Layer))
  | .count => do
      let layers ← (Run.layersBottomFirst : Run (List Layer))
      return .layerCount layers.length layers.isEmpty (layers.map Layer.level)
  | .snapshot out => do
      let layers ← (Run.layersBottomFirst : Run (List Layer))
      modify fun session => { session with snapshots := session.snapshots.define out layers }
      return .layers layers
  | .restoreSnapshot name => do
      let layers ← Play.resolve Session.snapshots name
      (Run.restoreLayers layers : Run Unit)
      return .done
  | .restoreLayers names => do
      let layers ← names.mapM (Play.resolve Session.layers)
      (Run.restoreLayers layers : Run Unit)
      return .done
  | .capture out => do
      let context ← (Context.capture : Run Context)
      modify fun session => { session with contexts := session.contexts.define out context }
      return .context context.render context.layers.length

end LayerAction

/-- A guard as a step describes it. -/
inductive GuardSpec where
  | replaceOverlay (overlay : Overlay)
  | hide (set : CapabilitySet)
  | forceOn (set : CapabilitySet)
  | gradMode (enabled : Bool)
  | forwardGradMode (enabled : Bool)
  /-- Switches to the overlay of a transform's body. -/
  | enterBody (kind : TransformKind)
  | hideTop
  | ownLayer (transform : Transform)
  | enterContext (name : String)

namespace GuardSpec

/-- What a step shows of a guard: the layer that it hides, or the level that it owns. -/
def shown : Guard → Reply
  | .withoutTop layer => .text layer.render
  | .layer level => .number level
  | _ => .done

/-- Makes a guard and shows it. -/
def showing (acquire : Run Guard) : Play (Guard × Reply) := do
  let guard ← (acquire : Run Guard)
  return (guard, shown guard)

/-- Makes a guard, and shows it or the context that it enters. -/
def acquire : GuardSpec → Play (Guard × Reply)
  | .replaceOverlay overlay => showing (Guard.replaceOverlay overlay)
  | .hide set => showing (Guard.hide set)
  | .forceOn set => showing (Guard.forceOn set)
  | .gradMode enabled => showing (Guard.gradMode enabled)
  | .forwardGradMode enabled => showing (Guard.forwardGradMode enabled)
  | .enterBody kind => do
      let overlay ← (Run.read (·.thread.overlay) : Run Overlay)
      showing (Guard.replaceOverlay (kind.entryOverlay overlay))
  | .hideTop => showing Guard.hideTop
  | .ownLayer transform => showing (Guard.ownLayer transform)
  | .enterContext name => do
      let context ← Play.resolve Session.contexts name
      let guard ← (Guard.enter context : Run Guard)
      return (guard, .number context.layers.length)

end GuardSpec

/-- A step on the overlay, the modes, the generator and guards. -/
inductive OverlayAction where
  | setIncluded (capability : Capability) (member : Bool)
  | setExcluded (capability : Capability) (member : Bool)
  | replace (overlay : Overlay)
  | apply (carried : CapabilitySet)
  /-- The overlays between which the interceptors switch around a transform. -/
  | overlays (kind : TransformKind)
  | setInterception (active : Bool)
  | setGrad (enabled : Bool)
  | setForwardGrad (enabled : Bool)
  | seed (state : UInt64)
  | acquire (name : String) (guard : GuardSpec)
  /-- Releases the newest guard of a name. -/
  | release (name : String)

namespace OverlayAction

/-- Takes the newest guard of a name away. -/
def takeGuard (name : String) : Play Guard := do
  let session ← get
  match session.guards.lookup name with
  | none => throw .malformed
  | some guard =>
      set { session with guards := session.guards.eraseP fun entry => entry.1 == name }
      return guard

/-- Plays a step on the overlay, the modes, the generator or guards. -/
def play : OverlayAction → Play Reply
  | .setIncluded capability member => do
      (Run.onOverlay fun overlay => overlay.setIncluded capability member : Run Unit)
      return .done
  | .setExcluded capability member => do
      (Run.onOverlay fun overlay => overlay.setExcluded capability member : Run Unit)
      return .done
  | .replace overlay => do
      (Run.setOverlay overlay : Run Unit)
      return .done
  | .apply carried => do
      let overlay ← (Run.read (·.thread.overlay) : Run Overlay)
      return .text (overlay.apply carried).render
  | .overlays kind => do
      let overlay ← (Run.read (·.thread.overlay) : Run Overlay)
      return .overlays .interception kind.owned overlay.zeroed (kind.entryOverlay overlay)
        overlay.front
  | .setInterception active => do
      (Run.onOverlay fun overlay => overlay.setInterception active : Run Unit)
      return .done
  | .setGrad enabled => do
      (Run.setGrad enabled : Run Unit)
      return .done
  | .setForwardGrad enabled => do
      (Run.setForwardGrad enabled : Run Unit)
      return .done
  | .seed state => do
      (Run.onThread fun thread => { thread with generator := ⟨state⟩ } : Run Unit)
      return .done
  | .acquire name spec => do
      let (guard, reply) ← spec.acquire
      modify fun session => { session with guards := session.guards.define name guard }
      return reply
  | .release name => do
      let guard ← takeGuard name
      (guard.release : Run Unit)
      return .done

end OverlayAction
end LayeredDispatch
