import LayeredDispatch.Capability
import LayeredDispatch.Shape

/-! Layers: active transforms, each with the overlay that was in force when it was built. -/

namespace LayeredDispatch

/-- A nesting depth: the bottom layer has level one. -/
abbrev Level := Size

/-- What a random operator does under a batching layer. -/
inductive Randomness where
  /-- It is refused. -/
  | error
  /-- One draw is shared by the whole batch. -/
  | same
  /-- Every batch entry draws on its own. -/
  | different
  deriving DecidableEq, Inhabited

/-- The lower-case word for a policy. -/
def Randomness.word : Randomness → String
  | .error => "error"
  | .same => "same"
  | .different => "different"

/-- The name of a policy in reports. -/
def Randomness.render : Randomness → String
  | .error => "Error"
  | .same => "Same"
  | .different => "Different"

/-- Which transform a layer runs. -/
inductive TransformKind where
  /-- Records history on values tagged at the level of the layer. -/
  | differentiation
  /-- Runs operators over a leading batch dimension. -/
  | batching
  deriving DecidableEq, Inhabited

/-- The name of a transform in reports. -/
def TransformKind.render : TransformKind → String
  | .differentiation => "Differentiation"
  | .batching => "Batching"

/-- A transform with its parameters. -/
inductive Transform where
  /-- Differentiation. The flags are the gradient modes that held outside; one that is `false`
  stays off while the layer hands work to the layers below. -/
  | differentiation (priorGrad priorForwardGrad : Option Bool)
  /-- Batching over `size` entries. -/
  | batching (size : Size) (randomness : Randomness)
  deriving DecidableEq, Inhabited

namespace Transform

/-- Which transform it is. -/
def kind : Transform → TransformKind
  | .differentiation .. => .differentiation
  | .batching .. => .batching

/-- Whether a layer can be built from the transform: differentiation needs one prior flag. -/
def isComplete : Transform → Bool
  | .differentiation grad forwardGrad => grad.isSome || forwardGrad.isSome
  | .batching .. => true

/-- The prior flag of the reverse mode, which differentiation may have. -/
def priorGrad? : Transform → Option Bool
  | .differentiation grad _ => grad
  | .batching .. => none

/-- The prior flag of the forward mode, which differentiation may have. -/
def priorForwardGrad? : Transform → Option Bool
  | .differentiation _ forwardGrad => forwardGrad
  | .batching .. => none

/-- The number of batch entries, which batching has. -/
def batchSize? : Transform → Option Size
  | .differentiation .. => none
  | .batching size _ => some size

/-- The policy for random operators, which batching has. -/
def randomness? : Transform → Option Randomness
  | .differentiation .. => none
  | .batching _ randomness => some randomness

end Transform

/-- The hooks on which a transform runs its body. -/
def TransformKind.owned : TransformKind → CapabilitySet
  | .differentiation => .ofList [.differentiation, .inplaceOrView]
  | .batching => .only .batched

/-- The overlay under which the body of a layer runs: of the interception family only the hooks
that the transform owns and the exit interceptor are reachable, and under batching also the hook
for random operators, whatever the arguments carry. -/
def TransformKind.entryOverlay (kind : TransformKind) (overlay : Overlay) : Overlay :=
  let hidden := overlay.zeroed
  let owning := { hidden with excluded := hidden.excluded \ kind.owned }
  let leaving := owning.enable .exitInterceptor
  match kind with
  | .differentiation => leaving
  | .batching => leaving.enable .batchMode

/-- One active transform. -/
structure Layer where
  /-- The transform that the layer runs. -/
  transform : Transform
  /-- Its position in the stack, counted from one at the bottom. -/
  level : Level
  /-- The overlay in force when the layer was built. -/
  saved : Overlay
  deriving DecidableEq, Inhabited

namespace Layer

/-- Which transform the layer runs. -/
def kind (layer : Layer) : TransformKind :=
  layer.transform.kind

/-- Level and transform, as they appear in reports. -/
def render (layer : Layer) : String :=
  toString layer.level ++ ":" ++ layer.kind.render

/-- A list of layers, bottom first, as it appears in reports. -/
def renderStack (bottomFirst : List Layer) : String :=
  "LayerStack[ " ++ String.join (bottomFirst.map fun layer => layer.render ++ " ") ++ "]"

end Layer
end LayeredDispatch
