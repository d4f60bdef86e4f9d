import LayeredDispatch.Machine.Values

/-! Properties that a computation has because its parts have them. Main statement: a property of values
given at once, which sequences inherit, is inherited by loops too, whatever they run over.
-/

namespace LayeredDispatch

/-- Values given at once have the property, and a sequence has it if its parts do, the second one
whatever the first one gives.
-/
structure Inherited (m : Type → Type) [Monad m] (P : ∀ {α : Type}, m α → Prop) : Prop where
  pure {α : Type} (value : α) : P (pure value : m α)
  bind {α β : Type} {first : m α} {next : α → m β} (head : P first) (tail : ∀ value, P (next value))
    : P (first >>= next)

namespace Inherited

section

variable {m : Type → Type} [Monad m] {P : ∀ {α : Type}, m α → Prop}

/-- A branch has the property if both of its sides do, whatever decides between them. -/
theorem ite {condition : Prop} [Decidable condition] {first second : m α} (_ : Inherited m P)
    (yes : P first) (no : P second)
    : P (if condition then first else second) := by
  split
  · exact yes
  · exact no

/-- A loop has the property if its body does, for every item that it may visit. The induction is on
the items; each round is a sequence of the visit and the rounds that are left.
-/
theorem forM {visit : α → m PUnit} (inherited : Inherited m P) (h : ∀ item, P (visit item))
    (items : List α)
    : P (items.forM visit) := by
  induction items with
  | nil => exact inherited.pure _
  | cons item items ih => exact inherited.bind (h item) fun _ => ih

/-- A fold has the property if its step does, whatever the total is by then. The total changes from
round to round, so the induction leaves it general.
-/
theorem foldlM {visit : β → α → m β} (inherited : Inherited m P)
    (h : ∀ total item, P (visit total item)) (items : List α) (start : β)
    : P (items.foldlM visit start) := by
  induction items generalizing start with
  | nil => exact inherited.pure start
  | cons item items ih =>
      rw [List.foldlM_cons]
      exact inherited.bind (h start item) fun total => ih total

variable [LawfulMonad m]

/-- A computation keeps the property when its result is changed by a function. -/
theorem map {body : m α} (inherited : Inherited m P) (h : P body) (change : α → β)
    : P (change <$> body) := by
  rw [map_eq_pure_bind]
  exact inherited.bind h fun value => inherited.pure (change value)

/-- A loop that collects what its visits give has the property if the visits do. Unlike a plain loop
it goes on after the last item, with the list of the results.
-/
theorem mapM {visit : α → m β} (inherited : Inherited m P) (h : ∀ item, P (visit item))
    (items : List α)
    : P (items.mapM visit) := by
  induction items with
  | nil => exact inherited.pure []
  | cons item items ih =>
      rw [List.mapM_cons]
      exact inherited.bind (h item) fun _ => inherited.bind ih fun _ => inherited.pure _

end

section

variable {P : ∀ {α : Type}, Run α → Prop} {replace : Tensor → Run Tensor}

mutual
/-- A traversal that replaces the tensors of a value, however deep they are nested, has the property
if the replacement of one tensor has it. The cases are those of values; lists are left to the
statement about several values.
-/
theorem mapTensorsM (inherited : Inherited Run P) (h : ∀ tensor, P (replace tensor)) (value : Value)
    : P (value.mapTensorsM replace) := by
  cases value with
  | tensor handle => exact inherited.bind (h handle) fun _ => inherited.pure _
  | list items =>
      exact inherited.bind (mapTensorsAllM inherited h items) fun _ => inherited.pure _
  | absent | bool _ | int _ | float _ | ints _ => exact inherited.pure _

/-- The traversal of several values is the one of the first followed by the one of the others, so it
inherits the property from both.
-/
theorem mapTensorsAllM (inherited : Inherited Run P) (h : ∀ tensor, P (replace tensor))
    (values : List Value)
    : P (Value.mapTensorsAllM replace values) := by
  cases values with
  | nil => exact inherited.pure []
  | cons value values =>
      exact inherited.bind (mapTensorsM inherited h value) fun _ =>
        inherited.bind (mapTensorsAllM inherited h values) fun _ => inherited.pure _
end

/-- A visit of all tensors among some values is a loop over them. -/
theorem forTensors {visit : Tensor → Run Unit} (inherited : Inherited Run P)
    (h : ∀ tensor, P (visit tensor)) (values : List Value)
    : P (Run.forTensors values visit) :=
  inherited.forM h _

end

end Inherited

end LayeredDispatch
