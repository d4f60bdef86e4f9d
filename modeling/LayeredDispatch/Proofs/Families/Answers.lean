import LayeredDispatch.Proofs.Dispatch.Exchange
import LayeredDispatch.Proofs.Families.Growth

/-! What it is to answer a request: the result fits the layers and reads as the family that the base
operator makes of the families of the operands. Main statements: the base kernels answer requests of
dense tensors, and every step down the layers takes a call nearer to them.
-/

namespace LayeredDispatch

open Run

/-- A tensor of a later heap that answers a request of tensors of an earlier one. -/
structure Request.Answered (request : Request Tensor) (layers : List Layer) (before after : Heap)
    (result : Tensor)
    : Prop where
  fits : result.Fits after layers
  shape : (request.map (Tensor.shape before)).onShape = some (result.shape after)
  member
    : ∀ index, Layer.InBatches layers index →
        (request.map (Tensor.member before index)).onDense = .ok (result.member after index)

/-- Why a request may be refused: the shapes of the operands do not suit the operator, or some size
is too large.
-/
def Request.Refused (request : Request Tensor) (heap : Heap) (exit : Exit) : Prop :=
  (request.map (Tensor.shape heap)).onShape = none ∨ exit.TooLarge

namespace Request

variable {α β γ : Type} {layers inner : List Layer} {before middle after : Heap}
  {request other : Request Tensor} {result : Tensor}

/-- Requests whose operands are related become the same one, if related operands become the same.
-/
theorem Related.map_eq {relation : α → β → Prop} {first : Request α} {second : Request β}
    {change : α → γ} {change' : β → γ} (h : first.Related relation second)
    (same : ∀ operand operand', relation operand operand' → change operand = change' operand')
    : first.map change = second.map change' := by
  cases h with
  | binary ofLeft ofRight => simp only [map, same _ _ ofLeft, same _ _ ofRight]
  | neg ofInput => simp only [map, same _ _ ofInput]
  | unsqueeze dim ofInput => simp only [map, same _ _ ofInput]

/-- A weaker relation relates the same requests. It need be weaker on the operands of the request
only.
-/
theorem Related.mono {relation relation' : α → β → Prop} {first : Request α} {second : Request β}
    (h : first.Related relation second)
    (implies
      : ∀ operand ∈ first.operands, ∀ operand',
          relation operand operand' → relation' operand operand')
    : first.Related relation' second := by
  cases h with
  | binary ofLeft ofRight =>
      exact .binary (implies _ (by simp [operands]) _ ofLeft) (implies _ (by simp [operands]) _ ofRight)
  | neg ofInput => exact .neg (implies _ (by simp [operands]) _ ofInput)
  | unsqueeze dim ofInput => exact .unsqueeze dim (implies _ (by simp [operands]) _ ofInput)

/-- The second request first, each operand with what is made of it. -/
theorem Related.flip_map {δ : Type} {relation : α → β → Prop} {relation' : δ → γ → Prop}
    {first : Request α} {second : Request β} (h : first.Related relation second)
    {change : α → γ} {change' : β → δ}
    (implies
      : ∀ operand operand',
          relation operand operand' → relation' (change' operand') (change operand))
    : (second.map change').Related relation' (first.map change) := by
  cases h with
  | binary ofLeft ofRight => exact .binary (implies _ _ ofLeft) (implies _ _ ofRight)
  | neg ofInput => exact .neg (implies _ _ ofInput)
  | unsqueeze dim ofInput => exact .unsqueeze dim (implies _ _ ofInput)

/-- Each operand has a related one on the other side. -/
theorem Related.exists_right {relation : α → β → Prop} {first : Request α}
    {second : Request β} (h : first.Related relation second) {operand : α}
    (member : operand ∈ first.operands)
    : ∃ operand' ∈ second.operands, relation operand operand' := by
  cases h with
  | binary ofLeft ofRight =>
      simp only [operands, List.mem_cons, List.not_mem_nil, or_false] at member
      rcases member with rfl | rfl
      · exact ⟨_, by simp [operands], ofLeft⟩
      · exact ⟨_, by simp [operands], ofRight⟩
  | neg ofInput =>
      obtain rfl := List.mem_singleton.mp member
      exact ⟨_, List.mem_singleton_self _, ofInput⟩
  | unsqueeze dim ofInput =>
      obtain rfl := List.mem_singleton.mp member
      exact ⟨_, List.mem_singleton_self _, ofInput⟩

theorem Related.schema_eq {relation : α → β → Prop} {first : Request α} {second : Request β}
    (h : first.Related relation second)
    : second.schema = first.schema := by
  cases h <;> rfl

theorem Related.isPointwise_eq {relation : α → β → Prop} {first : Request α} {second : Request β}
    (h : first.Related relation second)
    : second.isPointwise = first.isPointwise := by
  cases h <;> rfl

/-- A property that the relation gives to the second operand holds of all of them. -/
theorem Related.right {relation : α → β → Prop} {first : Request α} {second : Request β}
    (h : first.Related relation second) {property : β → Prop}
    (holds : ∀ operand operand', relation operand operand' → property operand')
    : ∀ operand ∈ second.operands, property operand := by
  cases h with
  | binary ofLeft ofRight =>
      simp only [operands, List.forall_mem_cons]
      exact ⟨holds _ _ ofLeft, holds _ _ ofRight, List.forall_mem_nil _⟩
  | neg ofInput =>
      simp only [operands, List.forall_mem_cons]
      exact ⟨holds _ _ ofInput, List.forall_mem_nil _⟩
  | unsqueeze dim ofInput =>
      simp only [operands, List.forall_mem_cons]
      exact ⟨holds _ _ ofInput, List.forall_mem_nil _⟩

/-- An answer to a request of stand-ins is an answer to the request itself, because stand-ins have
the shape and the members of what they stand in for.
-/
theorem Answered.of_standsFor
    (related
      : request.Related
          (fun tensor stand => Tensor.StandsFor inner before tensor middle stand) other)
    (h : other.Answered layers middle after result)
    : request.Answered layers before after result where
  fits := h.fits
  shape := by
    rw [related.map_eq fun _ _ stands => stands.shape.symm]
    exact h.shape
  member index inBatches := by
    rw [related.map_eq fun _ _ stands => (stands.member index).symm]
    exact h.member index inBatches

/-- The same for refusals, which depend on the shapes of the operands only. -/
theorem Refused.of_standsFor {exit : Exit}
    (related
      : request.Related
          (fun tensor stand => Tensor.StandsFor inner before tensor middle stand) other)
    (h : other.Refused middle exit)
    : request.Refused before exit := by
  rw [Refused, related.map_eq fun _ _ stands => stands.shape.symm]
  exact h

end Request

/-- A computation that replaces the arguments of a request by an answer, or refuses it for a reason.
-/
def Run.Answers (body : Run Unit) (request : Request Tensor) (layers : List Layer)
    (outer : List Value) (machine : Machine)
    : Prop :=
  body.Meets machine
    (fun _ values heap =>
      ∃ result,
        values = outer ++ [.tensor result]
        ∧ machine.heap.Grows heap
        ∧ request.Answered layers machine.heap heap result)
    (request.Refused machine.heap)

/-- The levels of the active layers are registered, each with a flag that is alive. -/
def Machine.Registered (machine : Machine) : Prop :=
  ∀ layer ∈ machine.thread.layers,
    ∃ flag,
      machine.registry.find? layer.level = some flag ∧ machine.heap.isAlive flag = true

/-- A state in which a request is called, of operands that fit the layers that the call is above. -/
structure Request.Posed (request : Request Tensor) (layers : List Layer) (outer : List Value)
    (machine : Machine)
    : Prop where
  owners : machine.ambient.Owners layers
  registered : machine.Registered
  values : machine.values = outer ++ request.arguments
  fits : ∀ tensor ∈ request.operands, tensor.Fits machine.heap layers

/-- The hook on which the body of a transform runs. -/
def TransformKind.hook : TransformKind → Capability
  | .differentiation => .differentiation
  | .batching => .batched

/-- How many calls nest at most until a call reaches the base: three a layer, of which those in the
body of the top layer have one behind them, and those on the way out of it two.
-/
def Ambient.steps (ambient : Ambient) : Nat :=
  match ambient.layers with
  | [] => 1
  | layer :: below =>
      3 * below.length
        + if ambient.overlay.excluded.contains .entryInterceptor = false then 4
          else if ambient.overlay.excluded.contains layer.kind.hook = false then 3
          else 2

/-- Calls that answer all requests, if there are few enough steps to the base. -/
structure Calls.Answering (calls : Calls) (budget : Nat) : Prop where
  dispatch
    : ∀ {request layers outer machine},
        request.Posed layers outer machine
        → machine.ambient.steps ≤ budget
        → (calls.dispatch request.schema).Answers request layers outer machine
  schema? : calls.schema? = Dispatcher.standard.schema?

namespace Ambient

variable {ambient : Ambient} {layer : Layer} {below : List Layer}

/-- No call is further from the base than three steps a layer and one more. -/
theorem steps_le (ambient : Ambient) : ambient.steps ≤ 3 * ambient.layers.length + 1 := by
  unfold steps
  split
  · omega
  · rename_i layers
    rw [layers, List.length_cons]
    split
    · omega
    · split <;> omega

theorem steps_pos (ambient : Ambient) : 0 < ambient.steps := by
  unfold steps
  split
  · exact Nat.one_pos
  · split
    · omega
    · split <;> omega

/-- Leaving a layer takes a call nearer to the base. -/
theorem steps_leave (top : ambient.layers = layer :: below)
    : (ambient.leave layer below).steps < ambient.steps := by
  have above : 3 * below.length + 2 ≤ ambient.steps := by
    simp only [steps, top]
    split
    · omega
    · split <;> omega
  refine Nat.lt_of_lt_of_le ?_ above
  cases below with
  | nil => simp [steps, leave]
  | cons next rest =>
      have shown
          : (ambient.leave layer (next :: rest)).overlay.excluded.contains .entryInterceptor
            = false := by
        simp [leave, Overlay.front, Overlay.enable]
      have layers : (ambient.leave layer (next :: rest)).layers = next :: rest := rfl
      simp only [steps, layers, shown, if_true, List.length_cons]
      omega

/-- Entering the body of a layer takes a call nearer to the base, from in front of the layer. -/
theorem steps_enter (top : ambient.layers = layer :: below)
    (front : ambient.overlay.forces .entryInterceptor)
    : (ambient.enter layer.kind).steps < ambient.steps := by
  have entered := (layer.kind.entryOverlay_inBody ambient.overlay).entry
  have layers : (ambient.enter layer.kind).layers = layer :: below := top
  have hidden
      : (ambient.enter layer.kind).overlay.excluded.contains .entryInterceptor = true :=
    entered
  simp only [steps, layers, top, hidden, front.2, if_true, Bool.true_eq_false, if_false]
  split <;> omega

/-- Hiding the hook of the layer takes a call nearer to the base, from the body of the layer. -/
theorem steps_hide {set : CapabilitySet} (top : ambient.layers = layer :: below)
    (entry : ambient.overlay.excluded.contains .entryInterceptor = true)
    (shown : ambient.overlay.excluded.contains layer.kind.hook = false)
    (hides : set.contains layer.kind.hook = true)
    : (ambient.hide set).steps < ambient.steps := by
  simp [steps, top, hide, entry, shown, hides]

theorem steps_intercepting (ambient : Ambient) : ambient.intercepting.steps = ambient.steps := rfl

/-- A state that is handed back is as far from the base. -/
theorem steps_resumes {machine reached : Machine} (resumes : machine.Resumes reached)
    : reached.ambient.steps = machine.ambient.steps := by
  rcases resumes.ambient with same | ⟨_, included⟩
  · rw [same]
  · rw [included, steps_intercepting]

end Ambient

/-- A hook that is forced on stays so in a state that is handed back. -/
theorem Overlay.forces.resumes {machine reached : Machine} {capability : Capability}
    (h : machine.thread.overlay.forces capability) (resumes : machine.Resumes reached)
    : reached.thread.overlay.forces capability := by
  rcases resumes.overlay with same | ⟨_, included⟩
  · rwa [same]
  · rw [included]
    exact h.intercepting

/-- Levels stay registered in a state that is handed back, with flags that are alive. -/
theorem Machine.Registered.resumes {machine reached : Machine} (h : machine.Registered)
    (resumes : machine.Resumes reached)
    : reached.Registered := by
  intro layer member
  rw [resumes.layers] at member
  obtain ⟨flag, found, alive⟩ := h layer member
  exact ⟨flag, by rw [resumes.registry, found],
    by rw [Heap.isAlive_congr resumes.flags, alive]⟩

/-- Fewer layers have registered levels all the more. -/
theorem Machine.Registered.shifted {machine held : Machine} {ambient : Ambient}
    (h : machine.Registered) (shifted : machine.Shifted ambient held)
    (subset : ∀ layer ∈ ambient.layers, layer ∈ machine.thread.layers)
    : held.Registered := by
  intro layer member
  have layers : held.thread.layers = ambient.layers := congrArg Ambient.layers shifted.ambient
  rw [layers] at member
  obtain ⟨flag, found, alive⟩ := h layer (subset layer member)
  exact ⟨flag, by rw [shifted.registry, found], by rw [shifted.heap, alive]⟩

end LayeredDispatch
