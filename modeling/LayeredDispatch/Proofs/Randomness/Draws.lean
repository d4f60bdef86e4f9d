import LayeredDispatch.Proofs.Results.Closure
import LayeredDispatch.Proofs.Twins.Outside

/-! Random numbers under stacked layers. A call for random numbers passes every layer once. A batching
layer refuses it, hands it on as it is, or asks for one batch of numbers for each of its entries; in
the last case it marks what it gets as batched. Main statement: from the front of a stack, either some
layer refuses and nothing has changed, or as many numbers are drawn as the sizes of all batches with
numbers of their own say.
-/

namespace LayeredDispatch

open Run Dispatcher

/-- The operator that draws random numbers. -/
abbrev Base.randSchema : Schema :=
  Base.factorySchema "rand"

/-- The size of the batch, if every entry of it has random numbers of its own. -/
def Transform.independent? : Transform → Option Size
  | .batching size .different => some size
  | _ => none

/-- The sizes of all batches whose entries have random numbers of their own, bottom first. -/
def Layer.drawn (layers : List Layer) : List Size :=
  (layers.filterMap (·.transform.independent?)).reverse

/-- No layer refuses random operators. -/
def Layer.Permits (layers : List Layer) : Prop :=
  ∀ layer ∈ layers, layer.transform.randomness? ≠ some .error

instance (layers : List Layer) : Decidable (Layer.Permits layers) :=
  inferInstanceAs (Decidable (∀ layer ∈ layers, _))

/-- Random numbers of some sizes as they were drawn below some layers: for every entry of the batches
that have numbers of their own, in row-major order, the bottom layer outermost.
-/
structure Tensor.Drawn (layers : List Layer) (sizes : List Size) (before : Memory) (result : Tensor)
    (after : Memory)
    : Prop where
  stored
    : after.heap.storage result.baseCell
      = ⟨⟨Layer.drawn layers ++ sizes⟩,
          (before.generator.draw (Layer.drawn layers ++ sizes).prod).1.toArray⟩
  generator
    : after.generator = (before.generator.draw (Layer.drawn layers ++ sizes).prod).2
  shape : result.shape after.heap = ⟨sizes⟩

/-- There is room for the numbers that are drawn, if any are. -/
def Layer.Room (layers : List Layer) (sizes : List Size) : Prop :=
  Layer.Permits layers
  → ∃ count,
      Shape.numel? ⟨Layer.drawn layers ++ sizes⟩ = some count ∧ Size.fitsBuffer count = true

/-- A state in which random numbers of some sizes are asked for below some layers. Sizes are handed on as
signed numbers, which the largest ones are not.
-/
structure Machine.Asks (machine : Machine) (layers : List Layer) (outer : List Value)
    (sizes : List Size) (before : Memory)
    : Prop where
  registered : machine.Registered
  values : machine.values = outer ++ [.ints (sizes.map Size.toSigned)]
  memory : machine.memory = before
  small : ∀ size ∈ sizes, size < 2 ^ 63
  batches : ∀ size ∈ Layer.drawn layers, size < 2 ^ 63
  room : Layer.Room layers sizes

/-- Random numbers are drawn, unless some layer refuses: then nothing has changed. -/
def Run.Draws (body : Run Unit) (machine : Machine) (layers : List Layer) (outer : List Value)
    (sizes : List Size) (before : Memory)
    : Prop :=
  body.Leaves machine
    (fun _ values after =>
      Layer.Permits layers
      ∧ ∃ result, values = outer ++ [.tensor result] ∧ result.Drawn layers sizes before after)
    (fun exit after =>
      ¬Layer.Permits layers
      ∧ exit = .error (.randomnessDisallowed "rand")
      ∧ after = before)

/-- A state from which a call goes through some layers: in front of the top one, or below all of them.
-/
def Machine.InFront (machine : Machine) : List Layer → Prop
  | [] => machine.AtBase
  | layer :: below =>
      machine.Above layer below ∧ machine.thread.overlay.forces .entryInterceptor

section

variable {machine held : Machine} {layers below : List Layer} {layer : Layer} {outer : List Value}
  {sizes : List Size} {budget : Nat} {result : Tensor} {before after : Memory} {size : Size}
  {ambient : Ambient}

-----------------------------------------------------------------------------------------
-- Sizes
-----------------------------------------------------------------------------------------

theorem Size.lt_of_fitsBuffer {count : Nat} (fits : Size.fitsBuffer count = true)
    : count < 2 ^ 64 := by
  have fits : count * 8 < 2 ^ 64 / 2 := of_decide_eq_true fits
  omega

theorem Size.toSigned_of_small {size : Nat} (small : size < 2 ^ 63)
    : Size.toSigned size = size := by
  have large : Size.bound = 18446744073709551616 := rfl
  rw [Size.toSigned, Int.bmod_def, large]
  split <;> omega

/-- Sizes that are handed on as signed numbers are read back, if they are small. By induction on the
sizes.
-/
theorem Value.sizesAt_toSigned (small : ∀ size ∈ sizes, size < 2 ^ 63) (name : String)
    : Value.sizesAt [.ints (sizes.map Size.toSigned)] name 0 = .ok sizes := by
  simp only [sizesAt, List.getElem?_cons_zero]
  induction sizes with
  | nil => rfl
  | cons size sizes ih =>
      obtain ⟨first, others⟩ := List.forall_mem_cons.mp small
      have natural : 0 ≤ (size : Int) := Int.natCast_nonneg size
      rw [List.map_cons, List.mapM_cons, ih others, Size.toSigned_of_small first, if_pos natural]
      rfl

/-- The sizes of the batches that layers ask numbers for come from the bottom layer to the top one.
-/
theorem Layer.drawn_cons
    : Layer.drawn (layer :: below)
      = Layer.drawn below ++ layer.transform.independent?.toList := by
  cases own : layer.transform.independent? <;> simp [drawn, own]

theorem Transform.independent?_differentiation {transform : Transform}
    (kind : transform.kind = .differentiation)
    : transform.independent? = none := by
  cases transform with
  | differentiation grad forwardGrad => rfl
  | batching size randomness => cases kind

theorem Layer.permits_cons
    : Layer.Permits (layer :: below)
      ↔ layer.transform.randomness? ≠ some .error ∧ Layer.Permits below :=
  List.forall_mem_cons

/-- Above a layer that does not refuse them random numbers are refused by the layers below. -/
theorem Layer.permits_iff (permits : layer.transform.randomness? ≠ some .error)
    : Layer.Permits (layer :: below) ↔ Layer.Permits below :=
  Layer.permits_cons.trans (and_iff_right permits)

/-- A layer that asks for no batch of numbers hands a call on as it is. -/
theorem Machine.Asks.onward (h : machine.Asks (layer :: below) outer sizes before)
    (own : layer.transform.independent? = none)
    (permits : layer.transform.randomness? ≠ some .error)
    : machine.Asks below outer sizes before := by
  have same : Layer.drawn (layer :: below) = Layer.drawn below := by simp [Layer.drawn_cons, own]
  refine ⟨h.registered, h.values, h.memory, h.small, ?_, fun allowed => ?_⟩
  · rw [← same]
    exact h.batches
  · rw [← same]
    exact h.room (Layer.permits_cons.mpr ⟨permits, allowed⟩)

/-- A layer that asks for a batch of numbers puts its size in front of the others. There is room for
all of them, as there was for those of the layers together.
-/
theorem Machine.Asks.larger (h : machine.Asks (layer :: below) outer sizes before)
    (own : layer.transform.independent? = some size)
    (permits : layer.transform.randomness? ≠ some .error)
    (registered : held.Registered) (memory : held.memory = before)
    (values : held.values = outer ++ [.ints ((size :: sizes).map Size.toSigned)])
    : held.Asks below outer (size :: sizes) before := by
  have same : Layer.drawn (layer :: below) = Layer.drawn below ++ [size] := by
    simp [Layer.drawn_cons, own]
  have batches := h.batches
  rw [same, List.forall_mem_append, List.forall_mem_singleton] at batches
  refine ⟨registered, values, memory, List.forall_mem_cons.mpr ⟨batches.2, h.small⟩, batches.1, ?_⟩
  intro allowed
  have room := h.room (Layer.permits_cons.mpr ⟨permits, allowed⟩)
  rw [same, List.append_assoc] at room
  exact room

theorem Machine.Asks.shifted (h : machine.Asks layers outer sizes before)
    (shifted : machine.Shifted ambient held)
    (subset : ∀ layer ∈ ambient.layers, layer ∈ machine.thread.layers)
    : held.Asks layers outer sizes before :=
  { h with
    registered := h.registered.shifted shifted subset
    values := shifted.values.trans h.values
    memory := shifted.memory.trans h.memory }

theorem Machine.Asks.inSpan (h : machine.Asks layers outer sizes before) (name : String)
    (capability : Capability)
    : (machine.inSpan name capability).Asks layers outer sizes before :=
  { h with }

/-- Where a layer is left a call is in front of the next one, or at the base. -/
theorem Machine.InFront.leave (above : machine.Above layer below)
    (left : held.ambient = machine.ambient.leave layer below)
    : held.InFront below := by
  have layers : held.thread.layers = below := congrArg Ambient.layers left
  have overlay : held.thread.overlay = (machine.ambient.leave layer below).overlay :=
    congrArg Ambient.overlay left
  cases below with
  | nil => exact ⟨layers, overlay.trans (above.grounded.saved layer (by simp))⟩
  | cons next rest =>
      refine ⟨⟨layers, above.grounded.below⟩, ?_⟩
      rw [overlay]
      exact Overlay.front_forces _

/-- What has been drawn below a layer that asks for no batch of numbers has been drawn for that
layer too.
-/
theorem Tensor.Drawn.of_below (h : result.Drawn below sizes before after)
    (own : layer.transform.independent? = none)
    : result.Drawn (layer :: below) sizes before after := by
  have same : Layer.drawn (layer :: below) = Layer.drawn below := by simp [Layer.drawn_cons, own]
  constructor
  · rw [same]
    exact h.stored
  · rw [same]
    exact h.generator
  · exact h.shape

/-- A call that draws below a layer that asks for no batch of numbers draws for that layer too. -/
theorem Run.Draws.of_below {body : Run Unit} (h : body.Draws machine below outer sizes before)
    (own : layer.transform.independent? = none)
    (permits : layer.transform.randomness? ≠ some .error)
    : body.Draws machine (layer :: below) outer sizes before := by
  have allowed := @Layer.permits_iff below layer permits
  refine Leaves.mono h ?_ fun _ _ refused => ⟨mt allowed.mp refused.1, refused.2⟩
  intro _ _ _ left
  rcases left with ⟨permitted, result, values, drawn⟩
  exact ⟨allowed.mpr permitted, result, values, drawn.of_below own⟩

-----------------------------------------------------------------------------------------
-- Values without tensors
-----------------------------------------------------------------------------------------

/-- Nothing is replaced where there is no tensor. -/
theorem Run.mapLast_plain {arguments : List Value} (values : machine.values = outer ++ arguments)
    (plain : Value.tensorsAll arguments = []) (replace : Tensor → Run Tensor)
    : Run.mapLast arguments.length replace machine = .ok () machine := by
  rw [mapLast_apply values, Value.mapTensorsAllM_plain plain, pure_bind]
  change EStateM.Result.ok () { machine with values := outer ++ arguments } = .ok () machine
  rw [← values]

/-- Where there is no tensor the arguments are copied as they are. -/
theorem copyUntagged_plain {op : Schema} {arguments : List Value}
    (values : machine.values = outer ++ arguments) (size : arguments.length = op.arity)
    (plain : Value.tensorsAll arguments = []) (level : Level)
    : copyUntagged op level machine
      = .ok () { machine with values := outer ++ arguments ++ arguments } := by
  let copied : Machine := { machine with values := outer ++ arguments ++ arguments }
  have pushed : Run.pushAll arguments machine = .ok () copied := by
    change EStateM.Result.ok () { machine with values := machine.values ++ arguments } = _
    rw [values]
  rw [copyUntagged, ← size, bind_apply, peek_append values]
  dsimp only
  rw [bind_apply, pushed]
  have last : copied.values = (outer ++ arguments) ++ arguments := rfl
  exact mapLast_plain last plain _

/-- Sizes have no hook of a layer. -/
theorem Value.carried_ints (heap : Heap) (sizes : List Int) (capability : Capability)
    (above : capability ≠ .backend)
    : (Value.carried heap [.ints sizes]).contains capability = false := by
  rw [contains_carried above]
  rfl

/-- A tag around what has been drawn changes neither its shape nor its elements. -/
theorem Tensor.Drawn.newTagged {level : Level} {flag : Nat}
    (h : result.Drawn layers sizes before after) (alive : after.heap.isAlive flag = true)
    : (after.heap.newTagged result level flag).1.Drawn layers sizes before
        { after with heap := (after.heap.newTagged result level flag).2 } where
  stored := h.stored
  generator := h.generator
  shape := by
    rw [← h.shape]
    have alive : (after.heap.newTagged result level flag).2.isAlive flag = true := alive
    simp only [Heap.newTagged] at alive ⊢
    rw [Tensor.shape, if_pos alive]
    simp [Heap.wrapper]

/-- The number of batches made so far is of no account to shapes. -/
theorem Tensor.shape_newBatched (heap : Heap) (value : Tensor) (level : Level) (tensor : Tensor)
    : tensor.shape (heap.newBatched value level).2 = tensor.shape heap := by
  induction tensor with
  | dense cell => rfl
  | tagged cell own flag inner ih =>
      rw [Tensor.shape, ih]
      rfl
  | batched handle own inner ih => rw [Tensor.shape, ih, Tensor.shape]

/-- Marked as a batch, what has been drawn with a larger size is what each entry has drawn. -/
theorem Tensor.Drawn.newBatched {level : Level}
    (h : result.Drawn below (size :: sizes) before after)
    (own : layer.transform.independent? = some size)
    : (after.heap.newBatched result level).1.Drawn (layer :: below) sizes before
        { after with heap := (after.heap.newBatched result level).2 } := by
  have same : Layer.drawn (layer :: below) ++ sizes = Layer.drawn below ++ size :: sizes := by
    simp [Layer.drawn_cons, own]
  constructor
  · rw [same]
    exact h.stored
  · rw [same]
    exact h.generator
  · have inner : result.shape (after.heap.newBatched result level).2 = ⟨size :: sizes⟩ :=
      (result.shape_newBatched _ _ _).trans h.shape
    exact congrArg Shape.dropLeading inner

-----------------------------------------------------------------------------------------
-- Below all layers
-----------------------------------------------------------------------------------------

/-- The base operator draws one number after another, as many as the sizes ask for, and stores them
in this order.
-/
theorem Base.rand_apply (asks : machine.Asks [] outer sizes before) (calls : Calls)
    : ∃ reached,
        Base.rand.run calls Base.randSchema machine = .ok () reached
        ∧ ∃ result,
            reached.values = outer ++ [.tensor result]
            ∧ result.Drawn [] sizes before reached.memory := by
  obtain ⟨count, counted, fits⟩ := asks.room nofun
  have counted : Shape.numel? ⟨sizes⟩ = some count := counted
  obtain rfl : count = sizes.prod := Shape.numel?_eq_some counted
  let storage : Storage := ⟨⟨sizes⟩, (machine.thread.generator.draw sizes.prod).1.toArray⟩
  have popped
      : pop 1 machine
        = .ok [.ints (sizes.map Size.toSigned)] { machine with values := outer } :=
    pop_append asks.values
  rw [← asks.memory]
  refine ⟨{ machine with
    values := outer ++ [.tensor (machine.heap.newDense storage).1]
    heap := (machine.heap.newDense storage).2
    thread := { machine.thread with
      generator := (machine.thread.generator.draw sizes.prod).2 } }, ?_, _, rfl, ?_, rfl, ?_⟩
  · unfold Base.rand
    simp only
    rw [bind_apply, popped]
    simp only [Value.sizesAt_toSigned asks.small, bind_apply, lift_ok_apply, counted,
      Outcome.orFault]
    simp only [drawUniform, Outcome.checkCapacity, fits, if_true, bind_apply, lift_ok_apply,
      read_apply, onThread_apply]
    rfl
  · exact Heap.storage_newDense machine.heap storage
  · exact congrArg Storage.shape (Heap.storage_newDense machine.heap storage)

/-- Below all layers a call for random numbers comes to the base operator, as there is no tensor
with a hook.
-/
theorem draws_base (asks : machine.Asks [] outer sizes before) (atBase : machine.AtBase)
    : ((nested (budget + 1)).dispatch Base.randSchema).Draws machine [] outer sizes before := by
  have member : Base.randSchema ∈ Base.schemas := by decide
  obtain ⟨kernel, found, same⟩ := dispatch_dense atBase member asks.values rfl nofun budget
  cases found
  refine Leaves.congr same (.traced ?_)
  obtain ⟨reached, ended, drawn⟩ := Base.rand_apply (asks.inSpan _ _) (nested budget)
  exact Quiet.leaves (quiet_writing.rand _ _) ended ⟨nofun, drawn⟩

-----------------------------------------------------------------------------------------
-- In front of a layer and on the way out
-----------------------------------------------------------------------------------------

/-- In front of a layer a call for random numbers goes on in the body of the layer. There is no
tensor to be received.
-/
theorem draws_front (asks : machine.Asks (layer :: below) outer sizes before)
    (above : machine.Above layer below)
    (front : machine.thread.overlay.forces .entryInterceptor)
    (inner
      : ∀ held,
          held.InBody layer below
          → (layer.kind = .batching → held.thread.overlay.forces .batchMode)
          → held.Asks (layer :: below) outer sizes before
          → ((nested budget).dispatch Base.randSchema).Draws held (layer :: below) outer sizes
              before)
    : ((nested (budget + 1)).dispatch Base.randSchema).Draws machine (layer :: below) outer
        sizes before := by
  refine Leaves.congr (dispatch_apply asks.values rfl (select_front _ front)) (.traced ?_)
  have asks := asks.inSpan Base.randSchema.name .entryInterceptor
  refine .enter above.top ?_
  intro logged _ atLogged
  have asks := asks.shifted atLogged fun _ => id
  have top : logged.ambient.layers = layer :: below :=
    (congrArg Ambient.layers atLogged.ambient).trans above.top
  refine leaves_refuseCapturedMutation nofun ?_
  refine (quiet_writing.mapLast (quiet_writing.receive layer) 1).leaves_step
    (mapLast_plain asks.values rfl _) ?_
  refine (quiet_read _).leaves_step rfl ?_
  refine .holding (moves_replaceOverlay _ logged) ?_
  intro held atHeld
  have entered : held.ambient = logged.ambient.enter layer.kind := atHeld.ambient
  have overlay : held.thread.overlay = layer.kind.entryOverlay logged.thread.overlay :=
    congrArg Ambient.overlay entered
  refine inner held ⟨⟨(congrArg Ambient.layers entered).trans top, above.grounded⟩, ?_⟩ ?_
    (asks.shifted atHeld fun _ => id)
  · rw [overlay]
    exact layer.kind.entryOverlay_inBody _
  · intro kind
    rw [overlay, kind]
    exact TransformKind.entryOverlay_batchMode _

/-- A call that goes on below a layer, in front of the next one or at the base. -/
theorem draws_onward (asks : machine.Asks below outer sizes before)
    (above : machine.Above layer below)
    (inner
      : ∀ held,
          held.InFront below
          → held.Asks below outer sizes before
          → ((nested budget).dispatch Base.randSchema).Draws held below outer sizes before)
    : (dispatchBelow (nested budget) Base.randSchema layer).Draws machine below outer sizes
        before := by
  refine .below above.top above.grounded.levelled.1 ?_ ?_
  · intro start layers same _
    have passed
        : (overlayBelow Base.randSchema layer).Leaves start (fun _ _ _ => True)
            (fun _ _ => False) :=
      meets_overlayBelow layer layers (same.trans asks.values) rfl nofun
    exact passed.mono (fun _ _ _ => id) fun _ _ => False.elim
  · intro held atHeld
    refine inner held (.leave above atHeld.ambient) (asks.shifted atHeld ?_)
    rw [above.top]
    exact fun _ => List.mem_cons_of_mem layer

/-- A differentiation layer hands a call for random numbers on and tags what it gets. Its body is
not reached, because sizes have no hook.
-/
theorem draws_differentiation (asks : machine.Asks (layer :: below) outer sizes before)
    (within : machine.InBody layer below) (kind : layer.kind = .differentiation)
    (inner
      : ∀ held outer,
          held.InFront below
          → held.Asks below outer sizes before
          → ((nested budget).dispatch Base.randSchema).Draws held below outer sizes before)
    : ((nested (budget + 1)).dispatch Base.randSchema).Draws machine (layer :: below) outer
        sizes before := by
  have own : layer.transform.independent? = none :=
    Transform.independent?_differentiation kind
  have permits : layer.transform.randomness? ≠ some .error := by
    intro refuses
    rw [Layer.kind_of_randomness? refuses] at kind
    cases kind
  have allowed := @Layer.permits_iff below layer permits
  have inBody := within.inBody
  rw [kind] at inBody
  let arguments : List Value := [.ints (sizes.map Size.toSigned)]
  have selected
      : standard.select Base.randSchema
          (machine.thread.overlay.apply (Value.carried machine.heap arguments))
        = some (.exitInterceptor, exitInterceptor) := by
    rw [select_differentiation _ inBody, Value.carried_ints _ _ _ (by decide)]
    rfl
  refine Leaves.congr (dispatch_apply asks.values rfl selected) (.traced ?_)
  have asks := asks.inSpan Base.randSchema.name .exitInterceptor
  refine quiet_writing.currentLayer.leaves_step (currentLayer_apply within.top) ?_
  simp only [kind]
  refine (quiet_writing.copyUntagged _ _).leaves_step (copyUntagged_plain asks.values rfl rfl _) ?_
  let copied : Machine :=
    { machine.inSpan Base.randSchema.name .exitInterceptor with
      values := outer ++ arguments ++ arguments }
  have asked : copied.Asks below (outer ++ arguments) sizes before :=
    { asks.onward own permits with values := rfl }
  have above : copied.Above layer below := ⟨within.top, within.grounded⟩
  refine Leaves.bind
    (Leaves.mono (draws_onward asked above fun held => inner held (outer ++ arguments))
      (fun _ _ _ => id) fun exit after refused => ⟨mt allowed.mp refused.1, refused.2⟩) ?_
  intro _ reached _ resumes left
  rcases left with ⟨permitted, result, values, drawn⟩
  obtain ⟨flag, registers, alive⟩ := (asked.registered.resumes resumes) layer (by
    rw [resumes.layers, above.top]
    exact List.mem_cons_self)
  refine (leaves_tagResults values rfl rfl ?_).mono ?_ fun _ _ => id
  · intro missing
    rw [registers] at missing
    cases missing
  intro _ values after tagged
  rcases tagged with ⟨other, found, values, rfl⟩
  rw [registers] at found
  cases found
  exact ⟨allowed.mpr permitted, _, values, (drawn.newTagged alive).of_below own⟩

/-- A batching layer that has taken care of a call for random numbers hands it on. -/
theorem draws_leave (asks : machine.Asks below outer sizes before)
    (within : machine.InBody layer below) (kind : layer.kind = .batching)
    (hidden : ¬machine.thread.overlay.forces .batchMode)
    (inner
      : ∀ held,
          held.InFront below
          → held.Asks below outer sizes before
          → ((nested budget).dispatch Base.randSchema).Draws held below outer sizes before)
    : ((nested (budget + 1)).dispatch Base.randSchema).Draws machine below outer sizes before := by
  have inBody := within.inBody
  rw [kind] at inBody
  have selected
      : standard.select Base.randSchema
          (machine.thread.overlay.apply
            (Value.carried machine.heap [.ints (sizes.map Size.toSigned)]))
        = some (.exitInterceptor, exitInterceptor) := by
    rw [select_batching _ inBody, if_neg (fun drawn => hidden (Contract.apply_batchMode.mp drawn.1)),
      Value.carried_ints _ _ _ (by decide)]
    rfl
  refine Leaves.congr (dispatch_apply asks.values rfl selected) (.traced ?_)
  have asks := asks.inSpan Base.randSchema.name .exitInterceptor
  refine quiet_writing.currentLayer.leaves_step (currentLayer_apply within.top) ?_
  simp only [kind]
  exact draws_onward asks ⟨within.top, within.grounded⟩ inner

/-- A batching layer whose entries have numbers of their own asks for all of them at once, with its
size in front, and marks what it gets as a batch.
-/
theorem draws_different (asks : held.Asks (layer :: below) outer sizes before)
    (own : layer.transform.independent? = some size)
    (permits : layer.transform.randomness? ≠ some .error)
    (called
      : ∀ pushed : Machine,
          pushed.thread = held.thread
          → pushed.Asks below outer (size :: sizes) before
          → ((nested budget).dispatch Base.randSchema).Draws pushed below outer (size :: sizes)
              before)
    : Run.Draws
        (do
          let arguments ← pop 1
          let sizes ← Value.sizesAt arguments Base.randSchema.name 0
          push (.ints ((size :: sizes).map Size.toSigned))
          (nested budget).dispatch Base.randSchema
          Batching.wrapResults 1 layer.level)
        held (layer :: below) outer sizes before := by
  have allowed := @Layer.permits_iff below layer permits
  refine (quiet_writing.pop 1).leaves_step (pop_append asks.values) ?_
  have read
      : (liftM (Value.sizesAt [.ints (sizes.map Size.toSigned)] Base.randSchema.name 0)
          : Run (List Size)) { held with values := outer }
        = .ok sizes { held with values := outer } := by
    rw [Value.sizesAt_toSigned asks.small]
    rfl
  refine (quiet_lift (Value.plain_sizesAt _ _ _).orderly).leaves_step read ?_
  refine (quiet_writing.push _).leaves_step rfl ?_
  let pushed : Machine :=
    { held with values := outer ++ [.ints ((size :: sizes).map Size.toSigned)] }
  have asked : pushed.Asks below outer (size :: sizes) before :=
    asks.larger own permits asks.registered asks.memory rfl
  refine Leaves.bind
    (Leaves.mono (called pushed rfl asked) (fun _ _ _ => id)
      fun exit after refused => ⟨mt allowed.mp refused.1, refused.2⟩) ?_
  intro _ reached _ _ left
  rcases left with ⟨permitted, result, values, drawn⟩
  exact (quiet_writing.wrapResults 1 layer.level).leaves (wrapResults_apply values layer.level)
    ⟨allowed.mpr permitted, _, rfl, drawn.newBatched own⟩

/-- A batching layer follows its policy: it refuses the call, hands it on as it is, or asks for a
number for each entry.
-/
theorem draws_batching (asks : machine.Asks (layer :: below) outer sizes before)
    (within : machine.InBody layer below) (kind : layer.kind = .batching)
    (forces : machine.thread.overlay.forces .batchMode)
    (inner
      : ∀ held sizes,
          held.InFront below
          → held.Asks below outer sizes before
          → ((nested budget).dispatch Base.randSchema).Draws held below outer sizes before)
    : ((nested (budget + 2)).dispatch Base.randSchema).Draws machine (layer :: below) outer
        sizes before := by
  have inBody := within.inBody
  rw [kind] at inBody
  have selected
      : standard.select Base.randSchema
          (machine.thread.overlay.apply
            (Value.carried machine.heap [.ints (sizes.map Size.toSigned)]))
        = some (.batchMode, Batching.random) := by
    rw [select_batching _ inBody, if_pos ⟨Contract.apply_batchMode.mpr forces, rfl⟩]
  refine Leaves.congr (dispatch_apply asks.values rfl selected) (.traced ?_)
  have asks := asks.inSpan Base.randSchema.name .batchMode
  refine quiet_writing.currentLayer.leaves_step (currentLayer_apply within.top) ?_
  refine .holding (moves_hide _ _) ?_
  intro held atHeld
  have asks := asks.shifted atHeld fun _ => id
  have top : held.thread.layers = layer :: below :=
    (congrArg Ambient.layers atHeld.ambient).trans within.top
  have overlay : held.thread.overlay = (machine.ambient.hide (.only .batchMode)).overlay :=
    congrArg Ambient.overlay atHeld.ambient
  have hidden : ¬held.thread.overlay.forces .batchMode := by
    intro forced
    have shown := forced.2
    rw [overlay] at shown
    simp [Ambient.hide, CapabilitySet.only] at shown
  have called (reached : Machine) (sizes : List Size) (same : reached.thread = held.thread)
      (asks : reached.Asks below outer sizes before)
      : ((nested (budget + 1)).dispatch Base.randSchema).Draws reached below outer sizes before := by
    refine draws_leave asks ⟨⟨?_, within.grounded⟩, ?_⟩ kind ?_ (inner · sizes)
    · rw [same]
      exact top
    · rw [same, overlay]
      exact within.inBody.hide rfl
    · rw [same]
      exact hidden
  cases transform : layer.transform with
  | differentiation grad forwardGrad =>
      rw [Layer.kind, transform] at kind
      cases kind
  | batching batch policy =>
      have randomness : layer.transform.randomness? = some policy := by
        rw [transform]
        rfl
      cases policy with
      | error =>
          refine leaves_fail ⟨fun permits => ?_, rfl, asks.memory⟩
          exact permits layer List.mem_cons_self randomness
      | same =>
          have own : layer.transform.independent? = none := congrArg _ transform
          have permits : layer.transform.randomness? ≠ some .error := by
            rw [randomness]
            decide
          exact (called held sizes rfl (asks.onward own permits)).of_below own permits
      | different =>
          have own : layer.transform.independent? = some batch := congrArg _ transform
          have permits : layer.transform.randomness? ≠ some .error := by
            rw [randomness]
            decide
          exact draws_different asks own permits fun pushed same => called pushed _ same

-----------------------------------------------------------------------------------------
-- Stacks of layers
-----------------------------------------------------------------------------------------

/-- Every layer of a stack follows its policy, from the top one down, by induction on the layers.
Three calls a layer are enough.
-/
theorem draws_through (asks : machine.Asks layers outer sizes before)
    (front : machine.InFront layers) (enough : 3 * layers.length + 1 ≤ budget)
    : ((nested budget).dispatch Base.randSchema).Draws machine layers outer sizes before := by
  induction layers generalizing machine outer sizes budget with
  | nil =>
      obtain ⟨rest, rfl⟩ : ∃ rest, budget = rest + 1 := ⟨budget - 1, by grind⟩
      exact draws_base asks front
  | cons layer below ih =>
      obtain ⟨rest, rfl⟩ : ∃ rest, budget = rest + 3 := ⟨budget - 3, by grind⟩
      refine draws_front asks front.1 front.2 ?_
      intro held within forces asks
      cases kind : layer.kind with
      | differentiation =>
          refine draws_differentiation asks within kind ?_
          exact fun held outer front asks => ih asks front (by grind)
      | batching =>
          refine draws_batching asks within kind (forces kind) ?_
          exact fun held sizes front asks => ih asks front (by grind)

/-- A call under a built stack starts in front of the top layer. -/
theorem Machine.Founded.inFront (founded : machine.Founded) (same : held.thread = machine.thread)
    : held.InFront machine.thread.layers := by
  have overlay := founded.overlay
  have grounded := founded.grounded
  cases layers : machine.thread.layers with
  | nil =>
      rw [layers] at overlay
      exact ⟨by rw [same, layers], by rw [same]; exact overlay⟩
  | cons layer below =>
      rw [layers] at grounded
      refine ⟨⟨by rw [same, layers], grounded⟩, ?_⟩
      rw [same]
      exact founded.front (layers ▸ List.cons_ne_nil layer below)

/-- A layer wraps random numbers if it is a differentiation layer or draws for each entry of its
batches.
-/
theorem Layer.marks_rand (layer : Layer) (heap : Heap) (sizes : List Int)
    : layer.Marks heap "rand" [.ints sizes]
      ↔ layer.kind = .differentiation ∨ layer.transform.randomness? = some .different := by
  refine or_congr_right ((or_iff_right (layer.not_around_ints heap sizes)).trans ?_)
  exact and_iff_right rfl

/-- Under a built stack a call for random numbers follows the policies of the layers, and is refused
before anything is drawn if one of them refuses.
-/
theorem Dispatcher.leaves_rand (built : machine.Built) (small : ∀ size ∈ sizes, size < 2 ^ 63)
    (batches : ∀ size ∈ Layer.drawn machine.thread.layers, size < 2 ^ 63)
    (room : Layer.Room machine.thread.layers sizes)
    : (standard.call "rand" [.ints (sizes.map Size.toSigned)]).Leaves machine
        (fun results _ after =>
          Layer.Permits machine.thread.layers
          ∧ ∃ result,
              results = [.tensor result]
              ∧ result.Drawn machine.thread.layers sizes machine.memory after)
        (fun exit after =>
          ¬Layer.Permits machine.thread.layers
          ∧ exit = .error (.randomnessDisallowed "rand")
          ∧ after = machine.memory) := by
  have founded := built.founded
  refine leaves_standard built (fun error missing => absurd rfl (missing _ rfl)) ?_
  intro op named _ calling
  obtain rfl := Contract.eq_rand calling.member named
  let posed : Machine := { machine with values := [.ints (sizes.map Size.toSigned)] }
  have asks : posed.Asks machine.thread.layers [] sizes machine.memory :=
    ⟨founded.registered, rfl, rfl, small, batches, room⟩
  have front : posed.InFront machine.thread.layers := founded.inFront rfl
  refine (draws_through asks front (standard.steps_le_budget _)).mono ?_ fun _ _ => id
  intro _ _ _ left
  rcases left with ⟨permitted, result, rfl, drawn⟩
  exact ⟨permitted, result, rfl, drawn⟩

/-- Randomness policies compose over nested layers. Under a built stack a call for random numbers of
some sizes is refused, and nothing is drawn, exactly if some layer refuses it. Otherwise it gives a
tensor of these sizes, which is batched by the layers whose entries have numbers of their own; as many
numbers are drawn as all of their entries need, one after another in row-major order, the bottom layer
outermost. Each stands for the state after one more step of the generator, of which it is the upper
fifty-three bits as a fraction, and no state comes twice. So no two entries have a draw in common, but
all entries of another batch have all.
-/
theorem Dispatcher.call_random (built : machine.Built) (small : ∀ size ∈ sizes, size < 2 ^ 63)
    (batches : ∀ size ∈ Layer.drawn machine.thread.layers, size < 2 ^ 63)
    (room : Layer.Room machine.thread.layers sizes)
    : ((∃ reached,
          standard.call "rand" [.ints (sizes.map Int.ofNat)] machine
            = .error (.error (.randomnessDisallowed "rand")) reached
          ∧ reached.memory = machine.memory)
        ↔ ∃ layer ∈ machine.thread.layers, layer.transform.randomness? = some .error)
      ∧ ((∀ layer ∈ machine.thread.layers, layer.transform.randomness? ≠ some .error)
        → ∃ result reached draws,
            standard.call "rand" [.ints (sizes.map Int.ofNat)] machine
              = .ok [.tensor result] reached
            ∧ reached.thread.generator.state
              = Generator.step^[(Layer.drawn machine.thread.layers).prod * sizes.prod]
                  machine.thread.generator.state
            ∧ draws
              = ((List.range ((Layer.drawn machine.thread.layers).prod * sizes.prod)).map
                  fun index =>
                    Generator.toUnit (Generator.step^[index + 1] machine.thread.generator.state))
            ∧ (∀ (index : Nat) (inside : index < draws.length),
                draws[index]
                = (Generator.step^[index + 1] machine.thread.generator.state
                    / .ofNat (2 ^ 11)).toFloat
                  / (UInt64.ofNat (2 ^ 53)).toFloat)
            ∧ (machine.thread.generator.states
                ((Layer.drawn machine.thread.layers).prod * sizes.prod)).Nodup
            ∧ reached.heap.storage result.baseCell
              = ⟨⟨Layer.drawn machine.thread.layers ++ sizes⟩, draws.toArray⟩
            ∧ (∀ entry < (Layer.drawn machine.thread.layers).prod,
                (draws.drop (entry * sizes.prod)).take sizes.prod
                = ((List.range sizes.prod).map fun index =>
                    Generator.toUnit
                      (Generator.step^[entry * sizes.prod + index + 1]
                        machine.thread.generator.state)))
            ∧ result.shape reached.heap = ⟨sizes⟩
            ∧ result.liveWrappers reached.heap
              = (machine.thread.layers.filter fun layer =>
                  layer.kind = .differentiation
                  ∨ layer.transform.randomness? = some .different).map Layer.wraps) := by
  have signed : sizes.map Int.ofNat = sizes.map Size.toSigned :=
    List.map_congr_left fun size member => (Size.toSigned_of_small (small size member)).symm
  rw [signed]
  have leaves := leaves_rand built small batches room
  have refuses
      : ¬Layer.Permits machine.thread.layers
        ↔ ∃ layer ∈ machine.thread.layers, layer.transform.randomness? = some .error := by
    simp [Layer.Permits]
  cases ended : standard.call "rand" [.ints (sizes.map Size.toSigned)] machine with
  | error exit reached =>
      obtain ⟨-, -, forbidden, rfl, same⟩ := Ends.of_error leaves ended
      exact ⟨iff_of_true ⟨reached, rfl, same⟩ (refuses.mp forbidden),
        fun permits => absurd permits forbidden⟩
  | ok results reached =>
      obtain ⟨resumes, permits, result, rfl, drawn⟩ := Ends.of_ok leaves ended
      constructor
      · refine iff_of_false ?_ fun some => refuses.mpr some permits
        rintro ⟨_, same, -⟩
        cases same
      intro _
      obtain ⟨-, other, op, -, same, -, wrappers, -⟩ := Ends.of_ok (call_wraps built) ended
      cases same
      have count
          : (Layer.drawn machine.thread.layers ++ sizes).prod
            = (Layer.drawn machine.thread.layers).prod * sizes.prod :=
        List.prod_append
      have stored := drawn.stored
      have generator := drawn.generator
      rw [count] at stored generator
      -- One equation says what is drawn and where the generator is left.
      have final := Generator.draw_eq ((Layer.drawn machine.thread.layers).prod * sizes.prod)
        machine.thread.generator
      have advanced := generator.trans (congrArg Prod.snd final)
      refine ⟨result, reached, _, rfl, congrArg Generator.state advanced,
        (congrArg Prod.fst final).trans List.map_map, fun _ => machine.thread.generator.getElem_draw,
        Generator.nodup_states ?_ _, stored, fun _ => machine.thread.generator.draw_entry,
        drawn.shape, ?_⟩
      · obtain ⟨total, counted, fits⟩ := room permits
        rw [← count, ← Shape.numel?_eq_some counted]
        exact Size.lt_of_fitsBuffer fits
      · rw [Tensor.liveWrappers_congr resumes.flags, wrappers]
        refine congrArg _ (List.filter_congr fun layer _ => ?_)
        exact decide_eq_decide.mpr (layer.marks_rand _ _)

/-- Witness: pairs of numbers of their own for two times three entries, shared by a batch of five, with
a differentiation layer in between; another layer on top refuses them. A fresh generator is then in the
twelfth state of its sequence.
-/
theorem Dispatcher.call_random_four_layers
    : ∃ (machine reached refusing refused : Machine) (result : Tensor),
        machine.Built
        ∧ standard.call "rand" [.ints [2]] machine = .ok [.tensor result] reached
        ∧ (reached.heap.storage result.baseCell).shape = ⟨[2, 3, 2]⟩
        ∧ machine.thread.generator.state = 12345
        ∧ reached.thread.generator.state = 18134202821395069637
        ∧ result.liveWrappers reached.heap = [(.batching, 3), (.differentiation, 2), (.batching, 1)]
        ∧ openLayer (.batching 7 .error) machine = .ok 5 refusing
        ∧ standard.call "rand" [.ints [2]] refusing
          = .error (.error (.randomnessDisallowed "rand")) refused := by
  let fresh : Machine := {}
  have opened := Machine.Built.opened
    (.opened
      (.opened (@Machine.Built.fresh fresh rfl rfl)
        (rfl : openLayer (.batching 2 .different) fresh = .ok 1 _))
      (rfl : openLayer (.differentiation (some true) none) _ = .ok 2 _))
    (rfl : openLayer (.batching 3 .different) _ = .ok 3 _)
  obtain ⟨machine, refusing, built, opens, seed, drawn, permits, refuses, larger, wraps⟩
      : ∃ machine refusing : Machine,
          machine.Built
          ∧ openLayer (.batching 7 .error) machine = .ok 5 refusing
          ∧ machine.thread.generator.state = 12345
          ∧ Layer.drawn machine.thread.layers = [2, 3]
          ∧ Layer.Permits machine.thread.layers
          ∧ (∃ layer ∈ refusing.thread.layers, layer.transform.randomness? = some .error)
          ∧ Layer.drawn refusing.thread.layers = [2, 3]
          ∧ (machine.thread.layers.filter fun layer =>
                layer.kind = .differentiation
                ∨ layer.transform.randomness? = some .different).map Layer.wraps
            = [(.batching, 3), (.differentiation, 2), (.batching, 1)] :=
    ⟨_, _, .opened opened (rfl : openLayer (.batching 5 .same) _ = .ok 4 _), rfl, rfl, rfl,
      by decide, ⟨_, List.mem_cons_self, rfl⟩, rfl, rfl⟩
  have room {layers : List Layer} (same : Layer.drawn layers = [2, 3]) : Layer.Room layers [2] := by
    intro _
    rw [same]
    exact ⟨12, rfl, rfl⟩
  obtain ⟨-, gives⟩ := @call_random machine [2] built (by decide) (by rw [drawn]; decide) (room drawn)
  obtain ⟨result, reached, draws, ended, state, -, -, -, stored, -, -, wrappers⟩ := gives permits
  have refusal := @call_random refusing [2] (.opened built opens) (by decide)
    (by rw [larger]; decide) (room larger)
  obtain ⟨refused, ended', -⟩ := refusal.1.mpr refuses
  rw [drawn] at stored
  rw [drawn, seed] at state
  refine ⟨machine, reached, refusing, refused, result, built, ended, congrArg Storage.shape stored,
    seed, state.trans ?_, wrappers.trans wraps, opens, ended'⟩
  decide +kernel

end

end LayeredDispatch
