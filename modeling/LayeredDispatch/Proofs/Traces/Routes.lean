import LayeredDispatch.Proofs.Families.Correctness
import LayeredDispatch.Proofs.Results.Handing

/-! The way of a call past stacked layers, and what decides it: the wrappers around the tensors among its
arguments, and the ranks that the rules of batching layers see. Main statements: arguments that look
alike to the layers take a call the same way; and which of the hooks of a layer some argument carries
is read off the uppermost wrapper that the layers own.
-/

namespace LayeredDispatch

/-- What the layers see of a tensor argument. -/
structure Outline where
  wrappers : List (TransformKind × Level)
  rank : Nat

def Tensor.outline (heap : Heap) (tensor : Tensor) : Outline where
  wrappers := tensor.liveWrappers heap
  rank := (tensor.shape heap).rank

/-- What the layers see of the tensors among some values, members of lists included. -/
def Value.outlines (heap : Heap) (values : List Value) : List Outline :=
  (Value.tensorsAll values).map (Tensor.outline heap)

namespace Outline

/-- Of the layers that wrap the argument, which are given top first, the kind of the uppermost one. -/
def foremost? (layers : List Layer) (outline : Outline) : Option TransformKind :=
  (layers.find? (·.wraps ∈ outline.wrappers)).map Layer.kind

/-- The rank up to which the rule of a batching layer pads: for in-place addition that of the target,
otherwise the greatest one.
-/
def goal (name : String) (outlines : List Outline) : Nat :=
  if name = "add_" then (outlines.head?.map rank).getD 0
  else outlines.foldl (fun greatest outline => max greatest outline.rank) 0

/-- What the layers below see of an argument. Where a batching layer takes its dimension off, that counts
towards the rank; where it has to pad first, all differentiation layers below have tagged what takes
the place of the argument.
-/
def past (goal : Nat) (layer : Layer) (below : List Layer) (outline : Outline) : Outline :=
  if layer.kind = .batching ∧ layer.wraps ∈ outline.wrappers then
    if outline.rank < goal then
      { wrappers :=
          outline.wrappers ++ (below.filter (·.kind = .differentiation)).map Layer.wraps
        rank := goal + 1 }
    else { outline with rank := outline.rank + 1 }
  else outline

end Outline

namespace Layer

/-- The hook on which a layer runs its body for a call, if it does. -/
def body? (layer : Layer) (below : List Layer) (name : String) (outlines : List Outline)
    : Option Capability :=
  match layer.kind with
  | .differentiation => if outlines.isEmpty then none else some .differentiation
  | .batching =>
      if name = "rand" then some .batchMode
      else if ∃ outline ∈ outlines, outline.foremost? (layer :: below) = some .batching then
        some .batched
      else none

/-- The hooks on which a call is handled on its way past layers, which are given top first. -/
def path (name : String) : List Layer → List Outline → List Capability
  | [], _ => [.backend]
  | layer :: below, outlines =>
      .entryInterceptor :: (layer.body? below name outlines).toList
        ++ .exitInterceptor
          :: path name below (outlines.map (Outline.past (Outline.goal name outlines) layer below))

end Layer

/-- Following last children, the calls of `op` are handled on the hooks of a path. Whatever else there is
are calls of `unsqueeze`, issued by rules of batching layers before they hand their own call on.
-/
inductive TraceNode.Follows (op : String) : List Capability → TraceNode → Prop where
  | last (capability : Capability) : Follows op [capability] ⟨op, capability, []⟩
  | step {capability : Capability} {path : List Capability} {padding : List TraceNode}
    {next : TraceNode}
    (padded : ∀ node ∈ padding, capability = .batched ∧ node.op = "unsqueeze")
    (follows : Follows op path next)
    : Follows op (capability :: path) ⟨op, capability, padding ++ [next]⟩

/-- Two arguments look alike to some layers. -/
structure Outline.Agree (layers : List Layer) (outline other : Outline) : Prop where
  rank : other.rank = outline.rank
  wrappers
    : ∀ layer ∈ layers, (layer.wraps ∈ other.wrappers ↔ layer.wraps ∈ outline.wrappers)

/-- Of the hooks on which a layer may run its body for a call, the one to which the call comes in the
state that it is in.
-/
def Layer.pending (layer : Layer) (below : List Layer) (overlay : Overlay) (name : String)
    (outlines : List Outline)
    : List Capability :=
  match layer.kind with
  | .differentiation =>
      if overlay.excluded.contains .differentiation = false
          ∧ ∃ outline ∈ outlines, outline.foremost? (layer :: below) = some .differentiation then
        [.differentiation]
      else []
  | .batching =>
      if name = "rand" then
        if overlay.included.contains .batchMode ∧ overlay.excluded.contains .batchMode = false then
          [.batchMode]
        else []
      else if overlay.excluded.contains .batched = false
          ∧ ∃ outline ∈ outlines, outline.foremost? (layer :: below) = some .batching then
        [.batched]
      else []

/-- The hooks on which a call is still handled, by where it is: below all layers, in the body of the top
layer, or in front of it.
-/
def Ambient.route (ambient : Ambient) (name : String) (outlines : List Outline) : List Capability :=
  match ambient.layers with
  | [] => [.backend]
  | layer :: below =>
      if ambient.overlay.excluded.contains .entryInterceptor then
        layer.pending below ambient.overlay name outlines
          ++ .exitInterceptor
            :: Layer.path name below
              (outlines.map (Outline.past (Outline.goal name outlines) layer below))
      else Layer.path name (layer :: below) outlines

section

variable {machine : Machine} {layers below : List Layer} {layer : Layer} {heap : Heap}
  {outline other between : Outline} {outlines others : List Outline} {name : String}
  {tensor result : Tensor} {arguments inner : List Value} {before after : Heap}

-----------------------------------------------------------------------------------------
-- Arguments that look alike
-----------------------------------------------------------------------------------------

namespace Outline

theorem Agree.refl (layers : List Layer) (outline : Outline) : Agree layers outline outline :=
  ⟨rfl, fun _ _ => Iff.rfl⟩

/-- What looks alike to some layers looks alike to those below the top one. -/
theorem Agree.lower (h : Agree (layer :: below) outline other) : Agree below outline other :=
  ⟨h.rank, fun lower member => h.wrappers lower (List.mem_cons_of_mem _ member)⟩

/-- Arguments that look alike have the same uppermost layer among those that wrap them. -/
theorem Agree.foremost?_eq (h : Agree layers outline other)
    : other.foremost? layers = outline.foremost? layers := by
  unfold foremost?
  refine congrArg (Option.map Layer.kind) ?_
  have same := h.wrappers
  clear h
  induction layers with
  | nil => rfl
  | cons layer below ih =>
      obtain ⟨own, lower⟩ := List.forall_mem_cons.mp same
      rw [List.find?_cons, List.find?_cons, ih lower, decide_eq_decide.mpr own]

/-- The rank up to which a rule pads depends on the ranks only, in which the arguments agree. -/
theorem goal_congr (h : List.Forall₂ (Agree layers) outlines others)
    : goal name others = goal name outlines := by
  have ranks : others.map rank = outlines.map rank := by
    induction h with
    | nil => rfl
    | cons head tail ih => rw [List.map_cons, List.map_cons, head.rank, ih]
  unfold goal
  split
  · rw [← List.head?_map, ← List.head?_map, ranks]
  · rw [← @List.foldl_map _ _ _ rank max, ← @List.foldl_map _ _ _ rank max, ranks]

/-- Past a layer arguments that looked alike still do. The layer treats both alike, because it wraps
both or none.
-/
theorem Agree.past (goal : Nat) (h : Agree (layer :: below) outline other)
    : Agree below (outline.past goal layer below) (other.past goal layer below) := by
  have own := h.wrappers layer List.mem_cons_self
  unfold Outline.past
  simp only [h.rank, own]
  split
  · split
    · refine ⟨rfl, fun lower member => ?_⟩
      simp only [List.mem_append, h.lower.wrappers lower member]
    · exact ⟨rfl, h.lower.wrappers⟩
  · exact h.lower

/-- Past a differentiation layer nothing looks different. -/
theorem past_differentiation (goal : Nat) (kind : layer.kind = .differentiation)
    : outline.past goal layer below = outline := by
  unfold past
  rw [if_neg]
  simp [kind]

/-- An argument that a layer does not wrap looks the same past it. -/
theorem past_of_not_mem (goal : Nat) (bare : layer.wraps ∉ outline.wrappers)
    : outline.past goal layer below = outline := by
  unfold past
  rw [if_neg]
  exact fun own => bare own.2

/-- If every argument looks the same past a layer, they all do together. -/
theorem map_past {goal : Nat}
    (same : ∀ outline ∈ outlines, outline.past goal layer below = outline)
    : outlines.map (past goal layer below) = outlines :=
  (List.map_congr_left same).trans (List.map_id' outlines)

/-- Whether some argument has a certain kind of layer as the uppermost one is the same for lists
that look alike.
-/
theorem exists_foremost (kind : TransformKind) (h : List.Forall₂ (Agree layers) outlines others)
    : (∃ outline ∈ others, outline.foremost? layers = some kind)
      ↔ ∃ outline ∈ outlines, outline.foremost? layers = some kind := by
  induction h with
  | nil => rfl
  | cons head tail ih => simp only [List.exists_mem_cons_iff, head.foremost?_eq, ih]

end Outline

/-- Arguments that look alike to the layers take a call the same way. The induction is on the
layers: the top one runs its body for both or for none, and past it they look alike to the layers
below.
-/
theorem Layer.path_congr (h : List.Forall₂ (Outline.Agree layers) outlines others)
    : Layer.path name layers others = Layer.path name layers outlines := by
  induction layers generalizing outlines others with
  | nil => rfl
  | cons layer below ih =>
      have body : layer.body? below name others = layer.body? below name outlines := by
        unfold body?
        cases layer.kind with
        | differentiation =>
            cases h with
            | nil => rfl
            | cons head tail => rfl
        | batching => simp only [Outline.exists_foremost .batching h]
      unfold path
      rw [body, Outline.goal_congr h]
      refine congrArg (fun rest => _ ++ Capability.exitInterceptor :: rest) (ih ?_)
      exact List.forall₂_map_right_iff.mpr
        (List.forall₂_map_left_iff.mpr (h.imp fun _ _ agree => agree.past _))

-----------------------------------------------------------------------------------------
-- Where a call is
-----------------------------------------------------------------------------------------

namespace Ambient

variable {ambient : Ambient}

/-- Below all layers only the base is left. -/
theorem route_base (inactive : ambient.layers = []) : ambient.route name outlines = [.backend] := by
  unfold route
  rw [inactive]

/-- Where the entry interceptor is forced on, a call is in front of the top layer, with the whole
way to go.
-/
theorem route_front (front : ambient.overlay.forces .entryInterceptor)
    : ambient.route name outlines = Layer.path name ambient.layers outlines := by
  unfold route
  cases ambient.layers with
  | nil => rfl
  | cons layer below =>
      dsimp only
      rw [front.2, if_neg Bool.false_ne_true]

/-- Below a layer a call is in front of the next layer, or below all of them. -/
theorem route_leave (layer : Layer) (below : List Layer)
    : (ambient.leave layer below).route name outlines = Layer.path name below outlines := by
  cases below with
  | nil => exact route_base rfl
  | cons next rest => exact route_front (Overlay.front_forces _)

/-- In the body of a layer a call goes past it once what is pending is done. -/
theorem route_inBody (top : ambient.layers = layer :: below)
    (entered : ambient.overlay.excluded.contains .entryInterceptor = true)
    : ambient.route name outlines
      = layer.pending below ambient.overlay name outlines
        ++ .exitInterceptor
          :: Layer.path name below
            (outlines.map (Outline.past (Outline.goal name outlines) layer below)) := by
  unfold route
  rw [top]
  exact if_pos entered

/-- Once the layer has done its part, a call goes on past it. -/
theorem route_past (top : ambient.layers = layer :: below)
    (entered : ambient.overlay.excluded.contains .entryInterceptor = true)
    (done : layer.pending below ambient.overlay name outlines = [])
    (agree
      : List.Forall₂ (Outline.Agree below)
          (outlines.map (Outline.past (Outline.goal name outlines) layer below)) others)
    : ambient.route name outlines = .exitInterceptor :: Layer.path name below others := by
  rw [route_inBody top entered, done, List.nil_append, Layer.path_congr agree]

end Ambient

-----------------------------------------------------------------------------------------
-- What a tensor looks like
-----------------------------------------------------------------------------------------

/-- The live wrappers of a tensor that fits are those of some of the layers, in their order. -/
theorem Tensor.Fits.owned (fits : tensor.Fits heap layers)
    : (tensor.liveWrappers heap).Sublist (layers.map Layer.wraps) := by
  induction fits with
  | dense present sized => exact List.nil_sublist _
  | alone fits ih => exact ih.cons _
  | tagged kind alive present accurate fits ih =>
      rw [liveWrappers, if_pos alive, List.map_cons, Layer.wraps, kind]
      exact ih.cons_cons _
  | @batched layer _ _ _ _ batch outermost fits ih =>
      rw [Layer.wraps_batched (Layer.kind_of_batchSize? batch), List.map_cons]
      exact ih.cons_cons _

/-- A tensor that fits the layers below is not wrapped by the one above them. -/
theorem Tensor.Fits.not_wrapped (fits : tensor.Fits heap below)
    (levelled : Layer.Levelled (layer :: below))
    : layer.wraps ∉ tensor.liveWrappers heap :=
  fun member => levelled.not_mem_wraps (fits.owned.subset member)

/-- A tensor carries the hook of the uppermost layer that wraps it, and no other one. The wrappers
inside do not show, because a tensor carries the hook of its outermost live wrapper alone.
-/
theorem Tensor.Fits.carries_iff (fits : tensor.Fits heap layers) (levelled : Layer.Levelled layers)
    (kind : TransformKind)
    : (tensor.capabilities heap).contains kind.hook = true
      ↔ (tensor.outline heap).foremost? layers = some kind := by
  unfold Outline.foremost? outline
  induction fits with
  | dense present sized =>
      cases kind <;> simp [Tensor.capabilities, CapabilitySet.only, TransformKind.hook]
  | alone fits ih =>
      rw [List.find?_cons_of_neg]
      · exact ih levelled.2
      · simpa using fits.not_wrapped levelled
  | @tagged layer _ _ _ _ own alive present accurate fits ih =>
      have first : layer.wraps = (.differentiation, layer.level) := by rw [Layer.wraps, own]
      rw [List.find?_cons_of_pos]
      · cases kind <;>
          simp [Tensor.capabilities, alive, TransformKind.hook, own, CapabilitySet.ofList]
      · simp [liveWrappers, alive, first]
  | @batched layer _ _ _ _ batch outermost fits ih =>
      have own := Layer.kind_of_batchSize? batch
      rw [List.find?_cons_of_pos]
      · cases kind <;> simp [Tensor.capabilities, CapabilitySet.only, TransformKind.hook, own]
      · simp [Layer.wraps_batched own]

/-- Some argument carries the hook of the uppermost layer that wraps it. -/
theorem Machine.Supplied.carries_iff {op : Schema} {outer : List Value} {budget : Nat}
    (supplied : machine.Supplied budget op layers outer arguments)
    (levelled : Layer.Levelled layers) (kind : TransformKind)
    : machine.Carries op kind.hook
      ↔ ∃ outline ∈ Value.outlines machine.heap arguments, outline.foremost? layers = some kind := by
  unfold Machine.Carries Value.outlines
  rw [Machine.lastValues_append supplied.values supplied.size,
    contains_carried (by cases kind <;> decide), List.any_eq_true]
  simp only [List.mem_map, exists_exists_and_eq_and]
  exact exists_congr fun tensor => and_congr_right fun member =>
    (supplied.fits tensor member).carries_iff levelled kind

-----------------------------------------------------------------------------------------
-- Past interceptors
-----------------------------------------------------------------------------------------

/-- What a layer has received in the place of an argument: under differentiation it is wrapped by the
layer, otherwise nothing has changed.
-/
structure Outline.Entered (layer : Layer) (below : List Layer) (outline other : Outline) : Prop
    extends Outline.Agree below outline other where
  own
    : layer.wraps ∈ other.wrappers
      ↔ layer.kind = .differentiation ∨ layer.wraps ∈ outline.wrappers

/-- A tag of one layer does not change whether another layer wraps the tensor. -/
theorem Tensor.mem_liveWrappers_tagged {wrapper : TransformKind × Level} {cell level flag : Nat}
    (apart : wrapper ≠ (.differentiation, level))
    : wrapper ∈ (Tensor.tagged cell level flag tensor).liveWrappers heap
      ↔ wrapper ∈ tensor.liveWrappers heap := by
  rw [liveWrappers]
  split
  · rw [List.mem_cons, or_iff_right apart]
  · exact Iff.rfl

/-- Tags around a tensor that fits the layers are alive, so they are among its live wrappers. -/
theorem Tensor.Fits.mem_of_tagged (fits : tensor.Fits heap layers) {level : Level}
    (tagged : tensor.taggedLevel? = some level)
    : (.differentiation, level) ∈ tensor.liveWrappers heap := by
  cases tensor with
  | dense cell => cases tagged
  | batched handle own value => cases tagged
  | tagged cell own flag value =>
      cases tagged
      obtain ⟨-, alive, -⟩ := fits.suits
      rw [liveWrappers, if_pos alive]
      exact List.mem_cons_self

/-- Without a tag of another layer a tensor looks alike to the layers below, to which that tag does
not belong.
-/
theorem Tensor.Untagged.agree (h : tensor.Untagged layer.level result)
    (levelled : Layer.Levelled (layer :: below)) (flags : after.flags = before.flags)
    (shape : result.shape after = tensor.shape before)
    : Outline.Agree below (tensor.outline before) (result.outline after) := by
  refine ⟨congrArg Shape.rank shape, fun lower member => ?_⟩
  have apart : lower.wraps ≠ (.differentiation, layer.level) := fun same =>
    levelled.below_ne member (congrArg Prod.snd same)
  change lower.wraps ∈ result.liveWrappers after ↔ lower.wraps ∈ tensor.liveWrappers before
  rw [Tensor.liveWrappers_congr flags]
  rcases h with rfl | ⟨cell, flag, rfl⟩
  · exact Iff.rfl
  · exact (Tensor.mem_liveWrappers_tagged apart).symm

/-- What a layer receives has been entered: a differentiation layer has tagged it, and a batching
layer has left it as it was but for dead tags.
-/
theorem Layer.Receives.entered (h : layer.Receives tensor result)
    (levelled : Layer.Levelled (layer :: below)) (flags : after.flags = before.flags)
    (shape : result.shape after = tensor.shape before) (fits : result.Fits after (layer :: below))
    : Outline.Entered layer below (tensor.outline before) (result.outline after) := by
  have tagged (kind : layer.kind = .differentiation) (found : result.taggedLevel? = some layer.level)
      : layer.wraps ∈ result.liveWrappers after := by
    rw [Layer.wraps, kind]
    exact fits.mem_of_tagged found
  have same := Tensor.liveWrappers_congr flags tensor
  refine ⟨⟨congrArg Shape.rank shape, fun lower member => ?_⟩, ?_⟩
  · have apart : lower.wraps ≠ (.differentiation, layer.level) := fun same =>
      levelled.below_ne member (congrArg Prod.snd same)
    change lower.wraps ∈ result.liveWrappers after ↔ lower.wraps ∈ tensor.liveWrappers before
    rw [← same]
    cases h with
    | same tagged => exact Iff.rfl
    | tagged kind cell flag => exact Tensor.mem_liveWrappers_tagged apart
  · change layer.wraps ∈ result.liveWrappers after
      ↔ layer.kind = .differentiation ∨ layer.wraps ∈ tensor.liveWrappers before
    rw [← same]
    cases h with
    | same found =>
        exact ⟨.inr, fun given => given.elim (fun kind => tagged kind (found kind)) id⟩
    | tagged kind cell flag => exact ⟨fun _ => .inl kind, fun _ => tagged kind rfl⟩

/-- Relations between tensors carry over to what the layers see of them. -/
theorem Value.RelatedAll.look {relation : Tensor → Tensor → Prop}
    {looks : Outline → Outline → Prop} (related : Value.RelatedAll relation arguments inner)
    (implies
      : ∀ tensor result,
          relation tensor result → looks (tensor.outline before) (result.outline after))
    : List.Forall₂ looks (Value.outlines before arguments) (Value.outlines after inner) :=
  List.forall₂_map_right_iff.mpr
    (List.forall₂_map_left_iff.mpr (related.tensors.imp fun tensor result => implies tensor result))

/-- To a batching layer itself the arguments look as before. -/
theorem Outline.Entered.agree_batching (h : Outline.Entered layer below outline other)
    (kind : layer.kind = .batching)
    : Outline.Agree (layer :: below) outline other := by
  refine ⟨h.rank, List.forall_mem_cons.mpr ⟨h.own.trans (or_iff_right ?_), h.wrappers⟩⟩
  rw [kind]
  exact nofun

/-- In the body of a layer arguments are looked at that the layer has received. So the body of a
differentiation layer runs for every tensor argument, and that of a batching layer for those that it
has batched itself.
-/
theorem Layer.pending_entered (overlay : Overlay)
    (entered : List.Forall₂ (Outline.Entered layer below) outlines others)
    : layer.pending below (layer.kind.entryOverlay overlay) name others
      = (layer.body? below name outlines).toList := by
  unfold pending body?
  cases kind : layer.kind with
  | differentiation =>
      dsimp only
      cases entered with
      | nil => simp
      | @cons outline other _ _ head tail =>
          have first : other.foremost? (layer :: below) = some .differentiation := by
            unfold Outline.foremost?
            rw [List.find?_cons_of_pos (by simpa using head.own.mpr (.inl kind)), Option.map_some,
              kind]
          rw [if_pos ⟨TransformKind.entryOverlay_differentiation _, other, List.mem_cons_self, first⟩]
          rfl
  | batching =>
      dsimp only
      rw [TransformKind.entryOverlay_shown]
      have agree := entered.imp fun _ _ h => h.agree_batching kind
      simp only [Outline.exists_foremost .batching agree, true_and]
      split
      · simp [TransformKind.entryOverlay, Overlay.enable]
      · split <;> rfl

/-- In front of a layer a call goes to the entry interceptor, and then the way from the body. -/
theorem Layer.path_entered {ambient : Ambient} (top : ambient.layers = layer :: below)
    (entered : List.Forall₂ (Outline.Entered layer below) outlines others)
    : Layer.path name (layer :: below) outlines
      = .entryInterceptor :: (ambient.enter layer.kind).route name others := by
  have agree := entered.imp fun _ _ => Outline.Entered.toAgree
  have rest
      : Layer.path name below (others.map (Outline.past (Outline.goal name others) layer below))
        = Layer.path name below
            (outlines.map (Outline.past (Outline.goal name outlines) layer below)) := by
    rw [Outline.goal_congr agree]
    apply Layer.path_congr
    refine List.forall₂_map_right_iff.mpr (List.forall₂_map_left_iff.mpr (entered.imp ?_))
    intro outline other h
    cases kind : layer.kind with
    | differentiation =>
        rw [Outline.past_differentiation _ kind, Outline.past_differentiation _ kind]
        exact h.toAgree
    | batching => exact (h.agree_batching kind).past _
  have inside : (ambient.enter layer.kind).layers = layer :: below := top
  rw [Ambient.route_inBody inside (layer.kind.entryOverlay_inBody _).entry, Layer.path, rest]
  exact congrArg (fun body => Capability.entryInterceptor :: (body ++ _))
    (Layer.pending_entered _ entered).symm

end

end LayeredDispatch
