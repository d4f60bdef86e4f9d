import LayeredDispatch.Proofs.Traces.Interceptors

/-! The way of a call through the rules of batching layers. Main statement: what a rule adds to the
trace is the node of the call that it hands on, after nodes of the calls by which it pads, and of what
it hands on the layers below see as much as of its own arguments.
-/

namespace LayeredDispatch

open Run Dispatcher

/-- A call that the rule of a batching layer handles, and the state in which the rule hands it on. The
hook of the layer is hidden there, and the arguments have been taken.
-/
structure Machine.Ruling (machine held : Machine) (budget : Nat) (op : Schema) (layer : Layer)
    (below : List Layer) (outer arguments : List Value)
    : Prop where
  supplied : machine.Supplied (budget + 1) op (layer :: below) outer arguments
  within : machine.InBody layer below
  kind : layer.kind = .batching
  drawless : op.name ≠ "rand"
  shown : machine.thread.overlay.excluded.contains .batched = false
  pending
    : layer.pending below machine.ambient.overlay op.name (Value.outlines machine.heap arguments)
      = [.batched]
  atHeld
    : Machine.Shifted { machine with values := outer } (machine.ambient.hide (.only .batched)) held

section

variable {machine held reached : Machine} {op : Schema} {below : List Layer} {layer : Layer}
  {arguments inner outer : List Value} {tensors : List Tensor} {budget : Nat} {heap : Heap}

/-- A call that carries batches to the body of a batching layer is one for its rule to hand on. -/
theorem Machine.Supplied.ruling
    (supplied : machine.Supplied (budget + 1) op (layer :: below) outer arguments)
    (within : machine.InBody layer below) (kind : layer.kind = .batching)
    (shown : machine.thread.overlay.excluded.contains .batched = false)
    (carries : machine.Carries op .batched) (drawless : op.name ≠ "rand")
    (atHeld
      : Machine.Shifted { machine with values := outer } (machine.ambient.hide (.only .batched))
          held)
    : machine.Ruling held budget op layer below outer arguments where
  supplied := supplied
  within := within
  kind := kind
  drawless := drawless
  shown := shown
  pending := by
    rw [Layer.pending_batching kind, if_neg drawless]
    exact if_pos ⟨shown, (supplied.carries_iff within.grounded.levelled .batching).mp carries⟩
  atHeld := atHeld

namespace Machine.Ruling

theorem heap_eq (ruling : machine.Ruling held budget op layer below outer arguments)
    : held.heap = machine.heap :=
  ruling.atHeld.heap

/-- Under the guard of the rule the state serves calls on what the layers below own. -/
theorem serves (ruling : machine.Ruling held budget op layer below outer arguments)
    : held.Serves below budget :=
  ruling.supplied.serves ruling.within ruling.kind ruling.shown ruling.drawless ruling.atHeld

/-- The hook of the layer stays hidden until the rule has handed on its call, since whatever happens
in between hands the state back.
-/
theorem excluded (ruling : machine.Ruling held budget op layer below outer arguments)
    (resumes : held.Resumes reached)
    : reached.thread.overlay.excluded = machine.thread.overlay.excluded ∪ .only .batched := by
  rw [resumes.excluded]
  exact congrArg (fun ambient : Ambient => ambient.overlay.excluded) ruling.atHeld.ambient

/-- From the rule a call goes past the layer, with what is handed on in the place of its arguments.
The hook is pending before and hidden after, and the arguments that are handed on look to the layers
below as `Outline.past` says.
-/
theorem route_eq (ruling : machine.Ruling held budget op layer below outer arguments)
    (resumes : held.Resumes reached)
    (lowered
      : Value.Lowered layer below (Outline.goal op.name (Value.outlines machine.heap arguments))
          machine.heap arguments reached.heap inner)
    : machine.ambient.route op.name (Value.outlines machine.heap arguments)
      = .batched :: reached.ambient.route op.name (Value.outlines reached.heap inner) := by
  have levelled := ruling.within.grounded.levelled
  have excluded := ruling.excluded resumes
  have top : machine.ambient.layers = layer :: below := ruling.within.top
  have top' : reached.ambient.layers = layer :: below := by
    refine resumes.layers.trans (Eq.trans ?_ top)
    exact congrArg Ambient.layers ruling.atHeld.ambient
  have entered : reached.ambient.overlay.excluded.contains .entryInterceptor = true := by
    have inside := ruling.within.inBody.entry
    change reached.thread.overlay.excluded.contains .entryInterceptor = true
    rw [excluded]
    simp [inside]
  have done
      : layer.pending below reached.ambient.overlay op.name (Value.outlines reached.heap inner)
        = [] := by
    rw [Layer.pending_batching ruling.kind, if_neg ruling.drawless]
    refine if_neg fun both => ?_
    have shown : reached.thread.overlay.excluded.contains .batched = false := both.1
    rw [excluded] at shown
    simp [CapabilitySet.only] at shown
  have same
      : List.Forall₂ (Outline.Agree below)
          ((Value.outlines reached.heap inner).map
            (Outline.past (Outline.goal op.name (Value.outlines reached.heap inner)) layer below))
          (Value.outlines reached.heap inner) := by
    rw [Value.outlines_past levelled _ lowered.fits]
    exact List.forall₂_same.mpr fun outline _ => .refl below outline
  rw [Ambient.route_inBody top ruling.within.inBody.entry, ruling.pending,
    Ambient.route_past top' entered done same, ← Layer.path_congr lowered.agree]
  rfl

end Machine.Ruling

/-- A rule leads its call the way of the call that it hands on, after the insertions by which it has
padded.
-/
theorem Contract.Holds.appends_lowered (holds : Contract.traces.Holds budget)
    (ruling : machine.Ruling held budget op layer below outer arguments)
    (resumes : held.Resumes reached) (values : reached.values = outer)
    (size : inner.length = op.arity)
    (lowered
      : Value.Lowered layer below (Outline.goal op.name (Value.outlines machine.heap arguments))
          machine.heap arguments reached.heap inner)
    {padding : List TraceNode} (padded : ∀ node ∈ padding, node.op = "unsqueeze")
    : ((nested budget).dispatch op).Appends { reached with values := reached.values ++ inner }
        fun nodes =>
          TraceNode.Follows op.name
            (machine.ambient.route op.name (Value.outlines machine.heap arguments))
            ⟨op.name, .batched, padding ++ nodes⟩ := by
  have serves := (ruling.serves.resumes resumes).withValues (reached.values ++ inner)
  have supplied := serves.supplied ruling.supplied.member ruling.drawless
    (congrArg (· ++ inner) values) size lowered.fits
  have way := ruling.route_eq resumes lowered
  exact holds.appends supplied (fun node member => ⟨rfl, padded node member⟩) way

-----------------------------------------------------------------------------------------
-- Element-wise operators
-----------------------------------------------------------------------------------------

/-- Element-wise operators are given tensors, and nothing else. -/
theorem Schema.Typed.exists_tensors (typed : op.Typed arguments)
    (named : op.name ∈ ["add", "mul", "neg"])
    : ∃ tensors : List Tensor, arguments = tensors.map .tensor := by
  obtain ⟨request, rfl, rfl⟩ := typed (List.mem_append_left ["unsqueeze"] named)
  cases request with
  | binary op left right => exact ⟨[left, right], rfl⟩
  | neg input => exact ⟨[input], rfl⟩
  | unsqueeze input dim => exact absurd named (of_decide_eq_false rfl)

/-- The rank up to which the rule pads is the greatest one among the arguments, as the layers see
it.
-/
theorem Batching.logicalRank_tensors {name : String} (heap : Heap) (tensors : List Tensor)
    (named : name ≠ "add_")
    : logicalRank heap (tensors.map .tensor)
      = Outline.goal name (Value.outlines heap (tensors.map .tensor)) := by
  have only : (tensors.map Value.tensor).filterMap Value.tensor? = tensors := by
    rw [List.filterMap_map]
    exact List.filterMap_some
  unfold logicalRank Outline.goal Value.outlines
  rw [if_neg named, only, Value.tensorsAll_map_tensor, List.foldl_map]
  rfl

/-- The rule for element-wise operators pads its arguments one after another and hands its call on
with them. Wrapping the results does nothing to the trace.
-/
theorem leads_pointwise (holds : Contract.traces.Holds budget) (poses : machine.Poses op)
    (within : machine.InBody layer below) (kind : layer.kind = .batching)
    (shown : machine.thread.overlay.excluded.contains .batched = false)
    (carries : machine.Carries op .batched) (named : op.name ∈ ["add", "mul", "neg"])
    : Kernel.Leads budget (layer :: below) op machine .batched Batching.pointwise := by
  intro outer arguments supplied
  have levelled := within.grounded.levelled
  obtain ⟨size, batch⟩ := Layer.exists_batchSize? kind
  have drawless : op.name ≠ "rand" := by
    intro same
    simp [same] at named
  have written : op.name ≠ "add_" := by
    intro same
    simp [same] at named
  -- Only where the base operator has been given tensors is there anything to show.
  refine .of_ok fun _ _ ended => ?_
  obtain ⟨-, _, -, wraps⟩ := Ends.of_ok
    (wraps_pointwise (Contract.wraps_kept.holds budget) poses within kind named supplied.registered)
    ended
  have typed := wraps.typed
  rw [Machine.lastValues_append supplied.values supplied.size] at typed
  obtain ⟨tensors, rfl⟩ := typed.exists_tensors named
  have fits := supplied.fits
  rw [Value.tensorsAll_map_tensor] at fits
  refine .step silent_writing.currentLayer (currentLayer_apply within.top) ?_
  refine .step (silent_writing.pop _) supplied.popping ?_
  refine .step (silent_read _) rfl ?_
  refine .holding (moves_hide _ _) (silent_layering.hide _) ?_
  intro held atHeld
  have ruling := supplied.ruling within kind shown carries drawless atHeld
  rw [← ruling.heap_eq] at fits
  refine Appends.bind (appends_lowerAll holds ruling.serves fits levelled batch) ?_
  intro inner reached padding ended padded
  obtain ⟨resumes, values, -, related⟩ := Ends.of_ok
    (leaves_lowerAll ruling.serves fits levelled batch) ended
  have lowered
      : Value.Lowered layer below
          (Outline.goal op.name (Value.outlines machine.heap (tensors.map .tensor))) machine.heap
          (tensors.map .tensor) reached.heap inner := by
    rw [← Batching.logicalRank_tensors machine.heap tensors written]
    exact ruling.heap_eq ▸ related.tensors
  refine .step (silent_writing.pushAll _) rfl ?_
  refine (holds.appends_lowered ruling resumes (values.trans atHeld.values)
    (related.length_eq.trans supplied.size) lowered padded).then fun _ => ?_
  exact silent_writing.ite (silent_writing.wrapResults _ _) (silent_pure _)

-----------------------------------------------------------------------------------------
-- The other rules
-----------------------------------------------------------------------------------------

/-- The rule for a new dimension hands its call on with a moved position. It pads nothing, so the
call below is the only node that it adds.
-/
theorem leads_unsqueeze (holds : Contract.traces.Holds budget) (within : machine.InBody layer below)
    (kind : layer.kind = .batching)
    (shown : machine.thread.overlay.excluded.contains .batched = false)
    (carries : machine.Carries Base.schemas[5] .batched)
    : Kernel.Leads budget (layer :: below) Base.schemas[5] machine .batched Batching.unsqueeze := by
  intro outer arguments supplied
  have levelled := within.grounded.levelled
  obtain ⟨batchSize, batch⟩ := Layer.exists_batchSize? kind
  have size : arguments.length = 2 := supplied.size
  refine .step silent_writing.currentLayer (currentLayer_apply within.top) ?_
  refine .step (silent_writing.pop 2) supplied.popping ?_
  refine .lift fun input inputAt => .lift fun dim dimAt => ?_
  obtain rfl := Value.eq_pair size (Value.tensorAt_ok inputAt) (Value.intAt_ok dimAt)
  refine .holding (moves_hide _ _) (silent_layering.hide _) ?_
  intro held atHeld
  have ruling := supplied.ruling within kind shown carries (by decide) atHeld
  have fits := supplied.fits input List.mem_cons_self
  have goal
      : Outline.goal "unsqueeze" (Value.outlines machine.heap [.tensor input, .int dim])
        = (input.shape machine.heap).rank :=
    Nat.zero_max _
  have called {physical : Tensor} (place : Int)
      (lowered
        : input.Lowered layer below (input.shape machine.heap).rank machine.heap machine.heap
            physical)
      : ((nested budget).dispatch Base.schemas[5]).Appends
          { held with values := held.values ++ [.tensor physical, .int place] }
          fun nodes =>
            TraceNode.Follows "unsqueeze"
              (machine.ambient.route "unsqueeze"
                (Value.outlines machine.heap [.tensor input, .int dim]))
              ⟨"unsqueeze", .batched, nodes⟩ := by
    refine holds.appends_lowered ruling (.refl held) atHeld.values rfl ?_ (List.forall_mem_nil _)
    rw [show Base.schemas[5].name = "unsqueeze" from rfl, goal, ruling.heap_eq]
    exact .cons lowered .nil
  cases found : input.physicalAt? layer.level with
  | some physical =>
      refine .step (silent_read _) rfl ?_
      dsimp only
      split
      · refine .step (silent_writing.pushAll _) rfl ?_
        exact (called (dim + 1) (.full fits levelled batch found (Nat.le_refl _))).then fun _ =>
          silent_writing.wrapResults 1 layer.level
      · exact .of_error (fail_apply _ _)
  | none =>
      refine .step (silent_writing.pushAll _) rfl ?_
      exact called dim (.shared fits levelled kind found)

/-- The rule for sums in place takes the wrapper off its target and pads its addend, if that is a
batch, up to the rank of the target. Where the addend is no batch it is handed on as it is.
-/
theorem leads_addInPlace (holds : Contract.traces.Holds budget)
    (within : machine.InBody layer below) (kind : layer.kind = .batching)
    (shown : machine.thread.overlay.excluded.contains .batched = false)
    (carries : machine.Carries Base.schemas[8] .batched)
    : Kernel.Leads budget (layer :: below) Base.schemas[8] machine .batched
        Batching.addInPlace := by
  intro outer arguments supplied
  have levelled := within.grounded.levelled
  obtain ⟨batchSize, batch⟩ := Layer.exists_batchSize? kind
  have size : arguments.length = 2 := supplied.size
  refine .step silent_writing.currentLayer (currentLayer_apply within.top) ?_
  refine .step (silent_writing.pop 2) supplied.popping ?_
  refine .lift fun target targetAt => .lift fun other otherAt => ?_
  obtain rfl := Value.eq_pair size (Value.tensorAt_ok targetAt) (Value.tensorAt_ok otherAt)
  refine .holding (moves_hide _ _) (silent_layering.hide _) ?_
  intro held atHeld
  have ruling := supplied.ruling within kind shown carries (by decide) atHeld
  obtain ⟨fits, fitsOther⟩ := List.forall_mem_cons.mp supplied.fits
  have fitsOther := fitsOther other List.mem_cons_self
  have called {reached : Machine} {first second : Tensor} {padding : List TraceNode}
      (resumes : held.Resumes reached) (values : reached.values = outer)
      (grows : machine.heap.Grows reached.heap)
      (lowered
        : target.Lowered layer below (target.shape machine.heap).rank machine.heap machine.heap
            first)
      (loweredOther
        : other.Lowered layer below (target.shape machine.heap).rank machine.heap reached.heap
            second)
      (padded : ∀ node ∈ padding, node.op = "unsqueeze")
      : ((nested budget).dispatch Base.schemas[8]).Appends
          { reached with values := reached.values ++ [.tensor first, .tensor second] }
          fun nodes =>
            TraceNode.Follows "add_"
              (machine.ambient.route "add_"
                (Value.outlines machine.heap [.tensor target, .tensor other]))
              ⟨"add_", .batched, padding ++ nodes⟩ := by
    refine holds.appends_lowered ruling resumes values rfl ?_ padded
    exact .cons (lowered.grows grows) (.cons loweredOther .nil)
  have heap := ruling.heap_eq
  have grows : machine.heap.Grows held.heap := heap ▸ .refl machine.heap
  have shared (alone : other.physicalAt? layer.level = none)
      : other.Lowered layer below (target.shape machine.heap).rank machine.heap held.heap other :=
    (Tensor.Lowered.shared fitsOther levelled kind alone).grows grows
  cases found : target.physicalAt? layer.level with
  | none =>
      cases foundOther : other.physicalAt? layer.level with
      | some batch => exact .of_error (fail_apply _ _)
      | none =>
          refine .step (silent_writing.pushAll _) rfl ?_
          exact called (.refl held) atHeld.values grows (.shared fits levelled kind found)
            (shared foundOther) (List.forall_mem_nil _)
  | some physical =>
      refine .step (silent_read _) rfl ?_
      have full := Tensor.Lowered.full fits levelled batch found (Nat.le_refl _)
      cases foundOther : other.physicalAt? layer.level with
      | none =>
          refine .step (silent_pure other) rfl (.step (silent_writing.pushAll _) rfl ?_)
          exact (called (.refl held) atHeld.values grows full (shared foundOther)
            (List.forall_mem_nil _)).then fun _ => silent_writing.replaceLast _
      | some batch' =>
          rw [← heap] at fitsOther
          refine (appends_padToRank holds ruling.serves fitsOther levelled batch foundOther).bind ?_
          intro padded reached padding ended issued
          obtain ⟨resumes, values, grown, lowered⟩ := Ends.of_ok
            (leaves_padToRank ruling.serves fitsOther levelled batch foundOther) ended
          rw [heap] at grown lowered
          refine .step (silent_writing.pushAll _) rfl ?_
          refine (called resumes (values.trans atHeld.values) grown full ?_ issued).then fun _ =>
            silent_writing.replaceLast _
          exact heap ▸ lowered

/-- Random numbers are drawn for no tensors, so that there is nothing to see of their arguments. The
rule hands its call on with a larger shape, under a guard that hides the mode.
-/
theorem leads_random (holds : Contract.traces.Holds budget) (within : machine.InBody layer below)
    (kind : layer.kind = .batching) (forces : machine.thread.overlay.forces .batchMode)
    (shown : machine.thread.overlay.excluded.contains .batched = false)
    : Kernel.Leads budget (layer :: below) (Base.factorySchema "rand") machine .batchMode
        Batching.random := by
  intro outer arguments supplied
  have size : arguments.length = 1 := supplied.size
  refine .step silent_writing.currentLayer (currentLayer_apply within.top) ?_
  refine .holding (moves_hide _ machine) (silent_layering.hide _) ?_
  intro held atHeld
  have hidden : held.ambient = machine.ambient.hide (.only .batchMode) := atHeld.ambient
  have calling := within.hideBatchMode kind shown supplied.member hidden
  have registered : held.Registered := supplied.registered.shifted atHeld fun _ active => active
  have values : held.values = outer ++ arguments := atHeld.values.trans supplied.values
  have heap : held.heap = machine.heap := atHeld.heap
  have way (outlines : List Outline)
      : machine.ambient.route "rand" outlines
        = .batchMode :: held.ambient.route "rand" outlines := by
    rw [hidden]
    refine Ambient.route_hide within.top within.inBody.entry ?_ ?_
    · rw [Layer.pending_batching kind, if_pos rfl]
      exact if_pos forces
    · rw [Layer.pending_batching kind, if_pos rfl]
      refine if_neg fun both => ?_
      simp [Ambient.hide, CapabilitySet.only] at both
  split
  · exact .of_error (fault_apply _ _)
  · exact .of_error (fail_apply _ _)
  · have handed
        : machine.HandsOn held budget (Base.factorySchema "rand") (layer :: below) outer arguments
            arguments :=
      .of_same calling registered values size (fun drawless => absurd rfl drawless) heap
        supplied.fits
    refine holds.appends_only handed.supplied ?_
    rw [heap]
    exact way _
  · rename_i batch policy
    have popping : pop 1 held = .ok arguments { held with values := outer } := by
      rw [← size]
      exact pop_append values
    refine .step (silent_writing.pop 1) popping (.lift fun sizes sizesAt => ?_)
    obtain ⟨listed, first⟩ := Value.sizesAt_ok sizesAt
    obtain rfl : arguments = [.ints listed] := Value.eq_single size first
    let larger : Value := .ints ((batch :: sizes).map Size.toSigned)
    refine .step (silent_writing.push larger) rfl ?_
    let pushed : Machine := { held with values := outer ++ [larger] }
    have calling : pushed.Calling (Base.factorySchema "rand") (layer :: below) :=
      ⟨calling.member, calling.owning, calling.drawn⟩
    have supplied'
        : pushed.Supplied budget (Base.factorySchema "rand") (layer :: below) outer [larger] :=
      { calling with
        registered := registered
        values := rfl
        size := rfl
        fits := List.forall_mem_nil _
        steps := fun drawless => absurd rfl drawless }
    exact (holds.appends_only supplied' (way [])).then fun _ =>
      silent_writing.wrapResults 1 layer.level

end

end LayeredDispatch
