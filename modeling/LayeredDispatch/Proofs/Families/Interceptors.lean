import LayeredDispatch.Proofs.Families.Crossing

/-! The interceptors and the bodies of differentiation layers answer requests if the calls that they
issue do.
-/

namespace LayeredDispatch

open Run

section

variable {layers below : List Layer} {layer : Layer} {before after later : Heap}
  {request other : Request Tensor} {result stand : Tensor}

/-- What stands in for an answer is an answer, also with one more layer on top. The indices for more
layers are indices for fewer ones.
-/
theorem Request.Answered.standsFor (h : request.Answered below before after result)
    (stands : Tensor.StandsFor layers after result later stand)
    (subset : ∀ layer ∈ below, layer ∈ layers)
    : request.Answered layers before later stand where
  fits := stands.fits
  shape := by rw [h.shape, stands.shape]
  member index inBatches := by
    rw [h.member index fun layer member => inBatches layer (subset layer member), stands.member]

/-- An answer stays one as the heap grows. -/
theorem Request.Answered.grows (h : request.Answered layers before after result)
    (grows : after.Grows later)
    : request.Answered layers before later result :=
  h.standsFor (h.fits.grows grows) fun _ => id

/-- An answer of the layers below is one for the layer on top of them, which has left it alone. -/
theorem Request.Answered.above (h : request.Answered below before after result)
    : request.Answered (layer :: below) before after result :=
  h.standsFor ⟨.alone h.fits, rfl, fun _ => rfl⟩ fun _ => List.mem_cons_of_mem _

/-- Answers to a request of stand-ins are answers to the request itself, and so are refusals. -/
theorem Run.Answers.of_standsFor {inner : List Layer} {outer : List Value} {held : Machine}
    {body : Run Unit} (h : body.Answers other layers outer held)
    (related
      : request.Related (fun tensor => Tensor.StandsFor inner before tensor held.heap) other)
    (grows : before.Grows held.heap)
    : body.Meets held
        (fun _ values heap =>
          ∃ result,
            values = outer ++ [.tensor result]
            ∧ before.Grows heap
            ∧ request.Answered layers before heap result)
        (request.Refused before) := by
  refine Meets.mono h ?_ fun exit => Request.Refused.of_standsFor related
  rintro _ values heap ⟨result, left, grown, answered⟩
  exact ⟨result, left, grows.trans grown, answered.of_standsFor related⟩

/-- A computation that answers below a layer answers above it. -/
theorem Run.Answers.above {outer : List Value} {machine : Machine} {body : Run Unit}
    (h : body.Answers request below outer machine)
    : body.Answers request (layer :: below) outer machine := by
  refine Meets.mono h ?_ fun _ => id
  rintro _ values heap ⟨result, left, grows, answered⟩
  exact ⟨result, left, grows, answered.above⟩

/-- Visits that only let the heap grow, one after another, let it grow. Each of them may use that it
has only grown since the start.
-/
theorem Run.Meets.forTensors {machine : Machine} {failed : Exit → Prop}
    {visit : Tensor → Run Unit} {values : List Value}
    (each
      : ∀ tensor ∈ Value.tensorsAll values, ∀ start,
          machine.heap.Grows start.heap
          → (visit tensor).Meets start
              (fun _ values heap => values = start.values ∧ start.heap.Grows heap) failed)
    : (Run.forTensors values visit).Meets machine
        (fun _ values heap => values = machine.values ∧ machine.heap.Grows heap) failed := by
  unfold Run.forTensors
  generalize Value.tensorsAll values = tensors at each
  induction tensors generalizing machine with
  | nil => exact meets_pure ⟨rfl, .refl _⟩
  | cons tensor tensors ih =>
      have first := each tensor List.mem_cons_self machine (.refl _)
      refine first.bind ?_
      intro _ middle _ _ given
      rcases given with ⟨same, grows⟩
      have rest := @ih middle fun other member start later =>
        each other (List.mem_cons_of_mem _ member) start (grows.trans later)
      refine rest.mono ?_ fun _ => id
      rintro _ _ _ ⟨same', grows'⟩
      exact ⟨same'.trans same, grows.trans grows'⟩

end

section

variable {request : Request Tensor} {outer : List Value} {machine : Machine} {layer : Layer}
  {below : List Layer} {budget : Nat} {calls : Calls}

/-- None of the operators of requests is in place, so no check of captured values is made. -/
theorem Request.isInPlace_schema (request : Request Tensor) : request.schema.isInPlace = false := by
  cases request with
  | binary op left right => cases op <;> rfl
  | neg input => rfl
  | unsqueeze input dim => rfl

/-- Operands that are replaced by tensors that stand in for them. What stands in for an operand does
so while the heap grows for the others.
-/
theorem Run.Meets.mapLast_standsFor {layers inner : List Layer} {failed : Exit → Prop}
    {replace : Tensor → Run Tensor} (values : machine.values = outer ++ request.arguments)
    (fits : ∀ tensor ∈ request.operands, tensor.Fits machine.heap layers)
    (each
      : ∀ tensor start,
          machine.Resumes start
          → tensor.Fits start.heap layers
          → (replace tensor).Meets start
              (fun result values heap =>
                values = start.values
                ∧ start.heap.Grows heap
                ∧ Tensor.StandsFor inner start.heap tensor heap result)
              failed)
    : (Run.mapLast request.schema.arity replace).Meets machine
        (fun _ values heap =>
          ∃ other : Request Tensor,
            values = outer ++ other.arguments
            ∧ machine.heap.Grows heap
            ∧ request.Related
                (fun tensor => Tensor.StandsFor inner machine.heap tensor heap) other)
        failed := by
  refine Meets.mapLast values (fun tensor member start resumes _ grows => ?_)
    fun _ _ _ _ stands grows => Tensor.StandsFor.grows stands grows
  have stands := (fits tensor member).grows grows
  refine (each tensor start resumes stands.fits).mono ?_ fun _ => id
  rintro result _ heap ⟨same, grown, later⟩
  exact ⟨same, grown, stands.trans later⟩

/-- What stands in for the operands of a posed request makes a posed request. -/
theorem Request.Posed.of_standsFor {inner : List Layer} {outer' : List Value}
    {other : Request Tensor} {before : Heap} {held : Machine} (registered : held.Registered)
    (owners : held.ambient.Owners inner) (values : held.values = outer' ++ other.arguments)
    (related : request.Related (fun tensor => Tensor.StandsFor inner before tensor held.heap) other)
    : other.Posed inner outer' held :=
  ⟨owners, registered, values, related.right fun _ _ stands => stands.fits⟩

theorem Request.resultCount_schema (request : Request Tensor)
    : request.schema.resultCount = 1 := by
  cases request <;> rfl

-----------------------------------------------------------------------------------------
-- Entering a layer
-----------------------------------------------------------------------------------------

/-- The entry interceptor answers requests if the body of the top layer does. Receiving the operands
cannot fail, and what is received stands in for them.
-/
theorem answers_entryInterceptor (h : calls.Answering budget)
    (posed : request.Posed (layer :: below) outer machine)
    (top : machine.thread.layers = layer :: below) (grounded : Layer.Grounded (layer :: below))
    (front : machine.thread.overlay.forces .entryInterceptor)
    (steps : machine.ambient.steps ≤ budget + 1)
    : (entryInterceptor.run calls request.schema).Answers request (layer :: below) outer
        machine := by
  have unchecked (start : Machine)
      : refuseCapturedMutation request.schema layer start = .ok () start := by
    simp [refuseCapturedMutation, request.isInPlace_schema, pure_apply]
  refine (quiet_read _).step rfl ?_
  simp only [top, List.head?_cons]
  refine Quiet.step quiet_writing.renderLayers rfl ?_
  obtain ⟨log, noted⟩ := logDispatch_apply
    (.entering request.schema.name (Layer.renderStack machine.thread.layers.reverse)) machine
  refine (quiet_writing.logDispatch _).step noted ?_
  refine (quiet_writing.refuseCapturedMutation _ _).step (unchecked _) ?_
  let logged := { machine with thread := { machine.thread with log } }
  have noting : machine.Resumes logged := .of_eq rfl rfl rfl rfl
  have received
      : (Run.mapLast request.schema.arity (receive layer)).Meets logged
          (fun _ values heap =>
            ∃ other : Request Tensor,
              values = outer ++ other.arguments
              ∧ machine.heap.Grows heap
              ∧ request.Related
                  (fun tensor => Tensor.StandsFor (layer :: below) machine.heap tensor heap)
                  other)
          (request.Refused machine.heap) := by
    refine Meets.mapLast_standsFor posed.values posed.fits ?_
    intro tensor start resumes fits
    refine Meets.receive (posed.registered.resumes (noting.trans resumes)) ?_ grounded.levelled
      fits
    rw [resumes.layers]
    exact top ▸ List.mem_cons_self
  refine received.bind ?_
  intro _ received _ later left
  rcases left with ⟨other, values, grows, related⟩
  have resumes := noting.trans later
  refine (quiet_read _).step rfl ?_
  refine .holding (moves_replaceOverlay _ received) ?_
  intro held atHeld
  have layers : received.ambient.layers = layer :: below := resumes.layers.trans top
  rw [← atHeld.heap] at related grows
  have posed : other.Posed (layer :: below) outer held := by
    refine .of_standsFor ?_ ?_ (atHeld.values.trans values) related
    · exact (posed.registered.resumes resumes).shifted atHeld fun _ => id
    · rw [atHeld.ambient]
      exact .enter layers grounded
  have steps : held.ambient.steps ≤ budget := by
    have less := Ambient.steps_enter layers (front.resumes resumes)
    rw [Ambient.steps_resumes resumes] at less
    rw [atHeld.ambient]
    exact Nat.le_of_lt_succ (Nat.lt_of_lt_of_le less steps)
  rw [← related.schema_eq]
  exact (h.dispatch posed steps).of_standsFor related grows

-----------------------------------------------------------------------------------------
-- Leaving a layer
-----------------------------------------------------------------------------------------

/-- Visits that leave the state alone, one after another, leave it alone. -/
theorem Run.forTensors_apply {items : List Value} {visit : Tensor → Run Unit}
    (each : ∀ tensor ∈ Value.tensorsAll items, visit tensor machine = .ok () machine)
    : Run.forTensors items visit machine = .ok () machine := by
  unfold Run.forTensors
  generalize Value.tensorsAll items = tensors at each
  induction tensors with
  | nil => rfl
  | cons tensor tensors ih =>
      obtain ⟨first, others⟩ := List.forall_mem_cons.mp each
      change (visit tensor >>= fun _ => tensors.forM visit) machine = _
      rw [bind_apply, first]
      exact ih others

/-- Dense values pass the check in front of the base. -/
theorem Run.requireUnwrapped_apply {items : List Value} (name : String)
    (values : machine.values = outer ++ items)
    (dense : ∀ tensor ∈ Value.tensorsAll items, tensor.isDense = true)
    : requireUnwrapped name outer.length (outer.length + items.length) machine
      = .ok () machine := by
  unfold requireUnwrapped
  rw [bind_apply, read_apply]
  dsimp only
  rw [if_pos (by simp [values]), values, ← List.length_append, List.take_length,
    List.drop_left]
  refine Run.forTensors_apply ?_
  intro tensor member
  cases tensor with
  | dense cell => rfl
  | tagged cell level flag value => cases dense _ member
  | batched handle level value => cases dense _ member

/-- Arguments that fit the layers below are let through. Below the last layer they are dense, so the
check that the thread may ask for passes.
-/
theorem meets_overlayBelow {failed : Exit → Prop} {op : Schema} {items : List Value}
    (layer : Layer) (layers : machine.thread.layers = below)
    (values : machine.values = outer ++ items) (size : items.length = op.arity)
    (fits : ∀ tensor ∈ Value.tensorsAll items, tensor.Fits machine.heap below)
    : (overlayBelow op layer).Meets machine (fun _ _ _ => True) failed := by
  have leaving
      : (do
          logDispatch (.leaving op.name)
          return layer.saved).Meets machine (fun _ _ _ => True) failed := by
    obtain ⟨log, noted⟩ := logDispatch_apply (.leaving op.name) machine
    exact (quiet_writing.logDispatch _).step noted (meets_pure trivial)
  refine (quiet_read _).step rfl ?_
  cases below with
  | cons next rest =>
      rw [if_neg (by simp [layers])]
      exact (quiet_read _).step rfl (meets_pure trivial)
  | nil =>
      rw [if_pos (by simp [layers])]
      refine (quiet_read _).step rfl ?_
      split
      · rw [← size]
        refine (quiet_writing.lastStart _).step (lastStart_append values) ?_
        refine (quiet_writing.requireUnwrapped trivial _ _ _).step
          (requireUnwrapped_apply _ values ?_) leaving
        intro tensor member
        cases fits tensor member with
        | dense present sized => rfl
      · exact leaving

/-- A call that goes on below a layer is answered there, where fewer steps to the base are left. -/
theorem answers_dispatchBelow (h : calls.Answering budget) (registered : machine.Registered)
    (top : machine.thread.layers = layer :: below) (grounded : Layer.Grounded (layer :: below))
    (values : machine.values = outer ++ request.arguments)
    (fits : ∀ tensor ∈ request.operands, tensor.Fits machine.heap below)
    (steps : machine.ambient.steps ≤ budget + 1)
    : (dispatchBelow calls request.schema layer).Answers request below outer machine := by
  refine .dispatchBelow top grounded.levelled.1 (fun start layers same heap => ?_)
    fun held atHeld => ?_
  · refine meets_overlayBelow layer layers (same.trans values) request.length_arguments ?_
    rwa [request.tensorsAll_arguments, heap]
  · have posed : request.Posed below outer held := by
      refine ⟨?_, registered.shifted atHeld ?_, atHeld.values.trans values, ?_⟩
      · rw [atHeld.ambient]
        exact .leave top grounded
      · rw [top]
        exact fun _ => List.mem_cons_of_mem layer
      · rwa [atHeld.heap]
    rw [← atHeld.heap]
    refine h.dispatch posed (Nat.le_of_lt_succ (Nat.lt_of_lt_of_le ?_ steps))
    rw [atHeld.ambient]
    exact Ambient.steps_leave top

/-- The exit interceptor of a batching layer answers requests of operands that fit the layers below.
-/
theorem answers_exitInterceptor_batching (h : calls.Answering budget)
    (registered : machine.Registered) (top : machine.thread.layers = layer :: below)
    (grounded : Layer.Grounded (layer :: below)) (kind : layer.kind = .batching)
    (values : machine.values = outer ++ request.arguments)
    (fits : ∀ tensor ∈ request.operands, tensor.Fits machine.heap below)
    (steps : machine.ambient.steps ≤ budget + 1)
    : (exitInterceptor.run calls request.schema).Answers request below outer machine := by
  refine quiet_writing.currentLayer.step (currentLayer_apply top) ?_
  simp only [kind]
  exact answers_dispatchBelow h registered top grounded values fits steps

/-- Copies without the tags of the top layer stand in for the operands, which stay below them. -/
theorem meets_copyUntagged {failed : Exit → Prop} (kind : layer.kind = .differentiation)
    (levelled : Layer.Levelled (layer :: below))
    (values : machine.values = outer ++ request.arguments)
    (fits : ∀ tensor ∈ request.operands, tensor.Fits machine.heap (layer :: below))
    : (copyUntagged request.schema layer.level).Meets machine
        (fun _ values heap =>
          ∃ other : Request Tensor,
            values = outer ++ request.arguments ++ other.arguments
            ∧ machine.heap.Grows heap
            ∧ request.Related
                (fun tensor => Tensor.StandsFor below machine.heap tensor heap) other)
        failed := by
  have peeked := peek_append values
  rw [request.length_arguments] at peeked
  refine (quiet_writing.peek _).step peeked ?_
  refine (quiet_writing.pushAll _).step rfl ?_
  refine Meets.mapLast_standsFor ?_ fits fun tensor start _ => Meets.unwrapAt kind levelled
  exact congrArg (· ++ request.arguments) values

/-- A tagged result takes the place of the arguments and of the copies. The level of the layer is
registered, so the tag is alive.
-/
theorem meets_tagResults {failed : Exit → Prop} {result : Tensor} (registered : machine.Registered)
    (active : layer ∈ machine.thread.layers) (kind : layer.kind = .differentiation)
    (values : machine.values = outer ++ request.arguments ++ [.tensor result])
    (fits : ∀ tensor ∈ request.operands, tensor.Fits machine.heap (layer :: below))
    (answer : result.Fits machine.heap below)
    : (tagResults request.schema layer.level).Meets machine
        (fun _ values heap =>
          ∃ tagged,
            values = outer ++ [.tensor tagged]
            ∧ machine.heap.Grows heap
            ∧ Tensor.StandsFor (layer :: below) machine.heap result heap tagged)
        failed := by
  have stop
      : lastStart request.schema.resultCount machine
        = .ok (outer ++ request.arguments).length machine := by
    rw [request.resultCount_schema]
    exact lastStart_append values
  refine (quiet_writing.lastStart _).step stop ?_
  have tagging
      : (Run.mapRange (outer ++ request.arguments).length
          ((outer ++ request.arguments).length + request.schema.resultCount)
          fun tensor => tagAt tensor layer.level).Meets machine
          (fun _ values heap =>
            ∃ tagged,
              values = outer ++ request.arguments ++ [.tensor tagged]
              ∧ machine.heap.Grows heap
              ∧ Tensor.StandsFor (layer :: below) machine.heap result heap tagged)
          failed := by
    rw [request.resultCount_schema]
    refine Meets.mapRange values ?_
    simp only [Value.mapTensorsAllM, Value.mapTensorsM, bind_assoc, pure_bind]
    refine (Meets.tagAt registered active kind answer).bind ?_
    intro tagged _ _ _ left
    rcases left with ⟨_, grows, stands⟩
    exact meets_pure ⟨tagged, rfl, grows, stands⟩
  refine tagging.bind ?_
  intro _ reached _ _ left
  rcases left with ⟨tagged, values, grows, stands⟩
  have start
      : Size.sub? (outer ++ request.arguments).length request.schema.arity
        = some outer.length := by
    rw [Size.sub?, List.length_append, request.length_arguments,
      if_pos (Nat.le_add_left _ _), Nat.add_sub_cancel]
  rw [start]
  refine (quiet_lift (Outcome.plain_orOverflow _).orderly).step
    (lift_ok_apply outer.length reached) ?_
  refine (quiet_read _).step rfl ?_
  have arguments
      : (reached.values.take (outer ++ request.arguments).length).drop outer.length
        = request.arguments := by
    rw [values, List.take_left, List.drop_left]
  rw [arguments]
  have refreshed
      : (Run.forTensors request.arguments fun tensor =>
          onHeap fun heap => heap.refresh tensor).Meets reached
          (fun _ values heap => values = reached.values ∧ reached.heap.Grows heap) failed := by
    refine Meets.forTensors ?_
    intro tensor member later grown
    rw [request.tensorsAll_arguments] at member
    have stands := (fits tensor member).grows (grows.trans grown)
    refine Quiet.meets (quiet_onHeap fun heap => ?_) rfl ⟨rfl, Heap.grows_refresh stands.fits⟩
    cases tensor <;> rfl
  refine refreshed.bind ?_
  intro _ last _ _ left
  rcases left with ⟨same, grown⟩
  refine Quiet.meets (quiet_modify (fun _ => rfl) (fun _ => rfl) (fun _ => rfl)) rfl ?_
  refine ⟨tagged, ?_, grows.trans grown, stands.grows grown⟩
  change last.values.take outer.length ++ last.values.drop (outer ++ request.arguments).length = _
  rw [same, values, List.drop_left, List.append_assoc, List.take_left]

/-- The exit interceptor of a differentiation layer answers requests if the layers below do. The
copies stand in for the operands, and the tagged result for the answer to them.
-/
theorem answers_exitInterceptor_differentiation (h : calls.Answering budget)
    (posed : request.Posed (layer :: below) outer machine)
    (top : machine.thread.layers = layer :: below) (grounded : Layer.Grounded (layer :: below))
    (kind : layer.kind = .differentiation) (steps : machine.ambient.steps ≤ budget + 1)
    : (exitInterceptor.run calls request.schema).Answers request (layer :: below) outer
        machine := by
  refine quiet_writing.currentLayer.step (currentLayer_apply top) ?_
  simp only [kind]
  refine (meets_copyUntagged kind grounded.levelled posed.values posed.fits).bind ?_
  intro _ copied _ resumes left
  rcases left with ⟨other, values, grows, related⟩
  have layers : copied.thread.layers = layer :: below := resumes.layers.trans top
  have answered
      : (dispatchBelow calls other.schema layer).Answers other below
          (outer ++ request.arguments) copied := by
    refine answers_dispatchBelow h (posed.registered.resumes resumes) layers grounded values
      (related.right fun _ _ stands => stands.fits) ?_
    rwa [Ambient.steps_resumes resumes]
  rw [related.schema_eq] at answered
  refine (answered.of_standsFor related grows).bind ?_
  intro _ returned _ later left
  rcases left with ⟨result, values, grown, answer⟩
  refine (meets_tagResults ((posed.registered.resumes resumes).resumes later) ?_ kind values ?_
    answer.fits).mono ?_ fun _ => id
  · rw [later.layers, layers]
    exact List.mem_cons_self
  · exact fun tensor member => ((posed.fits tensor member).grows grown).fits
  · rintro _ _ heap ⟨tagged, same, grown', stands⟩
    exact ⟨tagged, same, grown.trans grown',
      answer.standsFor stands fun _ => List.mem_cons_of_mem layer⟩

-----------------------------------------------------------------------------------------
-- The body of differentiation layers
-----------------------------------------------------------------------------------------

/-- The body of a differentiation layer answers requests if the exit interceptor does. Recording
which operator produced the result keeps all shapes.
-/
theorem answers_differentiationBody (h : calls.Answering budget)
    (posed : request.Posed (layer :: below) outer machine)
    (top : machine.thread.layers = layer :: below) (grounded : Layer.Grounded (layer :: below))
    (kind : layer.kind = .differentiation)
    (inBody : machine.thread.overlay.InBody .differentiation)
    (shown : machine.thread.overlay.excluded.contains .differentiation = false)
    (steps : machine.ambient.steps ≤ budget + 1)
    : (differentiationBody.run calls request.schema).Answers request (layer :: below) outer
        machine := by
  refine quiet_writing.currentLayer.step (currentLayer_apply top) ?_
  refine (quiet_read _).step rfl ?_
  have answered
      : (holding (Guard.hide TransformKind.differentiation.owned)
          (calls.dispatch request.schema)).Answers request (layer :: below) outer machine := by
    refine .holding (moves_hide _ machine) ?_
    intro held atHeld
    have less := @Ambient.steps_hide machine.ambient layer below
      TransformKind.differentiation.owned top inBody.entry (by rwa [kind]) (by rw [kind]; rfl)
    rw [← atHeld.heap]
    refine h.dispatch ⟨?_, posed.registered.shifted atHeld fun _ => id,
      atHeld.values.trans posed.values, ?_⟩ ?_
    · rw [atHeld.ambient]
      exact .hide_differentiation top grounded kind inBody
    · rw [atHeld.heap]
      exact posed.fits
    · rw [atHeld.ambient]
      exact Nat.le_of_lt_succ (Nat.lt_of_lt_of_le less steps)
  refine answered.bind ?_
  intro _ returned _ _ left
  rcases left with ⟨result, values, grows, answer⟩
  have recorded
      : (do
          if machine.thread.grad then
            forTensors (← peek request.schema.resultCount) fun tensor => do
              if tensor.taggedLevel? = some layer.level then
                onHeap fun heap => heap.recordGradFn request.schema.name tensor).Meets returned
          (fun _ values heap => values = returned.values ∧ returned.heap.Grows heap)
          (request.Refused machine.heap) := by
    split
    · have enough : request.schema.resultCount ≤ returned.values.length := by
        rw [values, request.resultCount_schema, List.length_append]
        exact Nat.le_add_left _ _
      refine (quiet_writing.peek _).step (peek_apply enough)
        (Meets.forTensors fun tensor _ start _ => ?_)
      split
      · refine Quiet.meets (quiet_onHeap fun heap => ?_) rfl
          ⟨rfl, Heap.grows_recordGradFn start.heap _ tensor⟩
        cases tensor <;> rfl
      · exact meets_pure ⟨rfl, .refl _⟩
    · exact meets_pure ⟨rfl, .refl _⟩
  refine recorded.mono ?_ fun _ => id
  rintro _ _ heap ⟨same, grown⟩
  exact ⟨result, same.trans values, grows.trans grown, answer.grows grown⟩

end

end LayeredDispatch
