import LayeredDispatch.Proofs.Traces.Routes
import LayeredDispatch.Proofs.Traces.Nodes

/-! What the rules of batching layers hand on in the place of their arguments, and the calls that they
issue to pad. Main statements: what the layers below see of a batch that has been padded, and that
padding adds nothing but calls of `unsqueeze` to the trace.
-/

namespace LayeredDispatch

open Run Dispatcher

/-- What a rule of a batching layer hands on in the place of an argument. -/
structure Tensor.Lowered (layer : Layer) (below : List Layer) (goal : Nat) (before : Heap)
    (tensor : Tensor) (after : Heap) (result : Tensor)
    : Prop where
  fits : result.Fits after below
  agree : Outline.Agree below ((tensor.outline before).past goal layer below) (result.outline after)

/-- What a rule hands on in the place of its arguments. -/
def Value.Lowered (layer : Layer) (below : List Layer) (goal : Nat) (before : Heap)
    (arguments : List Value) (after : Heap) (inner : List Value)
    : Prop :=
  List.Forall₂ (fun tensor result => tensor.Lowered layer below goal before after result)
    (tensorsAll arguments) (tensorsAll inner)

/-- What the rule for element-wise operators makes of an argument. -/
def Batching.lower (budget : Nat) (level : Level) (goal : Nat) (argument : Value) : Run Value :=
  match physicalArgument? level argument with
  | none => return argument
  | some physical => return .tensor (← padToRank (nested budget) physical goal)

/-- The node of a call leads the way that the call has still to go. -/
def Contract.traces : Contract :=
  fun budget owners op machine body =>
    ∀ outer arguments,
      machine.Supplied budget op owners outer arguments
      → body.Appends machine fun nodes =>
          ∃ node,
            nodes = [node]
            ∧ node.Follows op.name
                (machine.ambient.route op.name (Value.outlines machine.heap arguments))

section

variable {machine held : Machine} {op : Schema} {below layers : List Layer} {layer : Layer}
  {arguments inner outer : List Value} {tensor result physical : Tensor} {budget goal size : Nat}
  {heap before middle after : Heap} {dims : List Nat}

theorem TraceNode.Follows.op_eq {path : List Capability} {name : String} {node : TraceNode}
    (h : node.Follows name path)
    : node.op = name := by
  cases h <;> rfl

-----------------------------------------------------------------------------------------
-- Calls by name
-----------------------------------------------------------------------------------------

/-- A call by name adds what the dispatch on its own values adds. Finding the operator and boxing
the arguments leave the trace alone.
-/
theorem Run.Appends.call {calls : Calls} {name : String} {appended : List TraceNode → Prop}
    (inner
      : ∀ op,
          calls.schema? name = some op
          → arguments.length = op.arity
          → (calls.dispatch op).Appends { machine with values := arguments } appended)
    : (calls.call name arguments).Appends machine appended := by
  unfold Calls.call
  cases found : calls.schema? name with
  | none =>
      have required : calls.require name = Outcome.fail (.unknownOperator name) := by
        rw [Calls.require, found]
      rw [required]
      exact .of_error rfl
  | some op =>
      have required : calls.require name = .ok op := by rw [Calls.require, found]
      rw [required]
      refine .step (silent_lift _) (lift_ok_apply op machine) ?_
      split
      · rename_i count
        exact (Appends.onValues (inner op found count)).then fun _ => silent_pure _
      · exact .of_error (fail_apply _ machine)

/-- Asking for a single tensor adds nothing to that. -/
theorem Run.Appends.callTensor {calls : Calls} {name : String} {appended : List TraceNode → Prop}
    (h : (calls.call name arguments).Appends machine appended)
    : (calls.callTensor name arguments).Appends machine appended := by
  refine h.then fun results => ?_
  split
  · exact silent_pure _
  · exact silent_fail _

-----------------------------------------------------------------------------------------
-- What layers see
-----------------------------------------------------------------------------------------

/-- A tensor that fits looks the same when the heap grows: neither its shape nor its live wrappers
change.
-/
theorem Tensor.Fits.outline_grows (fits : tensor.Fits before layers) (grows : before.Grows after)
    : tensor.outline after = tensor.outline before := by
  unfold outline
  rw [(fits.grows grows).shape, liveWrappers_congr grows.flags]

/-- What has been handed on in the place of an argument stays so when the heap grows, as it does
while the other arguments are padded.
-/
theorem Tensor.Lowered.grows (h : tensor.Lowered layer below goal before middle result)
    (grows : middle.Grows after)
    : tensor.Lowered layer below goal before after result := by
  refine ⟨(h.fits.grows grows).fits, ?_⟩
  rw [h.fits.outline_grows grows]
  exact h.agree

/-- What a batching layer has not batched is handed on as it is. -/
theorem Tensor.Lowered.shared (fits : tensor.Fits heap (layer :: below))
    (levelled : Layer.Levelled (layer :: below)) (kind : layer.kind = .batching)
    (alone : tensor.physicalAt? layer.level = none)
    : tensor.Lowered layer below goal heap heap tensor := by
  have fits := fits.of_shared kind alone
  refine ⟨fits, ?_⟩
  rw [Outline.past_of_not_mem goal (fits.not_wrapped levelled)]
  exact .refl below _

/-- What is handed on fits the layers below. -/
theorem Value.Lowered.fits (h : Lowered layer below goal before arguments after inner)
    : ∀ tensor ∈ tensorsAll inner, tensor.Fits after below := by
  unfold Lowered at h
  generalize tensorsAll arguments = tensors, tensorsAll inner = results at h
  induction h with
  | nil => exact List.forall_mem_nil _
  | cons head tail ih => exact List.forall_mem_cons.mpr ⟨head.fits, ih⟩

/-- What is handed on looks to the layers below as the arguments do past the layer. -/
theorem Value.Lowered.agree (h : Lowered layer below goal before arguments after inner)
    : List.Forall₂ (Outline.Agree below)
        ((Value.outlines before arguments).map (Outline.past goal layer below))
        (Value.outlines after inner) := by
  unfold outlines
  rw [List.map_map]
  exact List.forall₂_map_right_iff.mpr
    (List.forall₂_map_left_iff.mpr (h.imp fun _ _ lowered => lowered.agree))

/-- Of what the layers below see of a batch, its own wrapper does not count. -/
theorem Layer.Levelled.mem_batched (levelled : Layer.Levelled (layer :: below))
    (kind : layer.kind = .batching) {lower : Layer} (member : lower ∈ below) (handle : Nat)
    : lower.wraps ∈ (Tensor.batched handle layer.level physical).liveWrappers heap
      ↔ lower.wraps ∈ physical.liveWrappers heap := by
  rw [Layer.wraps_batched kind, List.mem_cons, or_iff_right (levelled.wraps_ne member)]

/-- A batch that need not be padded is handed on without its wrapper. Its rank grows by the
dimension of the batch, as `Outline.past` says.
-/
theorem Tensor.Lowered.full (fits : tensor.Fits heap (layer :: below))
    (levelled : Layer.Levelled (layer :: below)) (batch : layer.transform.batchSize? = some size)
    (found : tensor.physicalAt? layer.level = some physical)
    (long : goal ≤ (tensor.shape heap).rank)
    : tensor.Lowered layer below goal heap heap physical := by
  have kind := Layer.kind_of_batchSize? batch
  obtain ⟨inner, dims, shape, entry, -⟩ := fits.physicalAt? levelled batch found
  obtain ⟨handle, rfl⟩ := physicalAt?_eq_some found
  have own : layer.wraps ∈ (Tensor.batched handle layer.level physical).liveWrappers heap := by
    rw [Layer.wraps_batched kind]
    exact List.mem_cons_self
  have seen
      : ((Tensor.batched handle layer.level physical).outline heap).past goal layer below
        = { wrappers := (Tensor.batched handle layer.level physical).liveWrappers heap
            rank := dims.length + 1 } := by
    unfold Outline.past outline
    rw [if_pos ⟨kind, own⟩, if_neg (Nat.not_lt_of_le long), entry]
    rfl
  refine ⟨inner, ?_⟩
  rw [seen]
  refine ⟨?_, fun lower member => (levelled.mem_batched kind member handle).symm⟩
  change (physical.shape heap).rank = dims.length + 1
  rw [shape]
  rfl

/-- A batch that has been padded is wrapped by all differentiation layers below, since they have
tagged what the insertions gave them. The case is the one in which `Outline.past` adds these
wrappers.
-/
theorem Tensor.Lowered.padded (fits : tensor.Fits before (layer :: below))
    (levelled : Layer.Levelled (layer :: below)) (batch : layer.transform.batchSize? = some size)
    (found : tensor.physicalAt? layer.level = some physical)
    (short : (tensor.shape before).rank < goal) (fitsResult : result.Fits after below)
    (rank : (result.shape after).rank = goal + 1)
    (wrapped
      : ∀ lower ∈ below,
          (lower.wraps ∈ result.liveWrappers after
            ↔ lower.kind = .differentiation ∨ lower.wraps ∈ physical.liveWrappers before))
    : tensor.Lowered layer below goal before after result := by
  have kind := Layer.kind_of_batchSize? batch
  obtain ⟨handle, rfl⟩ := physicalAt?_eq_some found
  have own : layer.wraps ∈ (Tensor.batched handle layer.level physical).liveWrappers before := by
    rw [Layer.wraps_batched kind]
    exact List.mem_cons_self
  have short : ((Tensor.batched handle layer.level physical).outline before).rank < goal := short
  refine ⟨fitsResult, ?_⟩
  unfold Outline.past
  rw [if_pos ⟨kind, own⟩, if_pos short]
  refine ⟨rank, fun lower member => (wrapped lower member).trans ?_⟩
  rw [List.mem_append, levelled.2.mem_map_filter member]
  exact or_comm.trans (or_congr_left (levelled.mem_batched kind member handle).symm)

-----------------------------------------------------------------------------------------
-- Padding
-----------------------------------------------------------------------------------------

/-- A batch that has to be padded is wrapped by all differentiation layers below in the end. One
insertion is enough for that, and the others keep it; so the induction on the rounds looks at the
first insertion and at the rounds after it.
-/
theorem wraps_pad (owning : machine.ambient.Owners below) (registered : machine.Registered)
    (rank fuel : Nat)
    : (Batching.pad (nested budget) rank fuel physical).Leaves machine
        (fun result values _ =>
          values = machine.values
          ∧ if (physical.shape machine.heap).rank < rank + 1 then
              ∀ lower ∈ below,
                (lower.wraps ∈ result.liveWrappers machine.heap
                  ↔ lower.kind = .differentiation
                    ∨ lower.wraps ∈ physical.liveWrappers machine.heap)
            else result = physical)
        (fun _ _ => True) := by
  induction fuel generalizing machine physical with
  | zero =>
      unfold Batching.pad
      refine (quiet_read _).leaves_step rfl ?_
      split
      · exact leaves_fault trivial trivial
      · exact leaves_pure ⟨rfl, rfl⟩
  | succ fuel ih =>
      unfold Batching.pad
      refine (quiet_read _).leaves_step rfl ?_
      split
      · refine (wraps_insertion (Contract.wraps_kept.holds budget) owning registered).bind ?_
        intro padded reached _ resumes left
        rcases left with ⟨values, op, named, wraps⟩
        have inserted (lower : Layer) (member : lower ∈ below) :=
          wraps.mem_insertion named owning.levelled member
        apply (@ih reached padded (owning.resumes resumes) (registered.resumes resumes)).mono ?_
          fun _ _ => id
        intro result _ _ left
        rcases left with ⟨same, later⟩
        refine ⟨same.trans values, fun lower member => ?_⟩
        split at later
        · have later := later lower member
          rw [Tensor.liveWrappers_congr resumes.flags, Tensor.liveWrappers_congr resumes.flags,
            inserted lower member] at later
          exact later.trans (or_self_left)
        · rw [later]
          exact inserted lower member
      · exact leaves_pure ⟨rfl, rfl⟩

/-- A batch is padded until it has the rank that is asked for, if it is too short. What is known of
the result comes from three sides: it fits the layers below, it has the rank, and it is wrapped as
the insertions leave it.
-/
theorem leaves_padToRank (serves : machine.Serves below budget)
    (fits : tensor.Fits machine.heap (layer :: below))
    (levelled : Layer.Levelled (layer :: below)) (batch : layer.transform.batchSize? = some size)
    (found : tensor.physicalAt? layer.level = some physical)
    : (Batching.padToRank (nested budget) physical goal).Leaves machine
        (fun result values memory =>
          values = machine.values
          ∧ machine.heap.Grows memory.heap
          ∧ tensor.Lowered layer below goal machine.heap memory.heap result)
        (fun _ _ => True) := by
  obtain ⟨inner, dims, shape, entry, -⟩ := fits.physicalAt? levelled batch found
  have rank : (physical.shape machine.heap).rank = dims.length + 1 := by
    rw [shape]
    rfl
  by_cases short : dims.length < goal
  · have answering : Calls.Answering (nested budget) budget := answering_dispatchWithin budget
    have padded
        : (Batching.padToRank (nested budget) physical goal).Leaves machine
            (fun result values memory =>
              values = machine.values
              ∧ machine.heap.Grows memory.heap
              ∧ Tensor.Padded below size dims machine.heap physical (goal - dims.length) memory.heap
                  result)
            (fun exit _ => exit.TooLarge) :=
      meets_pad answering serves (inner.unpadded shape) (goal + 2) (Nat.le_of_lt short) (by omega)
    have wrapped := @wraps_pad machine below physical budget serves.owners serves.registered goal
      (goal + 2)
    apply (padded.and wrapped).mono ?_ fun _ _ _ => trivial
    intro result values memory both
    rcases both with ⟨⟨same, grows, padded⟩, -, wrapped⟩
    rw [rank, if_pos (Nat.succ_lt_succ short)] at wrapped
    refine ⟨same, grows, .padded fits levelled batch found ?_ padded.fits ?_ ?_⟩
    · rwa [entry]
    · rw [padded.rank_eq, Nat.add_sub_cancel' (Nat.le_of_lt short)]
    · rwa [funext (Tensor.liveWrappers_congr grows.flags)]
  · unfold Batching.padToRank Batching.pad
    refine (quiet_read _).leaves_step rfl ?_
    rw [rank, if_neg (by omega)]
    refine leaves_pure ⟨rfl, .refl machine.heap, .full fits levelled batch found ?_⟩
    rw [entry]
    exact Nat.le_of_not_lt short

/-- The call that inserts a dimension is all that an insertion adds to the trace, as a single node.
-/
theorem appends_insertion (holds : Contract.traces.Holds budget)
    (serves : machine.Serves below budget) (fits : physical.Fits machine.heap below)
    : ((nested budget).callTensor "unsqueeze" [.tensor physical, .int 1]).Appends machine
        fun nodes => ∀ node ∈ nodes, node.op = "unsqueeze" := by
  refine .callTensor (.call fun op found count => ?_)
  have found : standard.schema? "unsqueeze" = some op := found
  obtain ⟨member, named⟩ := schema?_standard found
  have drawless : op.name ≠ "rand" := by
    rw [named]
    decide
  let posed : Machine := { machine with values := [.tensor physical, .int 1] }
  have supplied : posed.Supplied budget op below [] [.tensor physical, .int 1] :=
    (serves.withValues _).supplied member drawless rfl count (List.forall_mem_singleton.mpr fits)
  refine (holds supplied.toCalling [] _ supplied).mono ?_
  intro nodes given
  rcases given with ⟨node, rfl, follows⟩
  rw [List.forall_mem_singleton, follows.op_eq, named]

/-- Padding adds nothing else to the trace. After each insertion the value still is one that has
been padded from the start, which is what the next insertion needs.
-/
theorem appends_pad {ones rank : Nat} {other : Tensor} (holds : Contract.traces.Holds budget)
    (serves : machine.Serves below budget)
    (padded : Tensor.Padded below size dims before physical ones machine.heap other) (fuel : Nat)
    : (Batching.pad (nested budget) rank fuel other).Appends machine
        fun nodes => ∀ node ∈ nodes, node.op = "unsqueeze" := by
  induction fuel generalizing machine other ones with
  | zero =>
      unfold Batching.pad
      refine Silent.appends ?_ (List.forall_mem_nil _)
      exact (silent_read _).bind fun shape => silent_writing.ite (silent_fault _) (silent_pure _)
  | succ fuel ih =>
      unfold Batching.pad
      refine .step (silent_read _) rfl ?_
      split
      · refine (appends_insertion holds serves padded.fits).bind ?_
        intro inserted reached nodes ended issued
        have answering : Calls.Answering (nested budget) budget := answering_dispatchWithin budget
        have answers := @Calls.Answering.callTensor machine below budget (nested budget)
          (.unsqueeze other 1) answering serves (List.forall_mem_singleton.mpr padded.fits)
        obtain ⟨resumes, -, -, answered⟩ := Ends.of_ok answers ended
        refine (ih (serves.resumes resumes) (padded.insert answered)).mono fun later others => ?_
        exact List.forall_mem_append.mpr ⟨issued, others⟩
      · exact (silent_pure _).appends (List.forall_mem_nil _)

/-- So does padding from the rank of an argument to another one. -/
theorem appends_padToRank (holds : Contract.traces.Holds budget)
    (serves : machine.Serves below budget) (fits : tensor.Fits machine.heap (layer :: below))
    (levelled : Layer.Levelled (layer :: below)) (batch : layer.transform.batchSize? = some size)
    (found : tensor.physicalAt? layer.level = some physical)
    : (Batching.padToRank (nested budget) physical goal).Appends machine
        fun nodes => ∀ node ∈ nodes, node.op = "unsqueeze" := by
  obtain ⟨inner, dims, shape, -⟩ := fits.physicalAt? levelled batch found
  exact appends_pad holds serves (inner.unpadded shape) (goal + 2)

-----------------------------------------------------------------------------------------
-- Arguments that are tensors
-----------------------------------------------------------------------------------------

/-- An argument is handed on as it is, or padded. It is padded if the layer has batched it, which
also is the condition under which `Outline.past` looks at its rank.
-/
theorem leaves_lower (serves : machine.Serves below budget)
    (fits : tensor.Fits machine.heap (layer :: below))
    (levelled : Layer.Levelled (layer :: below)) (batch : layer.transform.batchSize? = some size)
    : (Batching.lower budget layer.level goal (.tensor tensor)).Leaves machine
        (fun result values memory =>
          values = machine.values
          ∧ machine.heap.Grows memory.heap
          ∧ Value.Related
              (fun tensor result =>
                tensor.Lowered layer below goal machine.heap memory.heap result)
              (.tensor tensor) result)
        (fun _ _ => True) := by
  unfold Batching.lower
  split
  · rename_i alone
    have kind := Layer.kind_of_batchSize? batch
    exact leaves_pure ⟨rfl, .refl machine.heap, .tensor (.shared fits levelled kind alone)⟩
  · rename_i physical found
    refine (leaves_padToRank serves fits levelled batch found).bind ?_
    intro result _ _ _ left
    rcases left with ⟨same, grows, lowered⟩
    exact leaves_pure ⟨same, grows, .tensor lowered⟩

/-- Either way nothing but insertions are added to the trace. -/
theorem appends_lower (holds : Contract.traces.Holds budget) (serves : machine.Serves below budget)
    (fits : tensor.Fits machine.heap (layer :: below))
    (levelled : Layer.Levelled (layer :: below)) (batch : layer.transform.batchSize? = some size)
    : (Batching.lower budget layer.level goal (.tensor tensor)).Appends machine
        fun nodes => ∀ node ∈ nodes, node.op = "unsqueeze" := by
  unfold Batching.lower
  split
  · exact (silent_pure _).appends (List.forall_mem_nil _)
  · rename_i physical found
    exact (appends_padToRank holds serves fits levelled batch found).then fun _ => silent_pure _

/-- Arguments are lowered one after another. Those that are done already stay as they are while the
heap grows for the others.
-/
theorem leaves_lowerAll {tensors : List Tensor} (serves : machine.Serves below budget)
    (fits : ∀ tensor ∈ tensors, tensor.Fits machine.heap (layer :: below))
    (levelled : Layer.Levelled (layer :: below)) (batch : layer.transform.batchSize? = some size)
    : ((tensors.map Value.tensor).mapM (Batching.lower budget layer.level goal)).Leaves machine
        (fun inner values memory =>
          values = machine.values
          ∧ machine.heap.Grows memory.heap
          ∧ Value.RelatedAll
              (fun tensor result =>
                tensor.Lowered layer below goal machine.heap memory.heap result)
              (tensors.map Value.tensor) inner)
        (fun _ _ => True) := by
  have persists
      : Memory.Persists (fun earlier later : Memory => earlier.heap.Grows later.heap)
          fun memory =>
            Value.Related fun tensor result =>
              tensor.Lowered layer below goal machine.heap memory.heap result :=
    ⟨fun memory => .refl memory.heap, .trans,
      fun related grows => related.mono fun _ _ lowered => lowered.grows grows⟩
  refine (Leaves.mapM persists ?_).mono
    (fun _ _ _ left => ⟨left.1, left.2.1, .of_forall₂ left.2.2⟩) fun _ _ => id
  intro argument member start resumes _ grows
  obtain ⟨tensor, active, rfl⟩ := List.mem_map.mp member
  have fits := fits tensor active
  apply (leaves_lower (serves.resumes resumes) (fits.grows grows).fits levelled batch).mono ?_
    fun _ _ => id
  intro result _ _ left
  rcases left with ⟨same, grown, related⟩
  refine ⟨same, grown, ?_⟩
  cases related with
  | tensor lowered =>
      refine .tensor ⟨lowered.fits, ?_⟩
      rw [← fits.outline_grows grows]
      exact lowered.agree
  | plain plain => cases plain

/-- Only insertions are added to the trace by all of them. The induction is on the arguments, and
each of them finds the state in order that the ones before it have left.
-/
theorem appends_lowerAll {tensors : List Tensor} (holds : Contract.traces.Holds budget)
    (serves : machine.Serves below budget)
    (fits : ∀ tensor ∈ tensors, tensor.Fits machine.heap (layer :: below))
    (levelled : Layer.Levelled (layer :: below)) (batch : layer.transform.batchSize? = some size)
    : ((tensors.map Value.tensor).mapM (Batching.lower budget layer.level goal)).Appends machine
        fun nodes => ∀ node ∈ nodes, node.op = "unsqueeze" := by
  induction tensors generalizing machine with
  | nil => exact (silent_pure _).appends (List.forall_mem_nil _)
  | cons tensor tensors ih =>
      obtain ⟨first, others⟩ := List.forall_mem_cons.mp fits
      rw [List.map_cons, List.mapM_cons]
      refine (appends_lower holds serves first levelled batch).bind ?_
      intro result reached nodes ended issued
      have left := @leaves_lower machine below layer tensor budget goal size serves first levelled
        batch
      obtain ⟨resumes, -, grows, -⟩ := Ends.of_ok left ended
      have later := @ih reached (serves.resumes resumes) fun other member =>
        ((others other member).grows grows).fits
      refine (later.then fun _ => silent_pure _).mono fun more others => ?_
      exact List.forall_mem_append.mpr ⟨issued, others⟩

end

end LayeredDispatch
