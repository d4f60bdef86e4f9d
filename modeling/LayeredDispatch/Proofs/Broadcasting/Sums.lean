import LayeredDispatch.Proofs.Broadcasting.Alignment
import LayeredDispatch.Proofs.Results.Transparency

/-! Sums of many tensors in any order. Main statement: as broadcasting is a join, whether tensors can be
added up, and to which shape, does not depend on their order.
-/

namespace LayeredDispatch

open Run Dispatcher

namespace Shape

/-- The shape to which all shapes of a list broadcast. -/
def broadcastAll? (shapes : List Shape) : Option Shape :=
  shapes.foldlM broadcast? scalar

/-- Broadcasting a list of shapes one after another does not depend on their order, since any two
neighbours may be exchanged. The induction is on how the order was changed.
-/
theorem foldlM_broadcast?_perm {shapes reordered : List Shape} (perm : shapes.Perm reordered)
    (start : Shape)
    : shapes.foldlM broadcast? start = reordered.foldlM broadcast? start := by
  induction perm generalizing start with
  | nil => rfl
  | cons shape _ ih => simp only [List.foldlM_cons, ih]
  | swap first second shapes =>
      have swapped
          : (start.broadcast? second).bind (·.broadcast? first)
            = (start.broadcast? first).bind (·.broadcast? second) := by
        rw [broadcast?_assoc, broadcast?_comm second, ← broadcast?_assoc]
      simp only [List.foldlM_cons, ← bind_assoc]
      exact congrArg (· >>= _) swapped
  | trans _ _ ih ih' => rw [ih, ih']

/-- So the shape to which all shapes of a list broadcast does not. -/
theorem broadcastAll?_perm {shapes reordered : List Shape} (perm : shapes.Perm reordered)
    : broadcastAll? shapes = broadcastAll? reordered :=
  foldlM_broadcast?_perm perm scalar

/-- The scalar shape at the start makes no difference. -/
theorem broadcastAll?_cons (first : Shape) (others : List Shape)
    : broadcastAll? (first :: others) = others.foldlM broadcast? first := by
  rw [broadcastAll?, List.foldlM_cons, broadcast?_scalar_left]
  rfl

end Shape

/-- A sum ends as the shapes broadcast: it has the shape to which they broadcast, or it is refused, unless
some size on the way is too large.
-/
def Outcome.EndsAs (ended : Outcome Storage) (op : String) (shape? : Option Shape) : Prop :=
  match ended with
  | .ok total => shape? = some total.shape
  | .error exit =>
      exit.TooLarge
      ∨ shape? = none ∧ ∃ left right, exit = .error (.shapeMismatch op left right)

/-- A sum of two storages ends as their shapes broadcast. -/
theorem Storage.broadcastBinary_endsAs {left right : Storage} (leftSized : left.Sized)
    (rightSized : right.Sized) (op : String) (combine : Float → Float → Float)
    : Outcome.EndsAs (broadcastBinary op left right combine) op (left.shape.broadcast? right.shape) := by
  cases ended : broadcastBinary op left right combine with
  | ok result =>
      obtain ⟨shape, found, -, -, rfl⟩ := broadcastBinary_ok ended
      exact found
  | error exit =>
      cases found : left.shape.broadcast? right.shape with
      | none =>
          simp only [broadcastBinary, found] at ended
          cases ended
          exact .inr ⟨rfl, _, _, rfl⟩
      | some shape =>
          have apart := broadcastBinary_error leftSized rightSized ended
          rw [found] at apart
          exact .inl (apart.resolve_left (Option.some_ne_none shape))

/-- Adding up storages one after another ends as their shapes broadcast one after another. Each sum
again holds as many elements as its shape says, so the next one may be added to it.
-/
theorem Storage.foldlM_broadcastBinary_endsAs {storages : List Storage}
    (sized : ∀ storage ∈ storages, storage.Sized) {start : Storage} (startSized : start.Sized)
    (op : String) (combine : Float → Float → Float)
    : Outcome.EndsAs (storages.foldlM (fun total next => broadcastBinary op total next combine) start) op
        ((storages.map Storage.shape).foldlM Shape.broadcast? start.shape) := by
  induction storages generalizing start with
  | nil => rfl
  | cons next storages ih =>
      obtain ⟨nextSized, others⟩ := List.forall_mem_cons.mp sized
      have step := broadcastBinary_endsAs startSized nextSized op combine
      rw [List.foldlM_cons, List.map_cons, List.foldlM_cons]
      cases ended : broadcastBinary op start next combine with
      | ok total =>
          obtain ⟨shape, -, room, -, same⟩ := broadcastBinary_ok ended
          rw [ended] at step
          have found : start.shape.broadcast? next.shape = some total.shape := step
          rw [found]
          exact ih others (same ▸ sized_combined room)
      | error exit =>
          rw [ended] at step
          rcases step with large | ⟨apart, refused⟩
          · exact .inl large
          · exact .inr ⟨by rw [apart]; rfl, refused⟩

/-- A list of tensors is read back from the arguments. -/
theorem Value.tensorsAt_tensors (tensors : List Tensor) (op : String)
    : tensorsAt [.list (tensors.map .tensor)] op 0 = .ok tensors := by
  simp only [tensorsAt, List.getElem?_cons_zero, List.mapM_map]
  exact (@Outcome.mapM_of_ok _ _ _ id tensors fun _ _ => rfl).trans (by rw [List.map_id])

/-- What the base makes of a list of tensors is their sum from the left. -/
theorem Base.evaluate_sums (read : Tensor → Storage) (first : Tensor) (others : List Tensor)
    : evaluate read "add_n" [.list ((first :: others).map .tensor)]
      = (others.map read).foldlM
          (fun total next => Storage.broadcastBinary "add_n" total next (· + ·)) (read first) := by
  simp only [evaluate, Value.tensorsAt_tensors]
  rfl

/-- Below all wrappers is storage with as many elements as its shape says. -/
theorem Tensor.Fits.sized_below {heap : Heap} {layers : List Layer} {tensor : Tensor}
    (fits : tensor.Fits heap layers)
    : (heap.below tensor).Sized := by
  induction fits with
  | dense present sized => exact sized
  | alone _ ih | tagged _ _ _ _ _ ih | batched _ _ _ ih => exact ih

/-- A call of `add_n` gives a tensor of the shape, or is refused where there is none. -/
def Machine.SumsTo (machine : Machine) (tensors : List Tensor) : Option Shape → Prop
  | some shape =>
      ∃ total memory,
        standard.call "add_n" [.list (tensors.map .tensor)] machine = .ok [.tensor total] memory
        ∧ total.shape memory.heap = shape
  | none =>
      ∃ left right memory,
        standard.call "add_n" [.list (tensors.map .tensor)] machine
        = .error (.error (.shapeMismatch "add_n" left right)) memory

variable {machine : Machine} {tensors reordered : List Tensor}

/-- Tensors with only tags around them are added up to the shape to which they all broadcast. -/
theorem Dispatcher.call_sums (built : machine.Built) (nonempty : tensors ≠ [])
    (wellFormed : ∀ tensor ∈ tensors, tensor.WellFormed machine.heap machine.thread.layers)
    (unbatched : ∀ tensor ∈ tensors, tensor.batches = 0)
    (small
      : ∀ exit memory,
          standard.call "add_n" [.list (tensors.map .tensor)] machine = .error exit memory
          → ¬ exit.TooLarge)
    : machine.SumsTo tensors (Shape.broadcastAll? (tensors.map (·.shape machine.heap))) := by
  have members : Value.tensorsAll [.list (tensors.map .tensor)] = tensors := by
    simpa [Value.tensorsAll, Value.tensors] using Value.tensorsAll_map_tensor tensors
  have fits : ∀ tensor ∈ tensors, tensor.Fits machine.heap machine.thread.layers :=
    fun tensor member =>
      (Tensor.wellFormed_iff_fits built.founded.levelled).mp (wellFormed tensor member)
  have shapes
      : tensors.map (·.shape machine.heap)
        = (tensors.map machine.heap.below).map Storage.shape := by
    rw [List.map_map]
    exact List.map_congr_left fun tensor member =>
      (fits tensor member).shape_eq (unbatched tensor member)
  have delivers := call_delivers built (by decide : "add_n" ∈ ruleless)
    (rfl : [Value.list (tensors.map .tensor)].length = 1) (members.symm ▸ fits)
  have verdict
      : machine.heap.verdict "add_n" [.list (tensors.map .tensor)]
        = Base.evaluate machine.heap.below "add_n" [.list (tensors.map .tensor)] :=
    if_pos (members.symm ▸ unbatched)
  have sums
      : (Base.evaluate machine.heap.below "add_n" [.list (tensors.map .tensor)]).EndsAs "add_n"
          (Shape.broadcastAll? (tensors.map (·.shape machine.heap))) := by
    cases tensors with
    | nil => exact absurd rfl nonempty
    | cons first others =>
        obtain ⟨head, tail⟩ := List.forall_mem_cons.mp fits
        rw [shapes, Base.evaluate_sums, List.map_cons, List.map_cons, Shape.broadcastAll?_cons]
        exact Storage.foldlM_broadcastBinary_endsAs
          (List.forall_mem_map.mpr fun tensor member => (tail tensor member).sized_below)
          head.sized_below "add_n" (· + ·)
  cases ended : standard.call "add_n" [.list (tensors.map .tensor)] machine with
  | ok results memory =>
      obtain ⟨-, total, rfl, delivered⟩ := Ends.of_ok delivers ended
      rw [← verdict, delivered.made] at sums
      rw [show Shape.broadcastAll? _ = some _ from sums]
      exact ⟨total, memory, ended, delivered.fits.shape_eq delivered.unbatched⟩
  | error exit memory =>
      obtain ⟨-, -, refused⟩ := Ends.of_error delivers ended
      rw [← verdict, refused] at sums
      obtain ⟨apart, left, right, rfl⟩ := sums.resolve_left (small exit memory ended)
      rw [apart]
      exact ⟨left, right, memory, ended⟩

/-- Broadcasting is a join of shapes in which some have no upper bound: it is commutative, idempotent and
associative, undefined bracketings included, the scalar shape is its unit, and where two shapes broadcast
to a third one they broadcast to a least one. Hence, for every stack and every list of tensors with at most
tags around them, `add_n` gives results of the same shape for all orders of the list, or is refused for all,
unless some size is too large.
-/
theorem Dispatcher.broadcast_joins_sums
    : Shape.PartialJoin Shape.broadcast? Shape.scalar
      ∧ ∀ (machine : Machine) (tensors reordered : List Tensor),
          machine.Built
          → tensors ≠ []
          → tensors.Perm reordered
          → (∀ tensor ∈ tensors, tensor.WellFormed machine.heap machine.thread.layers)
          → (∀ tensor ∈ tensors, tensor.batches = 0)
          → (∀ order ∈ [tensors, reordered], ∀ exit memory,
            standard.call "add_n" [.list (order.map .tensor)] machine = .error exit memory
            → ¬ exit.TooLarge)
          → machine.SumsTo tensors (Shape.broadcastAll? (tensors.map (·.shape machine.heap)))
            ∧ machine.SumsTo reordered (Shape.broadcastAll? (tensors.map (·.shape machine.heap))) := by
  refine ⟨Shape.broadcast?_partialJoin, ?_⟩
  intro machine tensors reordered built nonempty perm wellFormed unbatched small
  obtain ⟨own, other⟩ := List.forall_mem_cons.mp small
  have nonempty' : reordered ≠ [] := by
    rintro rfl
    exact nonempty perm.eq_nil
  refine ⟨call_sums built nonempty wellFormed unbatched own, ?_⟩
  rw [Shape.broadcastAll?_perm (perm.map _)]
  exact call_sums built nonempty' (fun tensor member => wellFormed tensor (perm.mem_iff.mpr member))
    (fun tensor member => unbatched tensor (perm.mem_iff.mpr member))
    (other reordered (List.mem_singleton_self _))

/-- Witness: three dense tensors under a differentiation layer. -/
theorem Dispatcher.broadcast_joins_sums_one_layer
    : ∃ (machine : Machine) (tensors reordered : List Tensor),
        machine.Built
        ∧ machine.thread.layers.map Layer.kind = [.differentiation]
        ∧ tensors.Perm reordered
        ∧ machine.SumsTo tensors (some ⟨[2, 3]⟩)
        ∧ machine.SumsTo reordered (some ⟨[2, 3]⟩) := by
  let fresh : Machine :=
    { heap :=
        { storages :=
            #[⟨⟨[3]⟩, #[1, 2, 3]⟩, ⟨⟨[2, 1]⟩, #[10, 20]⟩, ⟨⟨[1, 1]⟩, #[100]⟩] } }
  let tensors : List Tensor := [.dense 0, .dense 1, .dense 2]
  let reordered : List Tensor := [.dense 2, .dense 0, .dense 1]
  have perm : tensors.Perm reordered :=
    @List.perm_append_comm Tensor [.dense 0, .dense 1] [.dense 2]
  obtain ⟨machine, built, kinds, shapes, wellFormed, own, other⟩
      : ∃ machine : Machine,
          machine.Built
          ∧ machine.thread.layers.map Layer.kind = [.differentiation]
          ∧ Shape.broadcastAll? (tensors.map (·.shape machine.heap)) = some ⟨[2, 3]⟩
          ∧ (∀ tensor ∈ tensors, tensor.WellFormed machine.heap machine.thread.layers)
          ∧ (standard.call "add_n" [.list (tensors.map .tensor)]).succeeds machine = true
          ∧ (standard.call "add_n" [.list (reordered.map .tensor)]).succeeds machine = true := by
    refine ⟨_, .opened (@Machine.Built.fresh fresh rfl rfl)
      (rfl : openLayer (.differentiation (some false) none) fresh = .ok 1 _), rfl, rfl, ?_,
      by decide +kernel, by decide +kernel⟩
    intro tensor member
    simp only [tensors, List.mem_cons, List.not_mem_nil, or_false] at member
    rcases member with rfl | rfl | rfl <;> exact ⟨by decide, by decide, rfl⟩
  have sums := broadcast_joins_sums.2 machine tensors reordered built (by decide) perm wellFormed
    (by decide) (by
      intro order member exit memory ended
      rcases List.mem_pair.mp member with rfl | rfl
      · obtain ⟨results, reached, given⟩ := succeeds_iff.mp own
        cases given.symm.trans ended
      · obtain ⟨results, reached, given⟩ := succeeds_iff.mp other
        cases given.symm.trans ended)
  rw [shapes] at sums
  exact ⟨machine, tensors, reordered, built, kinds, perm, sums⟩

end LayeredDispatch
