import LayeredDispatch.Trace
import Mathlib.Data.List.Forall2

/-! The text of a trace has a line for each call, and what is left of the shape of the trace is the
indentation of the lines. Main statement: the text determines the trace, its lines are the calls in
order, and the furthest indented ones tell the depth.
-/

namespace LayeredDispatch

/-- The lines of a text, without the line breaks that end them; the last one need not be ended. -/
def Text.lines (text : String) : List (List Char) :=
  let pieces := text.toList.splitOn '\n'
  if pieces.getLast? = some [] then pieces.dropLast else pieces

/-- The number of blanks at the start of a line. -/
def Text.indentation (line : List Char) : Nat :=
  (line.takeWhile (· = ' ')).length

/-- A line that, after its blanks, has the name of a hook in brackets and then something else. -/
def Text.Names (line : List Char) (capability : Capability) : Prop :=
  ∃ rest, line.dropWhile (· = ' ') = '[' :: capability.name.toList ++ ']' :: rest

/-- What a line of a trace shows of a call. -/
@[ext] structure TraceLine where
  /-- The number of calls around it. -/
  above : Nat
  capability : Capability
  op : String

def TraceLine.text (line : TraceLine) : String :=
  "".pushn ' ' (2 * line.above) ++ "[" ++ line.capability.name ++ "] " ++ line.op

namespace TraceNode

mutual
/-- The operators of the tree, each before those of its children, children in order. -/
def ops : TraceNode → List String
  | ⟨op, _, children⟩ => op :: opsAll children

/-- The operators of several trees in order. -/
def opsAll : List TraceNode → List String
  | [] => []
  | node :: nodes => node.ops ++ opsAll nodes
end

/-- No operator of the tree has a line break in its name. -/
def Unbroken (node : TraceNode) : Prop :=
  ∀ op ∈ node.ops, '\n' ∉ op.toList

instance (node : TraceNode) : Decidable node.Unbroken :=
  inferInstanceAs (Decidable (∀ op ∈ node.ops, '\n' ∉ op.toList))

mutual
/-- The calls of a tree as its text shows them. -/
def listing (above : Nat) : TraceNode → List TraceLine
  | ⟨op, capability, children⟩ => ⟨above, capability, op⟩ :: listingAll (above + 1) children

/-- The calls of several trees as their text shows them. -/
def listingAll (above : Nat) : List TraceNode → List TraceLine
  | [] => []
  | node :: nodes => node.listing above ++ listingAll above nodes
end

-----------------------------------------------------------------------------------------
-- Listings
-----------------------------------------------------------------------------------------

mutual
/-- The text of a tree has the lines of its listing, in order. The indentation of a line is twice
the number of calls around it, which the listing keeps.
-/
theorem lines_eq (above : Nat) (node : TraceNode)
    : node.lines above = (node.listing above).map TraceLine.text := by
  cases node with
  | mk op capability children =>
      rw [lines, listing, List.map_cons, linesAll_eq (above + 1) children]
      rfl

/-- The same for several trees, one after another. -/
theorem linesAll_eq (above : Nat) (nodes : List TraceNode)
    : linesAll above nodes = (listingAll above nodes).map TraceLine.text := by
  cases nodes with
  | nil => rfl
  | cons node nodes =>
      rw [linesAll, listingAll, List.map_append, lines_eq above node, linesAll_eq above nodes]
end

mutual
/-- The hooks of a listing are those of the tree in order. -/
theorem map_capability_listing (above : Nat) (node : TraceNode)
    : (node.listing above).map TraceLine.capability = node.capabilities := by
  cases node with
  | mk op capability children =>
      rw [listing, capabilities, List.map_cons, map_capability_listingAll (above + 1) children]

theorem map_capability_listingAll (above : Nat) (nodes : List TraceNode)
    : (listingAll above nodes).map TraceLine.capability = capabilitiesAll nodes := by
  cases nodes with
  | nil => rfl
  | cons node nodes =>
      rw [listingAll, capabilitiesAll, List.map_append, map_capability_listing above node,
        map_capability_listingAll above nodes]
end

mutual
/-- The operators of a listing are those of the tree in order. -/
theorem map_op_listing (above : Nat) (node : TraceNode)
    : (node.listing above).map TraceLine.op = node.ops := by
  cases node with
  | mk op capability children =>
      rw [listing, ops, List.map_cons, map_op_listingAll (above + 1) children]

theorem map_op_listingAll (above : Nat) (nodes : List TraceNode)
    : (listingAll above nodes).map TraceLine.op = opsAll nodes := by
  cases nodes with
  | nil => rfl
  | cons node nodes =>
      rw [listingAll, opsAll, List.map_append, map_op_listing above node,
        map_op_listingAll above nodes]
end

-----------------------------------------------------------------------------------------
-- Depth
-----------------------------------------------------------------------------------------

mutual
/-- No line is deeper than the tree says. Children start one deeper, and the depth of the tree
counts that.
-/
theorem above_lt (above : Nat) (node : TraceNode)
    : ∀ line ∈ node.listing above, line.above < above + node.depth := by
  cases node with
  | mk op capability children =>
      have inner := above_lt_all (above + 1) children
      rw [listing, depth]
      refine List.forall_mem_cons.mpr ⟨by dsimp only; omega, fun line member => ?_⟩
      have := inner line member
      omega

/-- The same for several trees, of which the deepest one counts. -/
theorem above_lt_all (above : Nat) (nodes : List TraceNode)
    : ∀ line ∈ listingAll above nodes, line.above < above + depthAll nodes := by
  cases nodes with
  | nil => exact List.forall_mem_nil _
  | cons node nodes =>
      have first := above_lt above node
      have others := above_lt_all above nodes
      rw [listingAll, depthAll]
      refine List.forall_mem_append.mpr ⟨fun line member => ?_, fun line member => ?_⟩
      · have := first line member
        omega
      · have := others line member
        omega
end

mutual
/-- Some call is as deep as the tree: the root itself, if it has no children, or the deepest call
below it.
-/
theorem exists_deepest (above : Nat) (node : TraceNode)
    : ∃ line ∈ node.listing above, line.above + 1 = above + node.depth := by
  cases node with
  | mk op capability children =>
      rw [listing, depth]
      rcases exists_deepest_of_pos (above + 1) children with none | ⟨line, member, deep⟩
      · exact ⟨_, List.mem_cons_self, by rw [none]⟩
      · exact ⟨line, List.mem_cons_of_mem _ member, by omega⟩

/-- Of several trees one is the deepest, if there are any. -/
theorem exists_deepest_of_pos (above : Nat) (nodes : List TraceNode)
    : depthAll nodes = 0
      ∨ ∃ line ∈ listingAll above nodes, line.above + 1 = above + depthAll nodes := by
  cases nodes with
  | nil => exact .inl rfl
  | cons node nodes =>
      rw [listingAll, depthAll]
      obtain ⟨line, member, deep⟩ := exists_deepest above node
      rcases Nat.le_total (depthAll nodes) node.depth with shallow | deeper
      · rw [Nat.max_eq_left shallow]
        exact .inr ⟨line, List.mem_append_left _ member, deep⟩
      · rw [Nat.max_eq_right deeper]
        refine (exists_deepest_of_pos above nodes).imp_right fun ⟨line, member, deep⟩ => ?_
        exact ⟨line, List.mem_append_right _ member, deep⟩
end

-----------------------------------------------------------------------------------------
-- Reconstruction
-----------------------------------------------------------------------------------------

/-- A listing that starts with a call around which there are fewer than `above` calls, if it has any. -/
def Outside (above : Nat) (rest : List TraceLine) : Prop :=
  ∀ line ∈ rest.head?, line.above < above

/-- A listing that is outside a tree is outside its children all the more. -/
theorem Outside.listingAll {above : Nat} {rest : List TraceLine} (outside : Outside above rest)
    (nodes : List TraceNode)
    : Outside (above + 1) (TraceNode.listingAll above nodes ++ rest) := by
  cases nodes with
  | nil => exact fun line first => Nat.lt_succ_of_lt (outside line first)
  | cons node nodes =>
      cases node with
      | mk op capability children =>
          intro line first
          cases first
          exact Nat.lt_succ_self above

/-- A listing that goes on with a tree at this place is not outside of it, so it cannot be what
follows the last tree.
-/
theorem not_outside_of_eq {above : Nat} {node : TraceNode} {nodes : List TraceNode}
    {rest rest' : List TraceLine} (same : rest = listingAll above (node :: nodes) ++ rest')
    : ¬Outside above rest := by
  cases node with
  | mk op capability children =>
      subst same
      exact fun outside => Nat.lt_irrefl above (outside _ rfl)

mutual
/-- A listing tells what the tree at its start is, if what follows is not below it. The root is read
off the first line, and the children off the lines that are deeper.
-/
theorem listing_append_inj {above : Nat} {node other : TraceNode} {rest rest' : List TraceLine}
    (outside : Outside (above + 1) rest) (outside' : Outside (above + 1) rest')
    (same : node.listing above ++ rest = other.listing above ++ rest')
    : node = other ∧ rest = rest' := by
  cases node with
  | mk op capability children =>
      cases other with
      | mk op' capability' others =>
          obtain ⟨head, tail⟩ := List.cons.inj same
          cases head
          obtain ⟨rfl, rfl⟩ := listingAll_append_inj outside outside' tail
          exact ⟨rfl, rfl⟩

/-- A listing tells what the trees are and where their calls end. -/
theorem listingAll_append_inj {above : Nat} {nodes others : List TraceNode}
    {rest rest' : List TraceLine} (outside : Outside above rest) (outside' : Outside above rest')
    (same : listingAll above nodes ++ rest = listingAll above others ++ rest')
    : nodes = others ∧ rest = rest' := by
  -- What follows one tree are the other trees of the forest, which are not below it, and then `rest`.
  cases nodes with
  | nil =>
      cases others with
      | nil => exact ⟨rfl, same⟩
      | cons other others => exact absurd outside (not_outside_of_eq same)
  | cons node nodes =>
      cases others with
      | nil => exact absurd outside' (not_outside_of_eq same.symm)
      | cons other others =>
          rw [listingAll, listingAll, List.append_assoc, List.append_assoc] at same
          obtain ⟨rfl, later⟩ :=
            listing_append_inj (outside.listingAll nodes) (outside'.listingAll others) same
          obtain ⟨rfl, rfl⟩ := listingAll_append_inj outside outside' later
          exact ⟨rfl, rfl⟩
end

/-- Trees with the same listing are the same. -/
theorem listing_injective {above : Nat} {node other : TraceNode}
    (same : node.listing above = other.listing above)
    : node = other := by
  have none : Outside (above + 1) [] := fun _ first => nomatch first
  exact (listing_append_inj none none (congrArg (· ++ []) same)).1

end TraceNode

-----------------------------------------------------------------------------------------
-- Lines
-----------------------------------------------------------------------------------------

namespace Text

/-- What stands before the first mark, and what after it, can be told from a text. -/
theorem append_cons_inj {mark : Char} {first second rest rest' : List Char}
    (plain : mark ∉ first) (plain' : mark ∉ second)
    (same : first ++ mark :: rest = second ++ mark :: rest')
    : first = second ∧ rest = rest' := by
  have size : first.length = second.length := by
    have found := congrArg (List.idxOf mark) same
    rwa [List.idxOf_append_of_notMem plain, List.idxOf_append_of_notMem plain',
      List.idxOf_cons_self, List.idxOf_cons_self] at found
  obtain ⟨rfl, tail⟩ := List.append_inj same size
  exact ⟨rfl, (List.cons.inj tail).2⟩

/-- Pushing a character several times appends it several times. -/
theorem toList_pushn (text : String) (char : Char) (count : Nat)
    : (text.pushn char count).toList = text.toList ++ List.replicate count char := by
  induction count with
  | zero => simp [String.pushn, Nat.repeat]
  | succ count ih =>
      change ((text.pushn char count).push char).toList = _
      rw [String.toList_push, ih, List.replicate_succ', List.append_assoc]

/-- Texts without line breaks are the lines of the text in which each is ended by one. The piece
after the last break is empty, and `Text.lines` drops it.
-/
theorem lines_join {texts : List String} (unbroken : ∀ text ∈ texts, '\n' ∉ text.toList)
    : lines (String.join (texts.map (· ++ "\n"))) = texts.map String.toList := by
  have pieces
      : (String.join (texts.map (· ++ "\n"))).toList.splitOn '\n'
        = texts.map String.toList ++ [[]] := by
    induction texts with
    | nil => simp
    | cons text texts ih =>
        obtain ⟨first, others⟩ := List.forall_mem_cons.mp unbroken
        rw [List.map_cons, String.join_cons, String.toList_append, String.toList_append]
        change (text.toList ++ ['\n'] ++ _).splitOn '\n' = _
        rw [List.append_assoc, List.singleton_append,
          List.splitOn_append_cons_self_of_not_mem first, ih others]
        rfl
  simp only [lines, pieces, List.getLast?_concat, if_true, List.dropLast_concat]

end Text

namespace Capability

theorem ofName?_name (capability : Capability) : ofName? capability.name = some capability := by
  cases capability <;> decide

/-- Hooks have different names, since each is found by its name. -/
theorem name_injective {first second : Capability} (same : first.name = second.name)
    : first = second := by
  rw [← Option.some.injEq, ← ofName?_name first, ← ofName?_name second, same]

/-- No name of a hook has a line break or a closing bracket in it. -/
theorem name_plain (capability : Capability)
    : '\n' ∉ capability.name.toList ∧ ']' ∉ capability.name.toList := by
  cases capability <;> decide

end Capability

namespace TraceLine

variable (line : TraceLine)

/-- A line is its blanks, the name of the hook in brackets, and the operator. -/
theorem toList_text
    : line.text.toList
      = List.replicate (2 * line.above) ' '
        ++ '[' :: (line.capability.name.toList ++ ']' :: ' ' :: line.op.toList) := by
  simp [text, Text.toList_pushn]

/-- The indentation of a line tells how many calls are around it. -/
theorem indentation_text : Text.indentation line.text.toList = 2 * line.above := by
  simp [Text.indentation, toList_text]

/-- A line names the hook of its call. -/
theorem names_text : Text.Names line.text.toList line.capability := by
  refine ⟨' ' :: line.op.toList, ?_⟩
  simp [toList_text]

theorem unbroken_text (unbroken : '\n' ∉ line.op.toList) : '\n' ∉ line.text.toList := by
  simp [toList_text, unbroken, line.capability.name_plain.1]

/-- A line determines the call that it shows. The first bracket ends the blanks and the next closing
one ends the name of the hook, so all three parts can be told apart, whatever the operator is
called.
-/
theorem text_injective {line other : TraceLine} (same : line.text.toList = other.text.toList)
    : line = other := by
  rw [toList_text, toList_text] at same
  obtain ⟨blanks, shown⟩ := Text.append_cons_inj (by simp) (by simp) same
  obtain ⟨named, written⟩ :=
    Text.append_cons_inj line.capability.name_plain.2 other.capability.name_plain.2 shown
  have levels := congrArg List.length blanks
  rw [List.length_replicate, List.length_replicate] at levels
  exact TraceLine.ext (Nat.eq_of_mul_eq_mul_left Nat.two_pos levels)
    (Capability.name_injective (String.toList_inj.mp named))
    (String.toList_inj.mp (List.cons.inj written).2)

end TraceLine

namespace TraceNode

variable {node other : TraceNode}

/-- Where no name is broken over lines, the lines of the text are those of the listing. -/
theorem Unbroken.lines_render (unbroken : node.Unbroken)
    : Text.lines node.render = (node.listing 0).map fun line => line.text.toList := by
  rw [render, lines_eq, Text.lines_join, List.map_map]
  · rfl
  · refine List.forall_mem_map.mpr fun line member => line.unbroken_text (unbroken line.op ?_)
    rw [← map_op_listing 0]
    exact List.mem_map_of_mem member

/-- The text determines the tree: its lines are the listing, and the listing is that of one tree.
-/
theorem Unbroken.eq_of_render (unbroken : node.Unbroken) (unbroken' : other.Unbroken)
    (same : other.render = node.render)
    : other = node := by
  have lines := congrArg Text.lines same
  rw [unbroken.lines_render, unbroken'.lines_render] at lines
  exact listing_injective (List.map_injective_iff.mpr (fun _ _ => TraceLine.text_injective) lines)

/-- The text of a trace determines it where no name of an operator is broken over lines: no other such
trace has the same text, and so its operators, its hooks and the calls below each call are known, in
order. The text has one line for each call, which names the hook of that call, in order. The furthest
indented line starts with two blanks for each call on the longest path down, the first one apart.
-/
theorem render_faithful (unbroken : node.Unbroken)
    : (∀ other : TraceNode, other.Unbroken → other.render = node.render → other = node)
      ∧ List.Forall₂ Text.Names (Text.lines node.render) node.capabilities
      ∧ ((Text.lines node.render).map Text.indentation).max? = some (2 * (node.depth - 1)) := by
  refine ⟨fun other unbroken' => unbroken.eq_of_render unbroken', ?_, ?_⟩
  · rw [unbroken.lines_render, ← map_capability_listing 0, List.forall₂_map_left_iff,
      List.forall₂_map_right_iff, List.forall₂_same]
    exact fun line _ => line.names_text
  · have indented
        : (Text.lines node.render).map Text.indentation
          = (node.listing 0).map fun line => 2 * line.above := by
      rw [unbroken.lines_render, List.map_map]
      exact List.map_congr_left fun line _ => line.indentation_text
    obtain ⟨deepest, member, deep⟩ := exists_deepest 0 node
    rw [indented, List.max?_eq_some_iff]
    refine ⟨List.mem_map.mpr ⟨deepest, member, by omega⟩, ?_⟩
    refine List.forall_mem_map.mpr fun line among => ?_
    have := above_lt 0 node line among
    omega

/-- Witness: a trace in which the name of an operator looks like a line of its own, put together in two
ways.
-/
theorem render_faithful_brackets
    : ∃ node other : TraceNode,
        node.Unbroken
        ∧ other.Unbroken
        ∧ node.render
          = "[EntryInterceptor] add\n  [Batched]   [Backend] add\n    [Backend] neg\n"
            ++ "  [Backend] add\n"
        ∧ other.render = node.render
        ∧ other = node
        ∧ List.Forall₂ Text.Names (Text.lines node.render)
            [.entryInterceptor, .batched, .backend, .backend]
        ∧ ((Text.lines node.render).map Text.indentation).max? = some 4 := by
  let first : TraceNode := ⟨"  [Backend] add", .batched, [⟨"neg", .backend, []⟩]⟩
  let second : TraceNode := ⟨"add", .backend, []⟩
  let node : TraceNode := ⟨"add", .entryInterceptor, [first, second]⟩
  let root : TraceNode := ⟨"add", .entryInterceptor, []⟩
  let other := (root.withChild first).withChild second
  have unbroken : node.Unbroken := by decide
  obtain ⟨determined, named, indented⟩ := render_faithful unbroken
  exact ⟨node, other, unbroken, unbroken, by decide, rfl, determined other unbroken rfl, named,
    indented⟩

/-- A name that is broken over lines passes for a child. -/
example
    : render ⟨"add\n  [Backend] neg", .batched, []⟩
      = render ⟨"add", .batched, [⟨"neg", .backend, []⟩]⟩ := by
  decide

end TraceNode
end LayeredDispatch
