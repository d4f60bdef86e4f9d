import LayeredDispatch.Capability
import LayeredDispatch.Json.Tree

/-! Dispatch traces: which hook handled each call, as a tree in which a call issued by a kernel is a
child of the call that the kernel handled; and the recorder that builds traces from calls as they start
and end.
-/

namespace LayeredDispatch

-----------------------------------------------------------------------------------------
-- Trees
-----------------------------------------------------------------------------------------

/-- One handled call. -/
structure TraceNode where
  /-- The operator. -/
  op : String
  /-- The hook whose kernel handled the call. -/
  capability : Capability
  /-- The calls that the kernel issued, in order. -/
  children : List TraceNode := []
  deriving Inhabited

namespace TraceNode

/-- The node with one more call at the end. -/
def withChild (node child : TraceNode) : TraceNode :=
  { node with children := node.children ++ [child] }

mutual
/-- The hooks of the tree, each before those of its children, children in order. -/
def capabilities : TraceNode → List Capability
  | ⟨_, capability, children⟩ => capability :: capabilitiesAll children

/-- The hooks of several trees in order. -/
def capabilitiesAll : List TraceNode → List Capability
  | [] => []
  | node :: nodes => node.capabilities ++ capabilitiesAll nodes
end

mutual
/-- The number of calls on the longest path down from the root. -/
def depth : TraceNode → Nat
  | ⟨_, _, children⟩ => 1 + depthAll children

/-- The greatest depth of several trees, zero if there are none. -/
def depthAll : List TraceNode → Nat
  | [] => 0
  | node :: nodes => max node.depth (depthAll nodes)
end

mutual
/-- One line a call, indented by two blanks for each call above it. -/
def lines (indent : Nat) : TraceNode → List String
  | ⟨op, capability, children⟩ =>
      ("".pushn ' ' (2 * indent) ++ "[" ++ capability.name ++ "] " ++ op)
        :: linesAll (indent + 1) children

/-- The lines of several trees in order. -/
def linesAll (indent : Nat) : List TraceNode → List String
  | [] => []
  | node :: nodes => node.lines indent ++ linesAll indent nodes
end

/-- The lines of the tree, each ended by a line break. -/
def render (node : TraceNode) : String :=
  String.join ((node.lines 0).map fun line => line ++ "\n")

mutual
/-- The tree as a document. Durations are not kept, so they read as zero. -/
def toJson : TraceNode → Json
  | ⟨op, capability, children⟩ =>
      .record [
        ("op", .string op),
        ("capability", .string capability.name),
        ("duration", .record [("secs", .nat 0), ("nanos", .nat 0)]),
        ("children", .list (toJsonAll children))]

/-- Several trees as documents. -/
def toJsonAll : List TraceNode → List Json
  | [] => []
  | node :: nodes => node.toJson :: toJsonAll nodes
end

end TraceNode

-----------------------------------------------------------------------------------------
-- The recorder
-----------------------------------------------------------------------------------------

/-- A trace in progress. -/
structure Recorder where
  /-- Calls that have not ended, innermost first, each with the finished calls below it. -/
  opened : List TraceNode := []
  /-- Finished calls that no other call issued, in order. -/
  roots : List TraceNode := []
  deriving Inhabited

namespace Recorder

/-- A call starts. -/
def enter (recorder : Recorder) (op : String) (capability : Capability) : Recorder :=
  { recorder with opened := ⟨op, capability, []⟩ :: recorder.opened }

/-- The innermost call ends and becomes the last child of the call around it, or the last root.
Where no call is open nothing ends. -/
def leave (recorder : Recorder) : Recorder :=
  match recorder.opened with
  | [] => recorder
  | [node] => ⟨[], recorder.roots ++ [node]⟩
  | node :: parent :: outer => { recorder with opened := parent.withChild node :: outer }

end Recorder
end LayeredDispatch
