/-! Interception hooks, the order in which the dispatcher consults them, sets of them, and the overlay
that a thread puts on the hooks that the arguments of a call carry. A set has sixteen bits. Those above
the eighth have no capability: they count and survive the set operations, but no capability is found in
them.
-/

namespace LayeredDispatch

-----------------------------------------------------------------------------------------
-- Capabilities
-----------------------------------------------------------------------------------------

/-- A hook on which kernels can be installed, lowest priority first. -/
inductive Capability where
  /-- The base operators; part of every dispatch set. -/
  | backend
  /-- Takes a call that a layer hands down and passes it to the layer below. -/
  | exitInterceptor
  /-- Carried by level-tagged values; catches dead ones outside every layer. -/
  | taggedWrapper
  /-- In-place and view bookkeeping, owned by differentiation. -/
  | inplaceOrView
  /-- The body of differentiation layers. -/
  | differentiation
  /-- The body of batching layers. -/
  | batched
  /-- Fires under a batching layer whether or not an argument is batched. -/
  | batchMode
  /-- Fires before all other hooks while any layer is active. -/
  | entryInterceptor
  deriving DecidableEq, Inhabited

namespace Capability

/-- Every capability, lowest priority first. -/
def all : List Capability :=
  [.backend, .exitInterceptor, .taggedWrapper, .inplaceOrView, .differentiation, .batched,
    .batchMode, .entryInterceptor]

/-- The position in `all`: of two capabilities the one with the larger priority is consulted
first. -/
def priority : Capability → Nat
  | .backend => 0
  | .exitInterceptor => 1
  | .taggedWrapper => 2
  | .inplaceOrView => 3
  | .differentiation => 4
  | .batched => 5
  | .batchMode => 6
  | .entryInterceptor => 7

/-- The name under which a capability is read and written. -/
def name : Capability → String
  | .backend => "Backend"
  | .exitInterceptor => "ExitInterceptor"
  | .taggedWrapper => "TaggedWrapper"
  | .inplaceOrView => "InplaceOrView"
  | .differentiation => "Differentiation"
  | .batched => "Batched"
  | .batchMode => "BatchMode"
  | .entryInterceptor => "EntryInterceptor"

/-- The capability with a given name. -/
def ofName? (text : String) : Option Capability :=
  all.find? fun capability => capability.name == text

/-- Capabilities sorted by priority, lowest first; repeated ones are kept. -/
def sort (capabilities : List Capability) : List Capability :=
  capabilities.mergeSort fun left right => left.priority ≤ right.priority

/-- Every capability is listed. -/
theorem mem_all (capability : Capability) : capability ∈ all := by
  cases capability <;> decide

/-- A capability is determined by its priority. -/
theorem priority_injective {left right : Capability} (same : left.priority = right.priority)
    : left = right := by
  cases left <;> cases right <;> first | rfl | cases same

/-- Priorities are positions in `all`. -/
theorem priority_lt (capability : Capability) : capability.priority < 8 := by
  cases capability <;> decide

end Capability

-----------------------------------------------------------------------------------------
-- Sets of capabilities
-----------------------------------------------------------------------------------------

/-- A set of capabilities: bit `c.priority` tells whether `c` is a member. -/
structure CapabilitySet where
  /-- The members, and the unnamed bits. -/
  bits : BitVec 16 := 0
  deriving DecidableEq, Inhabited

namespace CapabilitySet

instance : EmptyCollection CapabilitySet := ⟨⟨0⟩⟩

instance : Union CapabilitySet := ⟨fun left right => ⟨left.bits ||| right.bits⟩⟩

instance : SDiff CapabilitySet := ⟨fun left right => ⟨left.bits &&& ~~~right.bits⟩⟩

/-- The bit that stands for a capability. -/
def bit (capability : Capability) : BitVec 16 :=
  BitVec.twoPow 16 capability.priority

/-- The set with `capability` added. -/
def insert (set : CapabilitySet) (capability : Capability) : CapabilitySet :=
  ⟨set.bits ||| bit capability⟩

/-- The set with `capability` removed. -/
def erase (set : CapabilitySet) (capability : Capability) : CapabilitySet :=
  ⟨set.bits &&& ~~~bit capability⟩

/-- The set with `capability` added or removed. -/
def set (set : CapabilitySet) (capability : Capability) (member : Bool) : CapabilitySet :=
  if member then set.insert capability else set.erase capability

/-- The set that holds exactly the listed capabilities. -/
def ofList (capabilities : List Capability) : CapabilitySet :=
  capabilities.foldl insert ∅

/-- The set of one capability. -/
def only (capability : Capability) : CapabilitySet :=
  insert ∅ capability

/-- Every capability except the base operators: whatever a layer can own or route through. -/
def interception : CapabilitySet :=
  (ofList Capability.all).erase .backend

/-- Whether a capability is a member. -/
def contains (set : CapabilitySet) (capability : Capability) : Bool :=
  set.bits.getLsbD capability.priority

instance : Membership Capability CapabilitySet :=
  ⟨fun set capability => set.contains capability = true⟩

instance (capability : Capability) (set : CapabilitySet) : Decidable (capability ∈ set) :=
  inferInstanceAs (Decidable (set.contains capability = true))

/-- Whether no bit is set, the unnamed ones included. -/
def isEmpty (set : CapabilitySet) : Bool :=
  set.bits == 0

/-- The number of bits set, the unnamed ones included. -/
def size (set : CapabilitySet) : Nat :=
  (List.range 16).countP set.bits.getLsbD

/-- The members in the order in which they are consulted, highest priority first. -/
def toList (set : CapabilitySet) : List Capability :=
  Capability.all.reverse.filter set.contains

/-- The member of highest priority. -/
def highest? (set : CapabilitySet) : Option Capability :=
  set.toList.head?

/-- The names of the members, highest priority first, between braces. -/
def render (set : CapabilitySet) : String :=
  "\x7b" ++ String.intercalate ", " (set.toList.map Capability.name) ++ "\x7d"

-----------------------------------------------------------------------------------------
-- Membership after each operation
-----------------------------------------------------------------------------------------

/-- Membership is what `contains` computes. -/
theorem mem_iff {capability : Capability} {set : CapabilitySet}
    : capability ∈ set ↔ set.contains capability = true :=
  Iff.rfl

/-- The empty set has no members. -/
@[simp] theorem contains_empty (capability : Capability)
    : (∅ : CapabilitySet).contains capability = false := by
  cases capability <;> rfl

/-- The members of a union are those of both sets. -/
@[simp] theorem contains_union (left right : CapabilitySet) (capability : Capability)
    : (left ∪ right).contains capability
      = (left.contains capability || right.contains capability) := by
  simp [contains, Union.union]

/-- The members of a difference are those of the first set that are not in the second. -/
@[simp] theorem contains_sdiff (left right : CapabilitySet) (capability : Capability)
    : (left \ right).contains capability
      = (left.contains capability && !right.contains capability) := by
  have small : capability.priority < 16 := by have := capability.priority_lt; omega
  simp [contains, SDiff.sdiff, small]

/-- Adding a capability makes it a member and keeps the others. -/
@[simp] theorem contains_insert (set : CapabilitySet) (added capability : Capability)
    : (set.insert added).contains capability
      = (set.contains capability || decide (added = capability)) := by
  have small : capability.priority < 16 := by have := capability.priority_lt; omega
  simp only [contains, insert, bit, BitVec.getLsbD_or, BitVec.getLsbD_twoPow]
  by_cases same : added = capability
  · simp [same, small]
  · have apart : ¬ added.priority = capability.priority :=
      fun equal => same (Capability.priority_injective equal)
    simp [same, apart]

/-- Removing a capability takes it away and keeps the others. -/
@[simp] theorem contains_erase (set : CapabilitySet) (removed capability : Capability)
    : (set.erase removed).contains capability
      = (set.contains capability && !decide (removed = capability)) := by
  have small : capability.priority < 16 := by have := capability.priority_lt; omega
  simp only [contains, erase, bit, BitVec.getLsbD_and, BitVec.getLsbD_not,
    BitVec.getLsbD_twoPow]
  by_cases same : removed = capability
  · simp [same, small]
  · have apart : ¬ removed.priority = capability.priority :=
      fun equal => same (Capability.priority_injective equal)
    simp [same, apart, small]

/-- The members are listed, and nothing else is. -/
@[simp] theorem mem_toList {set : CapabilitySet} {capability : Capability}
    : capability ∈ set.toList ↔ capability ∈ set := by
  simp [toList, Capability.mem_all, mem_iff]

end CapabilitySet

-----------------------------------------------------------------------------------------
-- The overlay of a thread
-----------------------------------------------------------------------------------------

/-- Hooks that a thread forces on and hooks that it hides; hiding wins. -/
structure Overlay where
  /-- Hooks reachable whatever the arguments are. -/
  included : CapabilitySet := ∅
  /-- Hooks unreachable whatever the arguments are. -/
  excluded : CapabilitySet := ∅
  deriving DecidableEq, Inhabited

namespace Overlay

/-- The dispatch set of a call whose arguments carry `carried`. The base operators are always
reachable. -/
def apply (overlay : Overlay) (carried : CapabilitySet) : CapabilitySet :=
  ((carried ∪ overlay.included) \ overlay.excluded).insert .backend

/-- The overlay with `capability` forced on and no longer hidden. -/
def enable (overlay : Overlay) (capability : Capability) : Overlay where
  included := overlay.included.insert capability
  excluded := overlay.excluded.erase capability

/-- The overlay with `capability` added to or removed from the included hooks. -/
def setIncluded (overlay : Overlay) (capability : Capability) (member : Bool) : Overlay :=
  { overlay with included := overlay.included.set capability member }

/-- The overlay with `capability` added to or removed from the excluded hooks. -/
def setExcluded (overlay : Overlay) (capability : Capability) (member : Bool) : Overlay :=
  { overlay with excluded := overlay.excluded.set capability member }

/-- The overlay with the entry and exit interceptors included or not. They are included exactly
while a layer is active. -/
def setInterception (overlay : Overlay) (active : Bool) : Overlay :=
  (overlay.setIncluded .entryInterceptor active).setIncluded .exitInterceptor active

/-- The overlay with the interception family hidden and none of it forced on. -/
def zeroed (overlay : Overlay) : Overlay where
  included := overlay.included \ CapabilitySet.interception
  excluded := overlay.excluded ∪ CapabilitySet.interception

/-- The overlay under which a call that leaves a layer meets the entry interceptor again. -/
def front (overlay : Overlay) : Overlay :=
  overlay.enable .entryInterceptor

/-- Both masks, as they appear in state reports. -/
def render (overlay : Overlay) : String :=
  "include=" ++ overlay.included.render ++ " exclude=" ++ overlay.excluded.render

/-- A capability other than the base operators is reachable exactly if it is carried or included,
and not excluded. -/
@[simp] theorem contains_apply (overlay : Overlay) (carried : CapabilitySet)
    (capability : Capability)
    : (overlay.apply carried).contains capability
      = (((carried.contains capability || overlay.included.contains capability)
          && !overlay.excluded.contains capability)
        || decide (Capability.backend = capability)) := by
  simp [apply]

end Overlay
end LayeredDispatch
