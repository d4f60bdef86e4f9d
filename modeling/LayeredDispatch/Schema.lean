/-! Operator schemas: names, typed slots and their aliasing annotations. -/

namespace LayeredDispatch

/-- The declared type of a slot. -/
inductive SlotType where
  | tensor
  | tensorList
  | int
  | intList
  | float
  deriving DecidableEq, Inhabited

/-- The written form of a slot type. -/
def SlotType.render : SlotType → String
  | .tensor => "Tensor"
  | .tensorList => "Tensor[]"
  | .int => "int"
  | .intList => "int[]"
  | .float => "float"

/-- The slot type with a given written form. -/
def SlotType.ofText? (text : String) : Option SlotType :=
  [SlotType.tensor, .tensorList, .int, .intList, .float].find? fun type => type.render == text

/-- Membership of a slot in a named alias set. -/
structure Alias where
  /-- The name of the set: slots of one set share their storage. -/
  set : Char
  /-- Whether the storage is written through this slot. -/
  written : Bool
  deriving DecidableEq, Inhabited

/-- One argument or return of an operator. -/
structure Slot where
  /-- The name of the slot. -/
  name : String
  /-- Its declared type. -/
  type : SlotType
  /-- The alias set that it belongs to, if any. -/
  alias? : Option Alias := none
  deriving DecidableEq, Inhabited

namespace Slot

/-- The slot as one that is written through alias set `set`. -/
def mutating (slot : Slot) (set : Char) : Slot :=
  { slot with alias? := some ⟨set, true⟩ }

/-- The slot as a read-only member of alias set `set`. -/
def aliasing (slot : Slot) (set : Char) : Slot :=
  { slot with alias? := some ⟨set, false⟩ }

/-- Whether the slot is written in place. -/
def isWritten (slot : Slot) : Bool :=
  slot.alias?.any Alias.written

/-- The type of the slot with its alias set: an exclamation mark tells that it is written. -/
def render (slot : Slot) : String :=
  match slot.alias? with
  | none => slot.type.render
  | some info =>
      slot.type.render ++ "(" ++ info.set.toString ++ (if info.written then "!" else "") ++ ")"

end Slot

/-- The name and signature of an operator. -/
structure Schema where
  /-- The name under which the operator is called. -/
  name : String
  /-- Argument slots, first one deepest on the value stack. -/
  arguments : List Slot := []
  /-- Return slots, in the same order. -/
  returns : List Slot := []
  deriving DecidableEq, Inhabited

namespace Schema

/-- The number of values that a call consumes. -/
def arity (schema : Schema) : Nat :=
  schema.arguments.length

/-- The number of values that a call produces. -/
def resultCount (schema : Schema) : Nat :=
  schema.returns.length

/-- Whether some argument is written in place. -/
def isMutable (schema : Schema) : Bool :=
  schema.arguments.any Slot.isWritten

/-- Whether the operator is a plain in-place one: its first argument is written, no other argument
is aliased, and there is one return, which is written too. -/
def isInPlace (schema : Schema) : Bool :=
  match schema.arguments, schema.returns with
  | first :: others, [result] =>
      first.isWritten && others.all (fun slot => slot.alias?.isNone) && result.isWritten
  | _, _ => false

/-- The signature in one line; a single return is written without parentheses. -/
def render (schema : Schema) : String :=
  let arguments := schema.arguments.map fun slot => slot.render ++ " " ++ slot.name
  let returns := schema.returns.map Slot.render
  let shownReturns :=
    match returns with
    | [single] => single
    | several => "(" ++ String.intercalate ", " several ++ ")"
  schema.name ++ "(" ++ String.intercalate ", " arguments ++ ") -> " ++ shownReturns

end Schema
end LayeredDispatch
