import LayeredDispatch.Json.Reader
import LayeredDispatch.Layer
import LayeredDispatch.Settings
import LayeredDispatch.Shape

/-! The documents that stand for capabilities, sets, overlays, shapes, transforms, policies and
settings. A record is read from an object, whose unknown fields are ignored, or from a list of its
fields in order; a name is read from a string or from an object with one field of value null. -/

namespace LayeredDispatch
namespace Json

/-- A natural number below `limit`, written as digits only. -/
def natBelow? (limit : Nat) : Json → Option Nat
  | .number text =>
      if text.toList.all Char.isDigit then text.toNat?.filter (· < limit) else none
  | _ => none

/-- A truth value. -/
def bool? : Json → Option Bool
  | .bool value => some value
  | _ => none

/-- The items of a list. -/
def items? : Json → Option (List Json)
  | .list items => some items
  | _ => none

/-- A bare name. -/
def name? : Json → Option String
  | .string text => some text
  | .object [(some text, .null)] => some text
  | _ => none

/-- The values written under one field name: none, one, or a refusal if there are more. -/
def unique? (fields : List (Option String × Json)) (name : String) : Option (Option Json) :=
  match fields.filter fun field => field.1 == some name with
  | [] => some none
  | [field] => some (some field.2)
  | _ => none

/-- The values of the fields of a record, in the order of `names`, with `none` for a missing one.
-/
def fields? (names : List String) : Json → Option (List (Option Json))
  | .object fields =>
      if fields.all fun field => field.1.isSome then names.mapM (unique? fields) else none
  | .list items =>
      if items.length ≤ names.length then
        some (items.map some ++ List.replicate (names.length - items.length) none)
      else none
  | _ => none

end Json

/-- A capability from its name. -/
def Capability.ofJson? (document : Json) : Option Capability :=
  document.name?.bind Capability.ofName?

/-- The document of a capability. -/
def Capability.toJson (capability : Capability) : Json :=
  .string capability.name

/-- A set from its bits. -/
def CapabilitySet.ofJson? (document : Json) : Option CapabilitySet :=
  (document.natBelow? UInt16.size).map fun bits => ⟨BitVec.ofNat 16 bits⟩

/-- The document of a set. -/
def CapabilitySet.toJson (set : CapabilitySet) : Json :=
  .nat set.bits.toNat

/-- An overlay from its two masks. -/
def Overlay.ofJson? (document : Json) : Option Overlay := do
  match ← document.fields? ["included", "excluded"] with
  | [some included, some excluded] =>
      return ⟨← CapabilitySet.ofJson? included, ← CapabilitySet.ofJson? excluded⟩
  | _ => none

/-- The document of an overlay. -/
def Overlay.toJson (overlay : Overlay) : Json :=
  .record [("included", overlay.included.toJson), ("excluded", overlay.excluded.toJson)]

/-- A shape from its dimensions. -/
def Shape.ofJson? (document : Json) : Option Shape := do
  match ← document.fields? ["dims"] with
  | [some dims] => return ⟨← (← dims.items?).mapM (Json.natBelow? Size.bound)⟩
  | _ => none

/-- The document of a shape. -/
def Shape.toJson (shape : Shape) : Json :=
  .record [("dims", .list (shape.dims.map Json.nat))]

/-- A transform kind from its name. -/
def TransformKind.ofJson? (document : Json) : Option TransformKind := do
  let name ← document.name?
  [TransformKind.differentiation, .batching].find? fun kind => kind.render == name

/-- The document of a transform kind. -/
def TransformKind.toJson (kind : TransformKind) : Json :=
  .string kind.render

/-- A policy from its word. -/
def Randomness.ofJson? (document : Json) : Option Randomness := do
  let name ← document.name?
  [Randomness.error, .same, .different].find? fun policy => policy.word == name

/-- The document of a policy. -/
def Randomness.toJson (randomness : Randomness) : Json :=
  .string randomness.word

/-- Settings from their switches; a missing one keeps its default. -/
def Settings.ofJson? (document : Json) : Option Settings := do
  match ← document.fields? ["show_dispatch_trace", "check_unwrapped_at_base"] with
  | [tracing, checking] =>
      let switch (written? : Option Json) (default : Bool) : Option Bool :=
        match written? with
        | some written => written.bool?
        | none => some default
      return {
        showDispatchTrace := ← switch tracing ({} : Settings).showDispatchTrace
        checkUnwrapped := ← switch checking ({} : Settings).checkUnwrapped }
  | _ => none

/-- The document of settings. -/
def Settings.toJson (settings : Settings) : Json :=
  .record [("show_dispatch_trace", .bool settings.showDispatchTrace),
    ("check_unwrapped_at_base", .bool settings.checkUnwrapped)]

/-- Settings from a text. -/
def Settings.parse? (text : String) : Option Settings :=
  (Json.parse? text).bind Settings.ofJson?

end LayeredDispatch
