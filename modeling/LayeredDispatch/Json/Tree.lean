/-! Documents in JSON notation and their two written forms, compact and indented. -/

namespace LayeredDispatch

/-- A document. -/
inductive Json where
  | null
  | bool (value : Bool)
  /-- A number, kept as it is written. -/
  | number (text : String)
  | string (text : String)
  /-- A string whose escapes name half of a surrogate pair alone, so that it is no text. -/
  | brokenString
  | list (items : List Json)
  /-- Fields in the order in which they are written; a key may be no text either. -/
  | object (fields : List (Option String × Json))
  deriving Inhabited

namespace Json

/-- A natural number as a document. -/
def nat (number : Nat) : Json :=
  .number (toString number)

/-- An object with the given fields. -/
def record (fields : List (String × Json)) : Json :=
  .object (fields.map fun field => (some field.1, field.2))

/-- A hexadecimal digit in lower case. -/
def hexDigit (value : Nat) : Char :=
  if value < 10 then Char.ofNat (48 + value) else Char.ofNat (87 + value)

/-- A character inside a written string. Quotes, backslashes and control characters are
escaped. -/
def escapeChar (char : Char) : String :=
  match char with
  | '"' => "\\\""
  | '\\' => "\\\\"
  | '\x08' => "\\b"
  | '\x0c' => "\\f"
  | '\n' => "\\n"
  | '\r' => "\\r"
  | '\t' => "\\t"
  | other =>
      if other.toNat < 32 then
        "\\u00" ++ String.ofList [hexDigit (other.toNat / 16), hexDigit (other.toNat % 16)]
      else other.toString

/-- A string between quotes. -/
def quote (text : String) : String :=
  "\"" ++ String.join (text.toList.map escapeChar) ++ "\""

/-- The written key of a field. -/
def quoteKey (key? : Option String) : String :=
  quote (key?.getD "")

/-- The written form of anything but a list or an object. -/
def renderLeaf : Json → String
  | .null => "null"
  | .bool value => if value then "true" else "false"
  | .number text => text
  | .string text => quote text
  | .brokenString | .list _ | .object _ => "\"\""

mutual
/-- The compact written form, without blanks. -/
def render : Json → String
  | .list items => "[" ++ String.intercalate "," (renderItems items) ++ "]"
  | .object fields => "\x7b" ++ String.intercalate "," (renderFields fields) ++ "\x7d"
  | leaf => leaf.renderLeaf

/-- The compact written forms of list items. -/
def renderItems : List Json → List String
  | [] => []
  | item :: items => item.render :: renderItems items

/-- The compact written forms of object fields. -/
def renderFields : List (Option String × Json) → List String
  | [] => []
  | (key?, value) :: fields => (quoteKey key? ++ ":" ++ value.render) :: renderFields fields
end

/-- Lines between two brackets, indented by two blanks more than the brackets are; nothing but the
brackets if there are no lines. -/
def block (opening closing : String) (indent : Nat) (lines : List String) : String :=
  if lines.isEmpty then opening ++ closing
  else
    let margin := "\n".pushn ' ' (2 * indent)
    opening ++ String.intercalate "," (lines.map fun line => margin ++ "  " ++ line)
      ++ margin ++ closing

mutual
/-- The indented written form at a given depth: one item or field a line. -/
def renderIndented (indent : Nat) : Json → String
  | .list items => block "[" "]" indent (indentedItems (indent + 1) items)
  | .object fields => block "\x7b" "\x7d" indent (indentedFields (indent + 1) fields)
  | leaf => leaf.renderLeaf

/-- The indented written forms of list items. -/
def indentedItems (indent : Nat) : List Json → List String
  | [] => []
  | item :: items => item.renderIndented indent :: indentedItems indent items

/-- The indented written forms of object fields. -/
def indentedFields (indent : Nat) : List (Option String × Json) → List String
  | [] => []
  | (key?, value) :: fields =>
      (quoteKey key? ++ ": " ++ value.renderIndented indent) :: indentedFields indent fields
end

end Json
end LayeredDispatch
