import LayeredDispatch.Json.Tree

/-! Reading a document: the text is cut into tokens, and the tokens build the document on a stack
of open lists and objects, so no nesting is too deep. -/

namespace LayeredDispatch
namespace Json

/-- A unit of the notation. -/
inductive Token where
  | openList
  | closeList
  | openObject
  | closeObject
  | comma
  | colon
  /-- A literal, a number or a string. -/
  | leaf (value : Json)

/-- A part of a quoted string: a character, or a surrogate that an escape names. -/
inductive Piece where
  | char (char : Char)
  | surrogate (code : Nat)

/-- The value of a hexadecimal digit in either case. -/
def hexValue? (char : Char) : Option Nat :=
  if '0' ≤ char ∧ char ≤ '9' then some (char.toNat - 48)
  else if 'a' ≤ char ∧ char ≤ 'f' then some (char.toNat - 87)
  else if 'A' ≤ char ∧ char ≤ 'F' then some (char.toNat - 55)
  else none

/-- The piece with a given sixteen-bit code. -/
def Piece.ofCode (code : Nat) : Piece :=
  if 0xD800 ≤ code ∧ code < 0xE000 then .surrogate code else .char (Char.ofNat code)

/-- The character that a one-letter escape stands for. -/
def shortEscape? : Char → Option Char
  | '"' => some '"'
  | '\\' => some '\\'
  | '/' => some '/'
  | 'b' => some '\x08'
  | 'f' => some '\x0c'
  | 'n' => some '\n'
  | 'r' => some '\r'
  | 't' => some '\t'
  | _ => none

/-- Reads a string after its opening quote, and gives what follows its closing quote. A control
character must be escaped. -/
def readPieces? : List Char → Option (List Piece × List Char)
  | '"' :: rest => some ([], rest)
  | '\\' :: 'u' :: first :: second :: third :: fourth :: rest => do
      let code := (((← hexValue? first) * 16 + (← hexValue? second)) * 16
        + (← hexValue? third)) * 16 + (← hexValue? fourth)
      let (pieces, after) ← readPieces? rest
      return (Piece.ofCode code :: pieces, after)
  | '\\' :: letter :: rest => do
      let char ← shortEscape? letter
      let (pieces, after) ← readPieces? rest
      return (.char char :: pieces, after)
  | char :: rest => do
      if char.toNat < 32 then none
      let (pieces, after) ← readPieces? rest
      return (.char char :: pieces, after)
  | [] => none

/-- Joins surrogate pairs; there is no text if one stands alone. -/
def joinPieces? : List Piece → Option (List Char)
  | [] => some []
  | .char char :: rest => return char :: (← joinPieces? rest)
  | .surrogate high :: .surrogate low :: rest => do
      if high < 0xDC00 ∧ 0xDC00 ≤ low then
        let code := 0x10000 + (high - 0xD800) * 0x400 + (low - 0xDC00)
        return Char.ofNat code :: (← joinPieces? rest)
      else none
  | .surrogate _ :: _ => none

/-- The document that a quoted string stands for. -/
def ofPieces (pieces : List Piece) : Json :=
  match joinPieces? pieces with
  | some chars => .string (String.ofList chars)
  | none => .brokenString

/-- Reads one or more digits. -/
def readDigits? (chars : List Char) : Option (List Char × List Char) :=
  let digits := chars.takeWhile Char.isDigit
  if digits.isEmpty then none else some (digits, chars.dropWhile Char.isDigit)

/-- Reads the digits before the point: a zero stands alone. -/
def readWhole? : List Char → Option (List Char × List Char)
  | '0' :: rest =>
      match rest with
      | next :: _ => if next.isDigit then none else some (['0'], rest)
      | [] => some (['0'], [])
  | chars => readDigits? chars

/-- Reads an optional fractional part. -/
def readFraction? : List Char → Option (List Char × List Char)
  | '.' :: rest => do
      let (digits, after) ← readDigits? rest
      return ('.' :: digits, after)
  | chars => some ([], chars)

/-- Reads an optional power of ten. -/
def readPower? : List Char → Option (List Char × List Char)
  | mark :: rest =>
      if mark = 'e' ∨ mark = 'E' then do
        let (sign, unsigned) :=
          match rest with
          | '+' :: after => (['+'], after)
          | '-' :: after => (['-'], after)
          | _ => ([], rest)
        let (digits, after) ← readDigits? unsigned
        return (mark :: sign ++ digits, after)
      else some ([], mark :: rest)
  | [] => some ([], [])

/-- Reads a number. -/
def readNumber? (chars : List Char) : Option (Json × List Char) := do
  let (sign, unsigned) :=
    match chars with
    | '-' :: rest => (['-'], rest)
    | _ => ([], chars)
  let (whole, afterWhole) ← readWhole? unsigned
  let (fraction, afterFraction) ← readFraction? afterWhole
  let (power, rest) ← readPower? afterFraction
  return (.number (String.ofList (sign ++ whole ++ fraction ++ power)), rest)

/-- Reads the token at the head of a text that does not start with a blank. -/
def readToken? : List Char → Option (Token × List Char)
  | '[' :: rest => some (.openList, rest)
  | ']' :: rest => some (.closeList, rest)
  | '\x7b' :: rest => some (.openObject, rest)
  | '\x7d' :: rest => some (.closeObject, rest)
  | ',' :: rest => some (.comma, rest)
  | ':' :: rest => some (.colon, rest)
  | '"' :: rest => (readPieces? rest).map fun (pieces, after) => (.leaf (ofPieces pieces), after)
  | 'n' :: 'u' :: 'l' :: 'l' :: rest => some (.leaf .null, rest)
  | 't' :: 'r' :: 'u' :: 'e' :: rest => some (.leaf (.bool true), rest)
  | 'f' :: 'a' :: 'l' :: 's' :: 'e' :: rest => some (.leaf (.bool false), rest)
  | chars => (readNumber? chars).map fun (value, after) => (.leaf value, after)

/-- The characters that may stand between tokens. -/
def isBlank (char : Char) : Bool :=
  char = ' ' || char = '\n' || char = '\r' || char = '\t'

/-- Cuts a text into tokens. Every token takes at least one character, so a budget of the length
of the text is enough. -/
def readTokens? : Nat → List Char → Option (List Token)
  | budget, chars =>
      match chars.dropWhile isBlank with
      | [] => some []
      | next =>
          match budget with
          | 0 => none
          | budget + 1 => do
              let (token, rest) ← readToken? next
              return token :: (← readTokens? budget rest)

-----------------------------------------------------------------------------------------
-- Documents
-----------------------------------------------------------------------------------------

/-- A list or an object whose end has not been read; its parts stand in reverse. -/
inductive Frame where
  | list (items : List Json)
  /-- An object, with the key of the field being read. -/
  | object (fields : List (Option String × Json)) (key? : Option String)

/-- What may follow. -/
inductive Expected where
  | value
  | valueOrClose
  | key
  | keyOrClose
  | colon
  | separatorOrClose
  | nothing
  deriving DecidableEq

/-- A document being read. -/
structure Reading where
  /-- Open lists and objects, innermost first. -/
  frames : List Frame := []
  /-- What may follow. -/
  expected : Expected := .value
  /-- The document, once nothing may follow. -/
  result : Json := .null

/-- Puts a finished document into the innermost open list or object. -/
def Reading.deliver (value : Json) : List Frame → Reading
  | [] => ⟨[], .nothing, value⟩
  | .list items :: frames => ⟨.list (value :: items) :: frames, .separatorOrClose, .null⟩
  | .object fields key? :: frames =>
      ⟨.object ((key?, value) :: fields) none :: frames, .separatorOrClose, .null⟩

/-- Reads one token. -/
def Reading.step (reading : Reading) (token : Token) : Option Reading :=
  match reading.expected, token, reading.frames with
  | .value, .leaf value, frames | .valueOrClose, .leaf value, frames =>
      some (deliver value frames)
  | .value, .openList, frames | .valueOrClose, .openList, frames =>
      some ⟨.list [] :: frames, .valueOrClose, .null⟩
  | .value, .openObject, frames | .valueOrClose, .openObject, frames =>
      some ⟨.object [] none :: frames, .keyOrClose, .null⟩
  | .key, .leaf (.string text), .object fields _ :: frames
  | .keyOrClose, .leaf (.string text), .object fields _ :: frames =>
      some ⟨.object fields (some text) :: frames, .colon, .null⟩
  | .key, .leaf .brokenString, .object fields _ :: frames
  | .keyOrClose, .leaf .brokenString, .object fields _ :: frames =>
      some ⟨.object fields none :: frames, .colon, .null⟩
  | .colon, .colon, frames => some ⟨frames, .value, .null⟩
  | .separatorOrClose, .comma, .list items :: frames =>
      some ⟨.list items :: frames, .value, .null⟩
  | .separatorOrClose, .comma, .object fields key? :: frames =>
      some ⟨.object fields key? :: frames, .key, .null⟩
  | .separatorOrClose, .closeList, .list items :: frames
  | .valueOrClose, .closeList, .list items :: frames =>
      some (deliver (.list items.reverse) frames)
  | .separatorOrClose, .closeObject, .object fields _ :: frames
  | .keyOrClose, .closeObject, .object fields _ :: frames =>
      some (deliver (.object fields.reverse) frames)
  | _, _, _ => none

/-- Reads a text that holds one document and blanks. -/
def parse? (text : String) : Option Json := do
  let chars := text.toList
  let tokens ← readTokens? chars.length chars
  let reading ← tokens.foldlM Reading.step {}
  if reading.expected = .nothing then some reading.result else none

end Json
end LayeredDispatch
