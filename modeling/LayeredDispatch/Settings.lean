/-! Diagnostic switches of the dispatch path and the texts that set them. Blanks around such a text are
the characters with the Unicode property `White_Space`.
-/

namespace LayeredDispatch

-----------------------------------------------------------------------------------------
-- Blanks
-----------------------------------------------------------------------------------------

namespace Text

/-- The ranges of code points with the property `White_Space`, ends included. -/
def blankRanges : List (Nat × Nat) :=
  [(0x9, 0xD), (0x20, 0x20), (0x85, 0x85), (0xA0, 0xA0), (0x1680, 0x1680), (0x2000, 0x200A),
    (0x2028, 0x2029), (0x202F, 0x202F), (0x205F, 0x205F), (0x3000, 0x3000)]

/-- Whether a character has the property `White_Space`. -/
def isBlank (char : Char) : Bool :=
  blankRanges.any fun range => range.1 ≤ char.toNat && char.toNat ≤ range.2

/-- A text without the blanks at both its ends. -/
def trim (chars : List Char) : List Char :=
  ((chars.dropWhile isBlank).reverse.dropWhile isBlank).reverse

end Text

-----------------------------------------------------------------------------------------
-- Switches
-----------------------------------------------------------------------------------------

/-- The switches in force. -/
structure Settings where
  /-- Log layer stacks and the moments at which calls enter and leave the layers. -/
  showDispatchTrace : Bool := false
  /-- Before the last layer hands a call to the base operators, require that no live wrapper is
  left among its arguments. -/
  checkUnwrapped : Bool := true
  deriving DecidableEq, Inhabited

namespace Settings

/-- A switch written by hand, in any letter case and with blanks around it. Nothing but blanks
switches off. -/
def parseFlag? (text : String) : Option Bool :=
  let word := String.ofList ((Text.trim text.toList).map Char.toLower)
  if ["1", "true", "yes", "on"].contains word then some true
  else if ["0", "false", "no", "off", ""].contains word then some false
  else none

/-- The switches that two optional texts set. One that is missing or unreadable keeps its
default. -/
def ofTexts (showDispatchTrace checkUnwrapped : Option String) : Settings where
  showDispatchTrace := (showDispatchTrace.bind parseFlag?).getD ({} : Settings).showDispatchTrace
  checkUnwrapped := (checkUnwrapped.bind parseFlag?).getD ({} : Settings).checkUnwrapped

/-- The switches as a record in reports. -/
def render (settings : Settings) : String :=
  "DispatchConfig \x7b show_dispatch_trace: " ++ toString settings.showDispatchTrace
    ++ ", check_unwrapped_at_base: " ++ toString settings.checkUnwrapped ++ " \x7d"

end Settings
end LayeredDispatch
