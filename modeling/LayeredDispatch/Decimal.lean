/-! The text of a floating-point number in reports: the shortest decimal that reads back, and of the
shortest ones the nearest, positional with a fractional part near one, and with a power of ten far from
it. Everything up to the text is exact arithmetic on natural numbers.
-/

namespace LayeredDispatch

-----------------------------------------------------------------------------------------
-- The shortest decimal
-----------------------------------------------------------------------------------------

/-- The number `digits * 10 ^ exponent`. -/
structure Decimal where
  /-- The significant digits, read as one natural number. -/
  digits : Nat
  /-- The power of ten of the last digit. -/
  exponent : Int
  deriving DecidableEq, Inhabited

namespace Decimal

/-- A positive binary number `mantissa * 2 ^ exponent` among its neighbours of the same format. -/
structure Binary where
  /-- The mantissa. -/
  mantissa : Nat
  /-- The power of two of its last bit. -/
  exponent : Int
  /-- Whether the next smaller number is only half as far away as the next larger one. -/
  nearBelow : Bool
  deriving DecidableEq, Inhabited

namespace Binary

/-- The leading bit of a mantissa, which is not written where the exponent bits are not all
zero. -/
def hiddenBit : Nat := 0x10000000000000

/-- The magnitude of a finite number with the given sign, exponent and fraction bits; the sign is
not looked at. -/
def ofBits (bits : UInt64) : Binary :=
  let fraction : Nat := bits.toNat % hiddenBit
  let field : Nat := bits.toNat / hiddenBit % 2048
  if field = 0 then ⟨fraction, -1074, false⟩
  else ⟨hiddenBit + fraction, (field : Int) - 1075, fraction = 0 && 1 < field⟩

/-- Numerator and denominator of one quarter of a unit in the last place. -/
def quarter (number : Binary) : Nat × Nat :=
  (Nat.pow 2 (number.exponent - 2).toNat, Nat.pow 2 (2 - number.exponent).toNat)

/-- The power of ten just above the number: the least `e` with the number below `10 ^ e`, as long
as it is no smaller than `10 ^ (-400)`. -/
def magnitude (number : Binary) : Int :=
  let (numerator, denominator) := number.quarter
  let value := 4 * number.mantissa * numerator
  if denominator ≤ value then
    ((Nat.toDigits 10 (value / denominator)).length : Int)
  else
    match (List.range 400).find? fun places => denominator ≤ value * Nat.pow 10 (places + 1) with
    | some places => -(places : Int)
    | none => -400

/-- The decimal with the last digit at `10 ^ place` that lies within half a gap of the number, the
nearer one if there are two and the larger one if they are equally near. The ends of that interval
belong to it exactly if the mantissa is even. -/
def onGrid? (number : Binary) (place : Int) : Option Nat :=
  let (numerator, denominator) := number.quarter
  let unit := denominator * Nat.pow 10 place.toNat
  let scale := numerator * Nat.pow 10 (-place).toNat
  let value := 4 * number.mantissa * scale
  let low := value - (if number.nearBelow then scale else 2 * scale)
  let high := value + 2 * scale
  let within (candidate : Nat) : Bool :=
    if number.mantissa % 2 = 0 then low ≤ candidate * unit && candidate * unit ≤ high
    else low < candidate * unit && candidate * unit < high
  let below := value / unit
  let above := below + 1
  match within below, within above with
  | true, true => if value - below * unit < above * unit - value then some below else some above
  | true, false => some below
  | false, true => some above
  | false, false => none

end Binary

/-- The decimal without trailing zeros among its digits. -/
def trim : Nat → Decimal → Decimal
  | 0, decimal => decimal
  | fuel + 1, decimal =>
      if decimal.digits % 10 = 0 then trim fuel ⟨decimal.digits / 10, decimal.exponent + 1⟩
      else decimal

/-- The shortest decimal within half a gap of a positive number. Seventeen digits always
suffice. -/
def shortest (number : Binary) : Decimal :=
  let top := number.magnitude
  let found := (List.range 17).findSome? fun count =>
    let place := top - (count + 1 : Nat)
    (number.onGrid? place).map fun digits => (⟨digits, place⟩ : Decimal)
  trim 18 (found.getD ⟨0, 0⟩)

end Decimal

-----------------------------------------------------------------------------------------
-- Its text
-----------------------------------------------------------------------------------------

namespace Decimal

/-- Which powers of ten a leading digit may have for the number to be written positionally. -/
structure Layout where
  /-- The least such power. -/
  lowest : Int
  /-- The greatest such power. -/
  highest : Int

/-- Numbers from one ten-thousandth up to ten quadrillions are written positionally. -/
def Layout.report : Layout := ⟨-4, 15⟩

/-- Writes a positive decimal. A positional number has at least one fractional digit. -/
def render (layout : Layout) (decimal : Decimal) : String :=
  let digits := toString decimal.digits
  let leading := decimal.exponent + (digits.length : Int) - 1
  let zeros (count : Int) : String := "".pushn '0' count.toNat
  let cut (count : Nat) : String × String :=
    (String.ofList (digits.toList.take count), String.ofList (digits.toList.drop count))
  if layout.lowest ≤ leading ∧ leading ≤ layout.highest then
    if 0 ≤ decimal.exponent then digits ++ zeros decimal.exponent ++ ".0"
    else if 0 ≤ leading then
      let (whole, fraction) := cut (leading.toNat + 1)
      whole ++ "." ++ fraction
    else "0." ++ zeros (-leading - 1) ++ digits
  else
    let (first, rest) := cut 1
    first ++ (if rest.isEmpty then "" else "." ++ rest) ++ "e" ++ toString leading

/-- Writes any floating-point number; a zero keeps its sign. -/
def renderFloat (layout : Layout) (number : Float) : String :=
  let sign := if number.toBits >>> 63 = 0 then "" else "-"
  if number.isNaN then "NaN"
  else if number.isInf then sign ++ "inf"
  else if number == 0 then sign ++ "0.0"
  else sign ++ render layout (shortest (Binary.ofBits number.toBits))

end Decimal
end LayeredDispatch
