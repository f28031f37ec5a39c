import PositionSync.Json.Lexeme
import PositionSync.Decimal.Shortest

/-!
# Values of JSON numbers

Whole numbers are kept exactly as long as they fit into 64 bits. Everything else becomes a floating
point number, from at most 64 bits of digits and a power of ten; one beyond the finite range has no
value.
-/

namespace PositionSync.Json

inductive Number where
  | whole (value : Nat)
  | negative (value : Int)
  | float (bits : UInt64)
deriving DecidableEq

/-- Digits read so far: the kept ones as a number, and how many powers of ten it has to be
multiplied by. -/
structure Scaled where
  digits : Nat
  power : Int
deriving DecidableEq

/-- Append digits as long as the number fits into 64 bits. Returns what was read and whether all
digits were kept. -/
def appendDigits (step : Int) : Scaled → List Nat → Scaled × List Nat
  | scaled, [] => (scaled, [])
  | scaled, digit :: rest =>
    if scaled.digits * 10 + digit < 0x10000000000000000 then
      appendDigits step ⟨scaled.digits * 10 + digit, scaled.power + step⟩ rest
    else (scaled, digit :: rest)

/-- The whole part and the fraction as one scaled number. Digits of the whole part that do not fit
are counted, digits of the fraction that do not fit are left out. -/
def Numeral.scaled (numeral : Numeral) : Scaled × Bool :=
  let (kept, dropped) := appendDigits 0 ⟨0, 0⟩ numeral.whole
  let whole : Scaled := ⟨kept.digits, dropped.length⟩
  ((appendDigits (-1) whole (numeral.fraction.getD [])).1, dropped.isEmpty)

/-- The largest exponent that is taken into account. -/
def largestExponent : Nat := 0x7FFFFFFF

/-- Read an exponent, unless it is too large. -/
def exponentValue? : Nat → List Nat → Option Nat
  | value, [] => some value
  | value, digit :: rest =>
    if value * 10 + digit ≤ largestExponent then exponentValue? (value * 10 + digit) rest else none

/-- Divide by the largest power of ten in a table until the power that is left lies in it. -/
def scaleDown : Nat → Float → Int → Float × Int
  | 0, value, power => (value, power)
  | fuel + 1, value, power =>
    if -308 ≤ power ∨ value == 0.0 then (value, power)
    else scaleDown fuel (value / 1e308) (power + 308)

/-- A scaled number as a floating point number, with one rounding for each step, unless it is
beyond the finite range. -/
def Scaled.toFloat? (scaled : Scaled) : Option Float :=
  let value := scaled.digits.toUInt64.toFloat
  if 0 ≤ scaled.power then
    if scaled.power ≤ 308 then
      let product := value * Float.ofScientific 1 false scaled.power.toNat
      if product.isInf then none else some product
    else if value == 0.0 then some value else none
  else
    let (value, power) := scaleDown (scaled.power.natAbs / 308 + 1) value scaled.power
    if -308 ≤ power then some (value / Float.ofScientific 1 false (-power).toNat) else some value

/-- A floating point number of either sign. -/
def signedFloat (negative : Bool) (magnitude : Float) : Number :=
  .float (if negative then -magnitude else magnitude).toBits

/-- Add two powers of ten within 32 bits. -/
def addPowers (first second : Int) : Int :=
  max (-0x80000000) (min 0x7FFFFFFF (first + second))

/-- The value of a number, unless it is beyond the range of numbers. -/
def Numeral.value? (numeral : Numeral) : Option Number :=
  let (scaled, complete) := numeral.scaled
  match numeral.exponent with
  | some (shrinks, digits) =>
    match exponentValue? 0 digits with
    | some exponent =>
      let power := addPowers scaled.power (if shrinks then -(exponent : Int) else exponent)
      (Scaled.toFloat? ⟨scaled.digits, power⟩).map (signedFloat numeral.negative)
    | none =>
      if scaled.digits ≠ 0 ∧ shrinks = false then none
      else some (signedFloat numeral.negative 0.0)
  | none =>
    if numeral.fraction.isSome ∨ complete = false then
      scaled.toFloat?.map (signedFloat numeral.negative)
    else if numeral.negative = false then some (.whole scaled.digits)
    else if 0 < scaled.digits ∧ scaled.digits ≤ 0x8000000000000000 then some (.negative (-scaled.digits))
    else some (signedFloat true scaled.digits.toUInt64.toFloat)

/-- Floating point numbers stand around a point as long as that takes few zeros. -/
def floatFormat : Decimal.FloatFormat := ⟨fun point => -5 < point && point ≤ 16⟩

end PositionSync.Json
