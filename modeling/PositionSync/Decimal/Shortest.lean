/-!
# The shortest decimal text of a floating point number

Of all decimals that read back as a given number the one with the fewest digits is written, and of
several the nearest. The search is exact: a finite number is `significand * 2 ^ exponent`, and a
decimal reads back if it lies in the interval of reals that round to the number.
-/

namespace PositionSync.Decimal

/-- A finite positive binary number `significand * 2 ^ exponent`, and whether the gap below it is
half as wide as the gap above it. -/
structure Binary where
  significand : Nat
  exponent : Int
  narrowBelow : Bool
deriving DecidableEq

/-- The magnitude held in the 64 bits of a finite floating point number. -/
def Binary.ofBits (bits : UInt64) : Binary :=
  let fraction : Nat := bits.toNat % 0x10000000000000
  let biased : Nat := bits.toNat / 0x10000000000000 % 0x800
  if biased = 0 then ⟨fraction, -1074, false⟩
  else ⟨0x10000000000000 + fraction, (biased : Int) - 1075, fraction = 0 && biased ≠ 1⟩

structure Scientific where
  digits : Nat
  exponent : Int
deriving DecidableEq

structure Fraction where
  numerator : Nat
  denominator : Nat

def Fraction.power (factor base : Nat) (exponent : Int) : Fraction :=
  if 0 ≤ exponent then ⟨factor * base.pow exponent.toNat, 1⟩
  else ⟨factor, base.pow (-exponent).toNat⟩

def Fraction.less (first second : Fraction) : Bool :=
  first.numerator * second.denominator < second.numerator * first.denominator

/-- Whether a fraction lies among those that round to the number; the ends of the interval belong to
it if the significand is even. -/
def Binary.admits (binary : Binary) (candidate : Fraction) : Bool :=
  let lowest := Fraction.power
    (4 * binary.significand - if binary.narrowBelow then 1 else 2) 2 (binary.exponent - 2)
  let highest := Fraction.power (4 * binary.significand + 2) 2 (binary.exponent - 2)
  if binary.significand % 2 = 0 then !candidate.less lowest && !highest.less candidate
  else lowest.less candidate && candidate.less highest

/-- The least `position` with the number below `10 ^ position`, searched upwards. -/
def pointPosition (value : Fraction) : Nat → Int → Int
  | 0, position => position
  | more + 1, position =>
    if value.less (Fraction.power 1 10 position) then position
    else pointPosition value more (position + 1)

/-- The multiple of `10 ^ exponent` next to the number that reads back as it, if there is one. Of the
two neighbours the nearer wins, in a tie the even one. -/
def neighbour? (binary : Binary) (value : Fraction) (exponent : Int) : Option Scientific :=
  let unit := Fraction.power 1 10 exponent
  let below :=
    value.numerator * unit.denominator / (value.denominator * unit.numerator)
  let above := below + 1
  let centre := Fraction.power (2 * below + 1) 10 exponent
  let doubled : Fraction := ⟨2 * value.numerator, value.denominator⟩
  let fitsBelow := 0 < below && binary.admits (Fraction.power below 10 exponent)
  let fitsAbove := binary.admits (Fraction.power above 10 exponent)
  if fitsBelow && fitsAbove then
    if doubled.less centre then some ⟨below, exponent⟩
    else if centre.less doubled then some ⟨above, exponent⟩
    else some ⟨if below % 2 = 0 then below else above, exponent⟩
  else if fitsBelow then some ⟨below, exponent⟩
  else if fitsAbove then some ⟨above, exponent⟩
  else none

/-- The first grid, from the coarsest, that has a decimal which reads back. -/
def searchGrids (binary : Binary) (value : Fraction) : Nat → Int → Scientific
  | 0, exponent => ⟨0, exponent⟩
  | more + 1, exponent =>
    (neighbour? binary value exponent).getD (searchGrids binary value more (exponent - 1))

/-- The same decimal without zeros at the end of its digits; `fuel` bounds their number. -/
def Scientific.trimmed : Nat → Scientific → Scientific
  | 0, decimal => decimal
  | fuel + 1, decimal =>
    if decimal.digits % 10 = 0 ∧ decimal.digits ≠ 0 then
      trimmed fuel ⟨decimal.digits / 10, decimal.exponent + 1⟩
    else decimal

/-- The shortest decimal that reads back as a positive number. -/
def Binary.shortest (binary : Binary) : Scientific :=
  let value := Fraction.power binary.significand 2 binary.exponent
  let position := pointPosition value 700 (-330)
  (searchGrids binary value 18 (position - 1)).trimmed 20

/-- How a floating point number is written: between which powers of ten its digits stand around a
point instead of before an exponent. -/
structure FloatFormat where
  positional : Int → Bool

/-- Digits around a decimal point; a whole number has one zero behind the point. -/
def Scientific.positional (decimal : Scientific) : String :=
  let digits := Nat.toDigits 10 decimal.digits
  let point := (digits.length : Int) + decimal.exponent
  String.ofList <|
    if 0 ≤ decimal.exponent then
      digits ++ List.replicate decimal.exponent.toNat '0' ++ ['.', '0']
    else if 0 < point then
      digits.take point.toNat ++ ['.'] ++ digits.drop point.toNat
    else
      ['0', '.'] ++ List.replicate (-point).toNat '0' ++ digits

/-- One digit, the others behind a point, and the power of ten with its sign. -/
def Scientific.withExponent (decimal : Scientific) : String :=
  let digits := Nat.toDigits 10 decimal.digits
  let power := (digits.length : Int) + decimal.exponent - 1
  let shown := match digits with
    | [] => []
    | [only] => [only]
    | first :: rest => first :: '.' :: rest
  String.ofList (shown ++ ['e']) ++ (if 0 ≤ power then "+" else "") ++ toString power

/-- The text of the floating point number with these bits. -/
def FloatFormat.render (format : FloatFormat) (bits : UInt64) : String :=
  let sign := if bits.toNat / 0x8000000000000000 = 1 then "-" else ""
  let magnitude := bits.toNat % 0x8000000000000000
  if magnitude = 0 then sign ++ "0.0"
  else if magnitude = 0x7FF * 0x10000000000000 then sign ++ "inf"
  else if 0x7FF * 0x10000000000000 < magnitude then "NaN"
  else
    let decimal := (Binary.ofBits bits).shortest
    let point := ((Nat.toDigits 10 decimal.digits).length : Int) + decimal.exponent
    sign ++ if format.positional point then decimal.positional else decimal.withExponent

end PositionSync.Decimal
