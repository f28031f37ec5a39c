import PositionSync.Decimal.Shortest
import PositionSync.Reading.Fault
import PositionSync.Yaml.Document

/-!
# Types of plain scalars

A plain scalar is null, a boolean, an integer, a floating point number or else a text, by the rules
of the core schema. Digits with a leading zero are a text.
-/

namespace PositionSync.Yaml

def isNullWord (text : String) : Bool := ["null", "Null", "NULL", "~"].contains text

def boolean? (text : String) : Option Bool :=
  if ["true", "True", "TRUE"].contains text then some true
  else if ["false", "False", "FALSE"].contains text then some false
  else none

/-- The number spelled in a base, if it is not larger than `largest`. -/
def radixDigits? (base largest : Nat) : Nat → List Char → Option Nat
  | value, [] => some value
  | value, char :: rest =>
    match hexDigit? char with
    | some digit =>
      if digit < base ∧ value * base + digit ≤ largest then
        radixDigits? base largest (value * base + digit) rest
      else none
    | none => none

/-- The number spelled in a base by at least one digit. -/
def radixNumber? (base largest : Nat) (digits : List Char) : Option Nat :=
  if digits.isEmpty then none else radixDigits? base largest 0 digits

/-- The number behind the mark of a base other than ten. -/
def markedNumber? (largest : Nat) : List Char → Option Nat
  | '0' :: 'x' :: digits => radixNumber? 16 largest digits
  | '0' :: 'o' :: digits => radixNumber? 8 largest digits
  | '0' :: 'b' :: digits => radixNumber? 2 largest digits
  | _ => none

def withoutSign : List Char → List Char
  | '+' :: rest | '-' :: rest => rest
  | chars => chars

/-- Digits with a leading zero are no number. -/
def hasLeadingZero (chars : List Char) : Bool :=
  match withoutSign chars with
  | '0' :: digit :: rest => (digit :: rest).all fun char => '0' ≤ char && char ≤ '9'
  | _ => false

def unsigned? (largest : Nat) (chars : List Char) : Option Nat :=
  let digits := match chars with
    | '+' :: rest => rest
    | chars => chars
  (markedNumber? largest digits).or
    (if hasLeadingZero chars then none else radixNumber? 10 largest digits)

def negative? (largest : Nat) : List Char → Option Int
  | '-' :: digits =>
    ((markedNumber? largest digits).or
      (if hasLeadingZero digits then none else radixNumber? 10 largest digits)).map
        fun value => -(value : Int)
  | _ => none

/-- A whole number: in 64 bits if it fits, else in twice as many. -/
def integer? (text : String) : Option Found :=
  let chars := text.toList
  ((unsigned? 0xFFFFFFFFFFFFFFFF chars).map fun value => Found.integer value).or <|
    ((negative? 0x8000000000000000 chars).map Found.integer).or <|
      ((unsigned? 0xFFFFFFFFFFFFFFFFFFFFFFFFFFFFFFFF chars).map fun value => Found.wideInteger value).or <|
        (negative? 0x80000000000000000000000000000000 chars).map Found.wideInteger

/-- The value of a run of digits behind a number. -/
def appendDecimal (value : Nat) (digits : List Char) : Nat :=
  digits.foldl (fun value digit => value * 10 + (digit.toNat - '0'.toNat)) value

def exponent? : List Char → Option Int
  | [] => some 0
  | char :: rest =>
    let digits := withoutSign rest
    if (char = 'e' || char = 'E') && !digits.isEmpty && digits.all Char.isDigit then
      let value : Int := appendDecimal 0 digits
      some (if rest.head? = some '-' then -value else value)
    else none

/-- The finite floating point number next to `digits * 10 ^ exponent`. -/
def nearestFloat? (digits : Nat) (exponent : Int) : Option Float :=
  let point := ((Nat.toDigits 10 digits).length : Int) + exponent
  if digits = 0 ∨ point < -400 then some 0.0
  else if 400 < point then none
  else
    let value :=
      if 0 ≤ exponent then Float.ofScientific digits false exponent.toNat
      else Float.ofScientific digits true (-exponent).toNat
    if value.isInf then none else some value

def decimalFraction? (chars : List Char) : Option Float := do
  let whole := chars.takeWhile Char.isDigit
  let rest := chars.drop whole.length
  let (fraction, rest) := match rest with
    | '.' :: digits => (digits.takeWhile Char.isDigit, digits.dropWhile Char.isDigit)
    | rest => ([], rest)
  if whole.isEmpty && fraction.isEmpty then none
  let exponent ← exponent? rest
  nearestFloat? (appendDecimal (appendDecimal 0 whole) fraction) (exponent - fraction.length)

/-- A floating point number: infinite, not a number, or a finite decimal fraction. -/
def float? (text : String) : Option Float :=
  let infinite := [".inf", ".Inf", ".INF"]
  if infinite.any fun word => text = word || text = "+" ++ word then some (1.0 / 0.0)
  else if infinite.any fun word => text = "-" ++ word then some (-1.0 / 0.0)
  else if [".nan", ".NaN", ".NAN"].contains text then some (0.0 / 0.0)
  else match text.toList with
  | '+' :: '-' :: _ | '+' :: '+' :: _ => none
  | '-' :: rest => (decimalFraction? rest).map fun value => -value
  | '+' :: rest => decimalFraction? rest
  | chars => decimalFraction? chars

/-- Floating point numbers always stand around a point. -/
def floatFormat : Decimal.FloatFormat := ⟨fun _ => true⟩

/-- What a floating point number is in a message. -/
def foundFloat (value : Float) : Found := .float (floatFormat.render value.toBits)

def resolve (text : String) : Found :=
  if text.isEmpty || isNullWord text then .unit
  else match boolean? text with
  | some value => .boolean value
  | none =>
    match integer? text with
    | some found => found
    | none =>
      if hasLeadingZero text.toList then .text text
      else match float? text with
      | some value => foundFloat value
      | none => .text text

/-- The tag of a type of the core schema. -/
def coreTag (name : String) : Option Tag := some (Utf8.encode ("tag:yaml.org,2002:" ++ name))

/-- What a tagged text is, if it fits its tag. -/
def orMistagged (text : String) (found : Option Found) (described expected : String) : Fault :=
  match found with
  | some found => .invalidType found expected
  | none => .invalidValue (.text text) described

/-- The fault of a scalar where something else is expected. A text that does not fit its tag is a
fault by itself. Tags that begin with an exclamation mark say nothing about a plain scalar. -/
def Scalar.fault (scalar : Scalar) (expected : String) : Fault :=
  let text := scalar.text
  if scalar.tag = coreTag "bool" then
    orMistagged text ((boolean? text).map Found.boolean) "a boolean" expected
  else if scalar.tag = coreTag "int" then
    orMistagged text (integer? text) "an integer" expected
  else if scalar.tag = coreTag "float" then
    orMistagged text ((float? text).map foundFloat) "a float" expected
  else if scalar.tag = coreTag "null" then
    orMistagged text (if isNullWord text then some .unit else none) "null" expected
  else if scalar.style = .plain ∧ scalar.tag.all (·.head? = some 0x21) then
    .invalidType (resolve text) expected
  else .invalidType (.text text) expected

/-- The fault of a node where something else is expected. -/
def Node.fault (expected : String) : Node → Fault
  | .scalar content => content.fault expected
  | .sequenceStart => .invalidType .sequence expected
  | .mappingStart => .invalidType .mapping expected
  | .alias target => target.fault expected
  | .sequenceEnd | .mappingEnd | .void | .malformed => .malformed

end PositionSync.Yaml
