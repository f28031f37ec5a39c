import PositionSync.Text.Utf8

/-!
# Lexemes of JSON

A text is first cut into lexemes. The first octet that starts none ends the cutting with the lexeme
`malformed`, so that a reader which stops before that place never notices it. What a string or number
means is left to whoever needs its value.
-/

namespace PositionSync.Json

/-- One part of a string as it is spelled. -/
inductive StringPart where
  | octet (value : UInt8)
  | escaped (value : UInt8)
  /-- A code unit of sixteen bits, spelled by its number. -/
  | codeUnit (value : Nat)
deriving DecidableEq

/-- A number as it is spelled: digits of its whole part, of its fraction, and of its exponent. -/
structure Numeral where
  negative : Bool
  whole : List Nat
  fraction : Option (List Nat)
  exponent : Option (Bool × List Nat)
deriving DecidableEq

inductive Lexeme where
  | leftBrace
  | rightBrace
  | leftBracket
  | rightBracket
  | colon
  | comma
  | null
  | boolean (value : Bool)
  | number (numeral : Numeral)
  | string (parts : List StringPart)
  | malformed
deriving DecidableEq

/-- Only space, tab, line feed and carriage return may stand between lexemes. -/
def isSpace (octet : UInt8) : Bool :=
  octet = 0x20 || octet = 0x09 || octet = 0x0A || octet = 0x0D

def decimalDigit? (octet : UInt8) : Option Nat :=
  if 0x30 ≤ octet ∧ octet ≤ 0x39 then some (octet.toNat - 0x30) else none

def hexDigit? (octet : UInt8) : Option Nat :=
  if 0x30 ≤ octet ∧ octet ≤ 0x39 then some (octet.toNat - 0x30)
  else if 0x41 ≤ octet ∧ octet ≤ 0x46 then some (octet.toNat - 0x41 + 10)
  else if 0x61 ≤ octet ∧ octet ≤ 0x66 then some (octet.toNat - 0x61 + 10)
  else none

/-- The octet that a short escape stands for, by the octet behind the backslash. -/
def shortEscape? (octet : UInt8) : Option UInt8 :=
  if octet = 0x22 ∨ octet = 0x5C ∨ octet = 0x2F then some octet
  else if octet = 0x62 then some 0x08
  else if octet = 0x66 then some 0x0C
  else if octet = 0x6E then some 0x0A
  else if octet = 0x72 then some 0x0D
  else if octet = 0x74 then some 0x09
  else none

/-- The code unit spelled by four hexadecimal digits. -/
def codeUnit? (first second third fourth : UInt8) : Option Nat := do
  let first ← hexDigit? first
  let second ← hexDigit? second
  let third ← hexDigit? third
  let fourth ← hexDigit? fourth
  return ((first * 16 + second) * 16 + third) * 16 + fourth

/-- The parts of a string behind its opening quote, and the text behind its closing one. -/
def stringParts? : List UInt8 → Option (List StringPart × List UInt8)
  | [] => none
  | 0x22 :: rest => some ([], rest)
  | 0x5C :: 0x75 :: first :: second :: third :: fourth :: rest => do
    let value ← codeUnit? first second third fourth
    let (parts, after) ← stringParts? rest
    return (.codeUnit value :: parts, after)
  | 0x5C :: octet :: rest => do
    let value ← shortEscape? octet
    let (parts, after) ← stringParts? rest
    return (.escaped value :: parts, after)
  | octet :: rest =>
    if octet < 0x20 ∨ octet = 0x5C then none
    else do
      let (parts, after) ← stringParts? rest
      return (.octet octet :: parts, after)

/-- The longest run of decimal digits, and the text behind it. -/
def takeDigits : List UInt8 → List Nat × List UInt8
  | [] => ([], [])
  | octet :: rest =>
    match decimalDigit? octet with
    | some digit => (digit :: (takeDigits rest).1, (takeDigits rest).2)
    | none => ([], octet :: rest)

/-- The whole part of a number: a zero alone, or digits that do not begin with one. -/
def wholePart? (text : List UInt8) : Option (List Nat × List UInt8) :=
  match takeDigits text with
  | ([], _) => none
  | ([digit], rest) => some ([digit], rest)
  | (0 :: _ :: _, _) => none
  | (digits, rest) => some (digits, rest)

def fractionPart? : List UInt8 → Option (Option (List Nat) × List UInt8)
  | 0x2E :: text =>
    match takeDigits text with
    | ([], _) => none
    | (digits, rest) => some (some digits, rest)
  | text => some (none, text)

/-- The sign of an exponent; it is negative only behind a minus. -/
def exponentSign : List UInt8 → Bool × List UInt8
  | 0x2B :: rest => (false, rest)
  | 0x2D :: rest => (true, rest)
  | text => (false, text)

def exponentPart? : List UInt8 → Option (Option (Bool × List Nat) × List UInt8)
  | [] => some (none, [])
  | octet :: text =>
    if octet = 0x65 ∨ octet = 0x45 then
      match takeDigits (exponentSign text).2 with
      | ([], _) => none
      | (digits, rest) => some (some ((exponentSign text).1, digits), rest)
    else some (none, octet :: text)

def numeral? (negative : Bool) (text : List UInt8) : Option (Numeral × List UInt8) := do
  let (whole, text) ← wholePart? text
  let (fraction, text) ← fractionPart? text
  let (exponent, text) ← exponentPart? text
  return (⟨negative, whole, fraction, exponent⟩, text)

/-- The first lexeme of a text that does not start with space, and the text behind it. -/
def lexeme? : List UInt8 → Option (Lexeme × List UInt8)
  | [] => none
  | 0x7B :: rest => some (.leftBrace, rest)
  | 0x7D :: rest => some (.rightBrace, rest)
  | 0x5B :: rest => some (.leftBracket, rest)
  | 0x5D :: rest => some (.rightBracket, rest)
  | 0x3A :: rest => some (.colon, rest)
  | 0x2C :: rest => some (.comma, rest)
  | 0x22 :: rest => (stringParts? rest).map fun (parts, after) => (.string parts, after)
  | 0x6E :: 0x75 :: 0x6C :: 0x6C :: rest => some (.null, rest)
  | 0x74 :: 0x72 :: 0x75 :: 0x65 :: rest => some (.boolean true, rest)
  | 0x66 :: 0x61 :: 0x6C :: 0x73 :: 0x65 :: rest => some (.boolean false, rest)
  | 0x2D :: rest => (numeral? true rest).map fun (numeral, after) => (.number numeral, after)
  | text => (numeral? false text).map fun (numeral, after) => (.number numeral, after)

/-- The lexemes of a text, at most `fuel` of them. -/
def lexemesWithin : Nat → List UInt8 → List Lexeme
  | 0, _ => []
  | fuel + 1, text =>
    match text.dropWhile isSpace with
    | [] => []
    | octet :: rest =>
      match lexeme? (octet :: rest) with
      | none => [.malformed]
      | some (lexeme, after) => lexeme :: lexemesWithin fuel after

/-- The lexemes of a text. Each takes at least one octet, so no more are needed than there are
octets. -/
def lexemes (text : List UInt8) : List Lexeme := lexemesWithin text.length text

/-- The characters of the parts of a string as octets: a pair of surrogate code units stands for one
character, and a lone one for none. -/
def partOctets? : List StringPart → Option (List UInt8)
  | [] => some []
  | .octet value :: rest => (partOctets? rest).map (value :: ·)
  | .escaped value :: rest => (partOctets? rest).map (value :: ·)
  | .codeUnit high :: .codeUnit low :: rest =>
    if 0xD800 ≤ high ∧ high ≤ 0xDBFF ∧ 0xDC00 ≤ low ∧ low ≤ 0xDFFF then
      (partOctets? rest).map
        (Utf8.encodeChar (Char.ofNat (0x10000 + (high - 0xD800) * 0x400 + (low - 0xDC00))) ++ ·)
    else if 0xD800 ≤ high ∧ high ≤ 0xDFFF then none
    else (partOctets? (.codeUnit low :: rest)).map (Utf8.encodeChar (Char.ofNat high) ++ ·)
  | .codeUnit value :: rest =>
    if 0xD800 ≤ value ∧ value ≤ 0xDFFF then none
    else (partOctets? rest).map (Utf8.encodeChar (Char.ofNat value) ++ ·)

/-- The text of a string, if its parts are well-formed characters. -/
def textOf? (parts : List StringPart) : Option String :=
  (partOctets? parts).bind Utf8.decode?

end PositionSync.Json
