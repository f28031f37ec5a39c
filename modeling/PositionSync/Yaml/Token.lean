import PositionSync.Text.Utf8
import PositionSync.Yaml.Scalar

/-!
# Tokens of YAML

Indentation and the marks of keys become tokens of their own, so that the structure of a text can be
read off its tokens alone.
-/

namespace PositionSync.Yaml

abbrev Tag := List UInt8

inductive Token where
  | streamEnd
  | version (major minor : Nat)
  | tagHandle (handle : String) (expansion : Tag)
  | documentStart
  | documentEnd
  | blockSequenceStart
  | blockMappingStart
  | blockEnd
  | flowSequenceStart
  | flowSequenceEnd
  | flowMappingStart
  | flowMappingEnd
  | blockEntry
  | flowEntry
  | key
  | value
  | alias (name : String)
  | anchor (name : String)
  | tag (handle : String) (suffix : Tag)
  | scalar (style : Style) (text : String)
  /-- The text does not go on with any token. -/
  | malformed
deriving DecidableEq

/-- The characters of a tag besides those of words; commas and brackets only where the tag is
delimited. -/
def isTagChar (delimited : Bool) (char : Char) : Bool :=
  isWordChar char || ";/?:@&=+$.%!~*'()".toList.contains char ||
    (delimited && (char = ',' || char = '[' || char = ']'))

/-- The octet spelled behind a percent sign. -/
def percentOctet? : List Char → Option (UInt8 × List Char)
  | '%' :: first :: second :: rest => do
    return ((((← hexDigit? first) * 16 + (← hexDigit? second)).toUInt8), rest)
  | _ => none

/-- Octets that go on with a character, each of them spelled behind a percent sign. -/
def percentTail? : Nat → List Char → Option (List UInt8 × List Char)
  | 0, chars => some ([], chars)
  | count + 1, chars => do
    let (octet, rest) ← percentOctet? chars
    if octet / 0x40 = 2 then
      let (octets, rest) ← percentTail? count rest
      return (octet :: octets, rest)
    else none

/-- The octets of one character, spelled behind percent signs. Their number has to be the one that
the first octet announces; that they spell a character in the shortest way is not asked for. -/
def percentOctets? (chars : List Char) : Option (List UInt8 × List Char) := do
  let (octet, rest) ← percentOctet? chars
  let count ←
    if octet < 0x80 then some 0
    else if octet / 0x20 = 6 then some 1
    else if octet / 0x10 = 0xE then some 2
    else if octet / 8 = 0x1E then some 3
    else none
  let (octets, rest) ← percentTail? count rest
  return (octet :: octets, rest)

/-- The octets of a tag, with those spelled behind percent signs put in. The steps are not more than
the characters of `bound`. -/
def tagOctetsWithin? (delimited : Bool) :
    List Char → List Char → Option (List UInt8 × List Char)
  | [], chars => some ([], chars)
  | _, [] => some ([], [])
  | _ :: bound, char :: rest =>
    if char = '%' then do
      let (spelled, rest) ← percentOctets? (char :: rest)
      let (octets, rest) ← tagOctetsWithin? delimited bound rest
      return (spelled ++ octets, rest)
    else if isTagChar delimited char then do
      let (octets, rest) ← tagOctetsWithin? delimited bound rest
      return (char.toNat.toUInt8 :: octets, rest)
    else some ([], char :: rest)

/-- The octets of a tag, and the text behind it. Each step takes a character. -/
def tagOctets? (delimited : Bool) (chars : List Char) : Option (List UInt8 × List Char) :=
  tagOctetsWithin? delimited chars chars

/-- A tag reaches up to the first null octet. -/
def Tag.ofOctets (octets : List UInt8) : Tag := octets.takeWhile (· ≠ 0)

/-- A handle: an exclamation mark, or a word between two of them. In a text that is not closed by a
second mark the word stays open. -/
def tagHandle? : List Char → Option (List Char × List Char)
  | '!' :: rest =>
    let word := rest.takeWhile isWordChar
    match rest.dropWhile isWordChar with
    | '!' :: rest => some ('!' :: word ++ ['!'], rest)
    | rest => some ('!' :: word, rest)
  | _ => none

/-- Whether a handle has a second exclamation mark. -/
def isClosedHandle (handle : List Char) : Bool :=
  2 ≤ handle.length && handle.getLast? = some '!'

/-- Whether the character behind a tag may stand there. -/
def endsTag (inFlow : Bool) (chars : List Char) : Bool :=
  atSpace chars || (inFlow && chars.head? = some ',')

/-- A tag without delimiters: a handle and what follows it. -/
def shorthandTag? (chars : List Char) : Option (Token × List Char) := do
  let (handle, rest) ← tagHandle? chars
  let (octets, after) ← tagOctets? false rest
  if isClosedHandle handle then
    if octets.isEmpty then none
    else return (.tag (String.ofList handle) (.ofOctets octets), after)
  else
    let suffix := Tag.ofOctets (handle.tail.flatMap Utf8.encodeChar ++ octets)
    if suffix.isEmpty then return (.tag "" (Utf8.encode "!"), after)
    else return (.tag "!" suffix, after)

/-- A tag between angle brackets. -/
def delimitedTag? (chars : List Char) : Option (Token × List Char) := do
  let (octets, after) ← tagOctets? true chars
  match octets, after with
  | [], _ => none
  | octets, '>' :: rest => return (.tag "" (.ofOctets octets), rest)
  | _, _ => none

def tag? (inFlow : Bool) (chars : List Char) : Option (Token × List Char) := do
  let (token, rest) ← match chars with
    | '!' :: '<' :: rest => delimitedTag? rest
    | chars => shorthandTag? chars
  if endsTag inFlow rest then return (token, rest) else none

/-- The name of an anchor or alias, which certain characters have to follow. -/
def anchorName? (chars : List Char) : Option String :=
  let name := chars.takeWhile isWordChar
  let rest := chars.dropWhile isWordChar
  if !name.isEmpty && (atSpace rest || rest.head?.any "?:,]\x7d%@`".toList.contains) then
    some (String.ofList name)
  else none

/-- A part of a version number: at most nine digits. -/
def versionPart? (chars : List Char) : Option (Nat × List Char) :=
  let digits := chars.takeWhile fun char => '0' ≤ char && char ≤ '9'
  if digits.isEmpty || 9 < digits.length then none
  else some (digits.foldl (fun value digit => value * 10 + (digit.toNat - '0'.toNat)) 0,
    chars.drop digits.length)

def version? (chars : List Char) : Option (Token × List Char) := do
  let (major, rest) ← versionPart? (chars.dropWhile isBlank)
  match rest with
  | '.' :: rest =>
    let (minor, rest) ← versionPart? rest
    return (.version major minor, rest)
  | _ => none

/-- The rest of a tag directive: a handle and its expansion. -/
def handleDirective? (chars : List Char) : Option (Token × List Char) := do
  let (handle, rest) ← tagHandle? (chars.dropWhile isBlank)
  if !isClosedHandle handle && handle ≠ ['!'] then none
  else if !rest.head?.any isBlank then none
  else
    let rest := rest.dropWhile isBlank
    let (octets, after) ← tagOctets? true rest
    if octets.isEmpty || !atSpace after then none
    else return (.tagHandle (String.ofList handle) (.ofOctets octets), after)

/-- A directive behind its percent sign. Only two directives are known. -/
def directive? (chars : List Char) : Option (Token × List Char) :=
  let name := chars.takeWhile isWordChar
  let rest := chars.dropWhile isWordChar
  if !atSpace rest then none
  else if name = "YAML".toList then version? rest
  else if name = "TAG".toList then handleDirective? rest
  else none

end PositionSync.Yaml
