/-!
# Places in a YAML text

A cursor is a place in a text: what is left of it, the number of octets in front of that, and the line
and column where it begins. The end of the text counts as the end of a line.

A text is read in portions. The part of it that can be read ends before the first portion with a
character that is not allowed.
-/

namespace PositionSync.Yaml

/-- The characters that may stand in a text at all. -/
def isAllowed (char : Char) : Bool :=
  let code := char.toNat
  code = 0x09 || code = 0x0A || code = 0x0D || (0x20 ≤ code && code ≤ 0x7E) || code = 0x85 ||
    (0xA0 ≤ code && code ≤ 0xD7FF) || (0xE000 ≤ code && code ≤ 0xFFFD) || 0x10000 ≤ code

/-- The most octets that a portion of a text has. -/
def portionSize : Nat := 16384

/-- The number of characters in front of the first portion with a character that is not allowed, if
there is one. Of the current portion `size` octets have been read, and it begins behind `finished`
characters; `count` characters have been read in all. -/
def readableCount? : (finished count size : Nat) → List Char → Option Nat
  | _, _, _, [] => none
  | finished, count, size, char :: rest =>
    if portionSize < size + char.utf8Size then
      if isAllowed char then readableCount? count (count + 1) char.utf8Size rest else some count
    else if isAllowed char then readableCount? finished (count + 1) (size + char.utf8Size) rest
    else some finished

/-- The part of a text that can be read, and whether that is not all of it. -/
def readablePart (text : List Char) : List Char × Bool :=
  match readableCount? 0 0 0 text with
  | none => (text, false)
  | some count => (text.take count, true)

def isBlank (char : Char) : Bool := char = ' ' || char = '\t'

def isBreak (char : Char) : Bool :=
  char = '\n' || char = '\r' || char = '\x85' || char = '\u2028' || char = '\u2029'

/-- The characters of handles and names. -/
def isWordChar (char : Char) : Bool :=
  ('0' ≤ char && char ≤ '9') || ('A' ≤ char && char ≤ 'Z') || ('a' ≤ char && char ≤ 'z') ||
    char = '_' || char = '-'

def atLineEnd : List Char → Bool
  | [] => true
  | char :: _ => isBreak char

/-- Whether the text ends or a blank or line end comes here. -/
def atSpace : List Char → Bool
  | [] => true
  | char :: _ => isBlank char || isBreak char

/-- Whether a text begins with three characters and space behind them. -/
def atMarker (char : Char) : List Char → Bool
  | first :: second :: third :: rest =>
    first = char && second = char && third = char && atSpace rest
  | _ => false

/-- Whether a line with this text starts or ends a document. -/
def atDocumentMarker (chars : List Char) : Bool := atMarker '-' chars || atMarker '.' chars

/-- Take one line end off, with the characters that stand for it in a scalar. A carriage return and
the line feed behind it are one line end. -/
def takeBreak? : List Char → Option (List Char × List Char)
  | '\r' :: '\n' :: rest => some (['\n'], rest)
  | char :: rest =>
    if char = '\u2028' ∨ char = '\u2029' then some ([char], rest)
    else if isBreak char then some (['\n'], rest)
    else none
  | [] => none

structure Cursor where
  rest : List Char
  index : Nat
  line : Nat
  column : Nat
deriving DecidableEq

namespace Cursor

def start (text : List Char) : Cursor := ⟨text, 0, 0, 0⟩

def skip (cursor : Cursor) : Nat → Cursor
  | 0 => cursor
  | count + 1 =>
    match cursor.rest with
    | [] => cursor
    | char :: rest =>
      skip ⟨rest, cursor.index + char.utf8Size, cursor.line, cursor.column + 1⟩ count

/-- Go over the characters of one line as long as they satisfy a condition. -/
def skipWhile (condition : Char → Bool) (cursor : Cursor) : Cursor :=
  cursor.skip (cursor.rest.takeWhile condition).length

/-- Go over one character. A carriage return ends a line only if no line feed comes behind it. -/
def step (cursor : Cursor) : Cursor :=
  match cursor.rest with
  | [] => cursor
  | '\r' :: '\n' :: rest => ⟨'\n' :: rest, cursor.index + 1, cursor.line, cursor.column⟩
  | char :: rest =>
    if isBreak char then ⟨rest, cursor.index + char.utf8Size, cursor.line + 1, 0⟩
    else ⟨rest, cursor.index + char.utf8Size, cursor.line, cursor.column + 1⟩

def skipBreak (cursor : Cursor) : Cursor :=
  match cursor.rest with
  | '\r' :: '\n' :: _ => cursor.step.step
  | char :: _ => if isBreak char then cursor.step else cursor
  | [] => cursor

def stepOver : Nat → Cursor → Cursor
  | 0, cursor => cursor
  | count + 1, cursor => stepOver count cursor.step

/-- Go on to a later place, given by what is left of the text there. -/
def advanceTo (cursor : Cursor) (later : List Char) : Cursor :=
  stepOver (cursor.rest.length - later.length) cursor

def skipComment (cursor : Cursor) : Cursor :=
  match cursor.rest with
  | '#' :: _ => cursor.skipWhile fun char => !isBreak char
  | _ => cursor

/-- Go over blanks and a comment to the end of the line. Nothing else may stand there. -/
def finishLine? (cursor : Cursor) : Option Cursor :=
  let stopped := (cursor.skipWhile isBlank).skipComment
  if atLineEnd stopped.rest then some stopped.skipBreak else none

end Cursor

end PositionSync.Yaml
