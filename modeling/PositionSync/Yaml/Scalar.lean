import PositionSync.Yaml.Cursor

/-!
# Texts of scalars

A scalar is written plainly, between quotes, or as an indented block. Inside plain and quoted scalars
the blanks and line ends between two words are folded: a single line end becomes a space, of several
the first is dropped.
-/

namespace PositionSync.Yaml

inductive Style where
  | plain
  | singleQuoted
  | doubleQuoted
  | literal
  | folded
deriving DecidableEq

/-- What has been read since the last character that is neither blank nor line end. Of blanks, and of
line ends behind the first one, the latest comes first. -/
inductive Gap where
  | blanks (latest : List Char)
  /-- The first line end, which is empty if it was escaped, and those after it. -/
  | breaks (first latest : List Char)

namespace Gap

def none : Gap := .blanks []

def isNone : Gap → Bool
  | .blanks latest => latest.isEmpty
  | .breaks .. => false

def hasBreak : Gap → Bool
  | .blanks _ => false
  | .breaks .. => true

/-- Blanks count only up to the first line end. -/
def addBlank (char : Char) : Gap → Gap
  | .blanks latest => .blanks (char :: latest)
  | .breaks first latest => .breaks first latest

/-- Line ends take the place of the blanks before them. -/
def addBreak (text : List Char) : Gap → Gap
  | .blanks _ => .breaks text []
  | .breaks first latest => .breaks first (text ++ latest)

def text : Gap → List Char
  | .blanks latest => latest.reverse
  | .breaks ['\n'] [] => [' ']
  | .breaks ['\n'] latest => latest.reverse
  | .breaks first latest => first ++ latest.reverse

end Gap

def hexDigit? (char : Char) : Option Nat :=
  if '0' ≤ char ∧ char ≤ '9' then some (char.toNat - '0'.toNat)
  else if 'A' ≤ char ∧ char ≤ 'F' then some (char.toNat - 'A'.toNat + 10)
  else if 'a' ≤ char ∧ char ≤ 'f' then some (char.toNat - 'a'.toNat + 10)
  else none

/-- The number spelled by the next `count` hexadecimal digits. -/
def hexNumber? : Nat → Nat → List Char → Option Nat
  | 0, value, _ => some value
  | _ + 1, _, [] => none
  | count + 1, value, char :: rest =>
    (hexDigit? char).bind fun digit => hexNumber? count (value * 16 + digit) rest

/-- The character with a number; surrogates and numbers beyond the last character have none. -/
def charOfNumber? (number : Nat) : Option Char :=
  if 0xD800 ≤ number ∧ number ≤ 0xDFFF ∨ 0x10FFFF < number then none
  else some (Char.ofNat number)

def numberEscape? (count : Nat) (rest : List Char) : Option (Char × Nat) := do
  let number ← hexNumber? count 0 rest
  return (← charOfNumber? number, 1 + count)

/-- The character that an escape behind the backslash stands for, and the number of characters that
spell it. -/
def escape? : List Char → Option (Char × Nat)
  | [] => none
  | '0' :: _ => some ('\x00', 1)
  | 'a' :: _ => some ('\x07', 1)
  | 'b' :: _ => some ('\x08', 1)
  | 't' :: _ | '\t' :: _ => some ('\t', 1)
  | 'n' :: _ => some ('\n', 1)
  | 'v' :: _ => some ('\x0b', 1)
  | 'f' :: _ => some ('\x0c', 1)
  | 'r' :: _ => some ('\r', 1)
  | 'e' :: _ => some ('\x1b', 1)
  | ' ' :: _ => some (' ', 1)
  | '"' :: _ => some ('"', 1)
  | '/' :: _ => some ('/', 1)
  | '\\' :: _ => some ('\\', 1)
  | 'N' :: _ => some ('\x85', 1)
  | '_' :: _ => some ('\xa0', 1)
  | 'L' :: _ => some ('\u2028', 1)
  | 'P' :: _ => some ('\u2029', 1)
  | 'x' :: rest => numberEscape? 2 rest
  | 'u' :: rest => numberEscape? 4 rest
  | 'U' :: rest => numberEscape? 8 rest
  | _ :: _ => none

/-- Put characters in front of a text that is read further on. -/
def prepend {α : Type} (chars : List Char) : Option (List Char × α) → Option (List Char × α) :=
  Option.map fun (text, rest) => (chars ++ text, rest)

/-- The character around a quoted scalar. -/
def quotation (single : Bool) : Char := if single then '\'' else '"'

/-- The text of a quoted scalar behind its opening quote, and the place behind its closing one. No
document may start or end in it. The steps are not more than the characters of `bound`. -/
def quotedFrom (single : Bool) : List Char → Gap → Cursor → Option (List Char × Cursor)
  | [], _, _ => none
  | _ :: bound, gap, cursor =>
    match cursor.rest with
    | [] => none
    | char :: rest =>
      if isBlank char then quotedFrom single bound (gap.addBlank char) cursor.step
      else match takeBreak? (char :: rest) with
      | some (ending, _) => quotedFrom single bound (gap.addBreak ending) cursor.skipBreak
      | none =>
        if cursor.column = 0 && atDocumentMarker (char :: rest) then none
        else if char = quotation single then
          if single && rest.head? = some '\'' then
            prepend (gap.text ++ ['\'']) (quotedFrom single bound .none (cursor.skip 2))
          else some (gap.text, cursor.skip 1)
        else if char = '\\' && !single then
          match takeBreak? rest with
          | some _ =>
            prepend gap.text (quotedFrom single bound (.breaks [] []) (cursor.skip 1).skipBreak)
          | none =>
            match escape? rest with
            | some (escaped, count) =>
              prepend (gap.text ++ [escaped])
                (quotedFrom single bound .none (cursor.skip (1 + count)))
            | none => none
        else prepend (gap.text ++ [char]) (quotedFrom single bound .none (cursor.skip 1))

/-- The text of a quoted scalar that begins behind its opening quote. Each step takes a character. -/
def quoted? (single : Bool) (cursor : Cursor) : Option (List Char × Cursor) :=
  quotedFrom single cursor.rest .none cursor

/-- The characters that end a plain scalar inside brackets. -/
def endsInFlow (char : Char) : Bool :=
  char = ',' || char = '[' || char = ']' || char = '\x7b' || char = '\x7d'

/-- What ends a plain scalar: the place behind the blanks that follow it, and whether a line ends in
these blanks. -/
structure PlainEnd where
  cursor : Cursor
  afterBreak : Bool

/-- The text of a plain scalar. Outside brackets it ends before a line that begins left of
`indentation`. The steps are not more than the characters of `bound`. -/
def plainFrom (inFlow : Bool) (indentation : Nat) :
    List Char → Gap → Cursor → Option (List Char × PlainEnd)
  | bound, gap, cursor =>
    let done := some ([], ⟨cursor, gap.hasBreak⟩)
    match bound, cursor.rest with
    | _, [] => done
    | [], _ => none
    | _ :: bound, char :: rest =>
      if isBlank char then
        if gap.hasBreak && cursor.column < indentation && char = '\t' then none
        else plainFrom inFlow indentation bound (gap.addBlank char) cursor.step
      else match takeBreak? (char :: rest) with
      | some (ending, _) =>
        plainFrom inFlow indentation bound (gap.addBreak ending) cursor.skipBreak
      | none =>
        if !gap.isNone && !inFlow && cursor.column < indentation then done
        else if cursor.column = 0 && atDocumentMarker (char :: rest) then done
        else if !gap.isNone && char = '#' then done
        else if inFlow && char = ':' &&
          (rest.head?.any fun next => endsInFlow next || next = '?') then none
        else if char = ':' && atSpace rest then done
        else if inFlow && endsInFlow char then done
        else prepend (gap.text ++ [char]) (plainFrom inFlow indentation bound .none cursor.step)

/-- The text of a plain scalar that begins at a place. Each step takes a character. -/
def plain? (inFlow : Bool) (indentation : Nat) (cursor : Cursor) : Option (List Char × PlainEnd) :=
  plainFrom inFlow indentation cursor.rest .none cursor

/-- What a block scalar does with the line ends behind its last line. -/
inductive Chomping where
  | strip
  | clip
  | keep
deriving DecidableEq

/-- The chomping mark of a block scalar, if one comes here. -/
def chomping? : List Char → Option (Chomping × List Char)
  | '+' :: rest => some (.keep, rest)
  | '-' :: rest => some (.strip, rest)
  | _ => none

/-- The indentation mark of a block scalar, if one comes here. -/
def increment? : List Char → Option (Nat × List Char)
  | char :: rest =>
    if '0' ≤ char ∧ char ≤ '9' then some (char.toNat - '0'.toNat, rest) else none
  | [] => none

/-- How a block scalar is laid out: its chomping, and its indentation if that is given. -/
structure BlockHeader where
  chomping : Chomping
  increment : Option Nat

/-- The marks of a block scalar in either order, and the text behind them. An indentation of zero is
refused. -/
def blockHeader? (chars : List Char) : Option (BlockHeader × List Char) :=
  let (header, rest) : BlockHeader × List Char :=
    match chomping? chars with
    | some (chomping, rest) =>
      match increment? rest with
      | some (increment, rest) => (⟨chomping, some increment⟩, rest)
      | none => (⟨chomping, none⟩, rest)
    | none =>
      match increment? chars with
      | none => (⟨.clip, none⟩, chars)
      | some (increment, rest) =>
        match chomping? rest with
        | some (chomping, rest) => (⟨chomping, some increment⟩, rest)
        | none => (⟨.clip, some increment⟩, rest)
  if header.increment = some 0 then none else some (header, rest)

/-- A place between two lines of a block scalar: the column reached, the largest indentation of the
empty lines so far, and their line ends, the latest first. -/
structure BlockBreaks where
  column : Nat
  widest : Nat
  latest : List Char
  rest : List Char

/-- Go over indentation and empty lines. With a known indentation spaces beyond it belong to the
text; a tab may not stand inside the indentation. The steps are not more than the characters of
`bound`. -/
def blockBreaksWithin? (known : Option Nat) : List Char → BlockBreaks → Option BlockBreaks
  | [], _ => none
  | _ :: bound, state =>
    let inside := known.all (state.column < ·)
    match state.rest with
    | ' ' :: rest =>
      if inside then
        blockBreaksWithin? known bound { state with column := state.column + 1, rest }
      else some { state with widest := max state.widest state.column }
    | chars =>
      let state := { state with widest := max state.widest state.column }
      if inside && chars.head? = some '\t' then none
      else match takeBreak? chars with
      | some (ending, rest) =>
        blockBreaksWithin? known bound
          { state with column := 0, latest := ending ++ state.latest, rest }
      | none => some state

/-- Go over indentation and empty lines at the start of a line. Each step but the last one takes a
character. -/
def blockBreaks? (known : Option Nat) (chars : List Char) : Option BlockBreaks :=
  blockBreaksWithin? known ('\n' :: chars) ⟨0, 0, [], chars⟩

/-- What stands between two lines of a block scalar. -/
structure BlockGap where
  first : List Char
  others : List Char
  /-- Whether the line before begins with a blank. -/
  afterBlank : Bool

/-- The text of a gap before a line. In a folded scalar a line end between two lines that begin
without a blank is folded. -/
def BlockGap.text (gap : BlockGap) (folded beforeBlank : Bool) : List Char :=
  if folded && gap.first = ['\n'] && !gap.afterBlank && !beforeBlank then
    if gap.others.isEmpty then [' '] else gap.others
  else gap.first ++ gap.others

/-- The lines of a block scalar with a known indentation, and the gap behind the last one. There are
not more of them than characters of `bound`. -/
def blockLines? (folded : Bool) (indentation : Nat) :
    List Char → BlockGap → Nat → List Char → Option (List Char × BlockGap × List Char)
  | _, gap, _, [] => some ([], gap, [])
  | [], _, _, _ => none
  | _ :: bound, gap, column, char :: rest =>
    if column ≠ indentation then some ([], gap, char :: rest)
    else
      let line := (char :: rest).takeWhile fun char => !isBreak char
      let behind := (char :: rest).dropWhile fun char => !isBreak char
      let (ending, behind) := (takeBreak? behind).getD ([], behind)
      match blockBreaks? (some indentation) behind with
      | none => none
      | some breaks =>
        prepend (gap.text folded (isBlank char) ++ line)
          (blockLines? folded indentation bound ⟨ending, breaks.latest.reverse, isBlank char⟩
            breaks.column breaks.rest)

/-- The text of a block scalar behind its header line, and what follows it. `parent` is the least
indentation that it may have. -/
def block? (folded : Bool) (header : BlockHeader) (parent : Nat) (enclosing : Nat)
    (chars : List Char) : Option (List Char × List Char) := do
  let known := header.increment.map (enclosing + ·)
  let breaks ← blockBreaks? known chars
  let indentation := known.getD (max (max breaks.widest parent) 1)
  let (text, gap, rest) ← blockLines? folded indentation breaks.rest
    ⟨[], breaks.latest.reverse, false⟩ breaks.column breaks.rest
  return match header.chomping with
    | .strip => (text, rest)
    | .clip => (text ++ gap.first, rest)
    | .keep => (text ++ gap.first ++ gap.others, rest)

end PositionSync.Yaml
