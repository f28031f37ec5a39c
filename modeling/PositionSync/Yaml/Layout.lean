import PositionSync.Yaml.Token

/-!
# From text to tokens

A key is recognised only by the colon behind it. Until then the token that may begin a key waits, and
with it all tokens behind it, since a key mark and the start of a block may still have to go before
it. Tokens are handed out as soon as nothing can go before them any more; the first fault of the text
ends them with `malformed`.
-/

namespace PositionSync.Yaml

/-- A token that may turn out to begin a key: its number, its place, and whether nothing else than a
key may begin there. -/
structure KeyCandidate where
  number : Nat
  index : Nat
  line : Nat
  column : Nat
  required : Bool
deriving DecidableEq

/-- How far a text has been cut into tokens. -/
structure Layout where
  cursor : Cursor
  /-- Whether the text goes on behind what is left of it, but cannot be read there. -/
  broken : Bool
  waiting : List Token
  released : Nat
  /-- The column of the innermost block, -1 outside of all blocks, and those of the blocks around
  it. -/
  indent : Int
  enclosing : List Int
  keyAllowed : Bool
  depth : Nat
  /-- The candidate for a key outside of brackets, or inside the innermost brackets. -/
  candidate : Option KeyCandidate
  /-- The candidates around it, each with the number of brackets around it, innermost first. -/
  outerCandidates : List (Nat × KeyCandidate)
  ended : Bool

namespace Layout

def start (text : List Char) : Layout :=
  let (readable, broken) := readablePart text
  ⟨.start readable, broken, [], 0, -1, [], true, 0, none, [], false⟩

/-- Whether a number of characters can be looked at. At the end of the text fewer will do. -/
def sees (layout : Layout) (count : Nat) : Bool :=
  !layout.broken || count ≤ (layout.cursor.rest.take count).length

def inFlow (layout : Layout) : Bool := layout.depth ≠ 0

def column (layout : Layout) : Int := layout.cursor.column

def add (layout : Layout) (token : Token) : Layout :=
  { layout with waiting := layout.waiting ++ [token] }

/-- Put a token before the waiting token with this number. -/
def putBefore (layout : Layout) (number : Nat) (token : Token) : Layout :=
  { layout with waiting := layout.waiting.insertIdx (number - layout.released) token }

/-- A candidate that is more than 1024 octets back, or on an earlier line, can begin no key any
more. -/
def isStale (cursor : Cursor) (candidate : KeyCandidate) : Bool :=
  candidate.line < cursor.line || candidate.index + 1024 < cursor.index

/-- Give all stale candidates up; a required one may not be given up. -/
def dropAllStale? (layout : Layout) : Option Layout :=
  let stale := isStale layout.cursor
  if layout.candidate.any fun candidate => stale candidate && candidate.required then none
  else if layout.outerCandidates.any fun (_, candidate) => stale candidate && candidate.required then
    none
  else some { layout with
    candidate := layout.candidate.filter fun candidate => !stale candidate
    outerCandidates := layout.outerCandidates.filter fun (_, candidate) => !stale candidate }

/-- Give the current candidate up; a required one may not be given up. -/
def dropCandidate? (layout : Layout) : Option Layout :=
  match layout.candidate with
  | none => some layout
  | some candidate => if candidate.required then none else some { layout with candidate := none }

/-- Let the next token be a candidate, if a key may begin here. -/
def markCandidate? (layout : Layout) : Option Layout :=
  if layout.keyAllowed then do
    let cleared ← layout.dropCandidate?
    return { cleared with candidate := some {
      number := layout.released + layout.waiting.length
      index := layout.cursor.index
      line := layout.cursor.line
      column := layout.cursor.column
      required := !layout.inFlow && layout.indent = layout.column } }
  else some layout

/-- Open a block at a column that lies further right than the innermost block. The token goes before
the waiting token with a number, or behind all. -/
def openBlock (layout : Layout) (column : Int) (before : Option Nat) (token : Token) : Layout :=
  if layout.inFlow || column ≤ layout.indent then layout
  else
    let deeper := { layout with indent := column, enclosing := layout.indent :: layout.enclosing }
    match before with
    | some number => deeper.putBefore number token
    | none => deeper.add token

/-- Close blocks, given the columns of the blocks around the innermost one. -/
def closeBlocksWithin (column : Int) : List Int → Layout → Layout
  | outer :: others, layout =>
    if column < layout.indent then
      closeBlocksWithin column others
        { layout.add .blockEnd with indent := outer, enclosing := others }
    else layout
  | [], layout => layout

/-- Close the blocks that lie further right than a column. Inside brackets columns do not count. -/
def closeBlocks (layout : Layout) (column : Int) : Layout :=
  if layout.inFlow then layout else closeBlocksWithin column layout.enclosing layout

/-- Go over blanks, comments and line ends; the lines are not more than the characters of `bound`. A
tab may stand only where no block can begin. -/
def skipSpaceWithin : List Char → Layout → Layout
  | [], layout => layout
  | _ :: bound, layout =>
    let cursor := layout.cursor
    let cursor :=
      if cursor.column = 0 && cursor.rest.head? = some '\uFEFF' then cursor.skip 1 else cursor
    let tabs := layout.inFlow || !layout.keyAllowed
    let cursor :=
      (cursor.skipWhile fun char => char = ' ' || (tabs && char = '\t')).skipComment
    match cursor.rest with
    | char :: _ =>
      if isBreak char then
        skipSpaceWithin bound { layout with
          cursor := cursor.skipBreak, keyAllowed := layout.keyAllowed || !layout.inFlow }
      else { layout with cursor }
    | [] => { layout with cursor }

/-- Go over blanks, comments and line ends. Each line takes a character. -/
def skipSpace (layout : Layout) : Layout := skipSpaceWithin layout.cursor.rest layout

def take (layout : Layout) (count : Nat) (token : Token) : Layout :=
  { layout with cursor := layout.cursor.skip count }.add token

def takeTo (layout : Layout) (later : List Char) (token : Token) : Layout :=
  { layout with cursor := layout.cursor.advanceTo later }.add token

/-- The end of the text ends its last line and closes all blocks. -/
def takeEnd? (layout : Layout) : Option Layout := do
  let closed ← (layout.closeBlocks (-1)).dropCandidate?
  let cursor := closed.cursor
  let cursor := if cursor.column = 0 then cursor else ⟨[], cursor.index, cursor.line + 1, 0⟩
  return { closed.add .streamEnd with cursor, keyAllowed := false, ended := true }

/-- A directive closes all blocks and takes a whole line. -/
def takeDirective? (layout : Layout) : Option Layout := do
  let closed ← (layout.closeBlocks (-1)).dropCandidate?
  let (token, rest) ← directive? (closed.cursor.rest.drop 1)
  let cursor ← (closed.cursor.advanceTo rest).finishLine?
  return { closed.add token with cursor, keyAllowed := false }

/-- The mark of a document closes all blocks. -/
def takeDocumentMark? (layout : Layout) (token : Token) : Option Layout := do
  let closed ← (layout.closeBlocks (-1)).dropCandidate?
  return { closed.take 3 token with keyAllowed := false }

/-- An opening bracket may itself begin a key. -/
def takeOpening? (layout : Layout) (token : Token) : Option Layout := do
  let marked ← layout.markCandidate?
  let outer := marked.candidate.toList.map fun candidate => (marked.depth, candidate)
  return { marked.take 1 token with
    keyAllowed := true
    depth := marked.depth + 1
    candidate := none
    outerCandidates := outer ++ marked.outerCandidates }

/-- A closing bracket takes the candidate inside its bracket away. That around the bracket, if it has
not been given up, is the current one again. -/
def takeClosing? (layout : Layout) (token : Token) : Option Layout := do
  let cleared ← layout.dropCandidate?
  let closed := { cleared.take 1 token with keyAllowed := false, depth := cleared.depth - 1 }
  return match cleared.outerCandidates with
    | (depth, candidate) :: outerCandidates =>
      if depth = closed.depth then { closed with candidate := some candidate, outerCandidates }
      else closed
    | [] => closed

def takeComma? (layout : Layout) : Option Layout := do
  let cleared ← layout.dropCandidate?
  return { cleared.take 1 .flowEntry with keyAllowed := true }

def takeDash? (layout : Layout) : Option Layout := do
  let opened ←
    if layout.inFlow then some layout
    else if layout.keyAllowed then
      some (layout.openBlock layout.column none .blockSequenceStart)
    else none
  let cleared ← opened.dropCandidate?
  return { cleared.take 1 .blockEntry with keyAllowed := true }

def takeQuestion? (layout : Layout) : Option Layout := do
  let opened ←
    if layout.inFlow then some layout
    else if layout.keyAllowed then
      some (layout.openBlock layout.column none .blockMappingStart)
    else none
  let cleared ← opened.dropCandidate?
  return { cleared.take 1 .key with keyAllowed := !layout.inFlow }

/-- A colon makes the candidate a key, whose mapping begins where the candidate does. Without a
candidate the key is empty. -/
def takeColon? (layout : Layout) : Option Layout :=
  match layout.candidate with
  | some candidate =>
    let marked := layout.putBefore candidate.number .key
    let opened := marked.openBlock candidate.column (some candidate.number) .blockMappingStart
    some { opened.take 1 .value with candidate := none, keyAllowed := false }
  | none =>
    if layout.inFlow then some { layout.take 1 .value with keyAllowed := false }
    else if layout.keyAllowed then
      some { (layout.openBlock layout.column none .blockMappingStart).take 1 .value with
        keyAllowed := true }
    else none

/-- An anchor or alias: a mark and a name. -/
def takeName? (layout : Layout) (token : String → Token) : Option Layout := do
  let marked ← layout.markCandidate?
  let name ← anchorName? (marked.cursor.rest.drop 1)
  return { marked.take (1 + name.length) (token name) with keyAllowed := false }

def takeTag? (layout : Layout) : Option Layout := do
  let marked ← layout.markCandidate?
  let (token, rest) ← tag? marked.inFlow marked.cursor.rest
  return { marked.takeTo rest token with keyAllowed := false }

def takeBlockScalar? (layout : Layout) (folded : Bool) : Option Layout := do
  let cleared ← layout.dropCandidate?
  let (header, rest) ← blockHeader? (cleared.cursor.rest.drop 1)
  let begun ← (cleared.cursor.advanceTo rest).finishLine?
  let (text, rest) ←
    block? folded header (cleared.indent + 1).toNat cleared.indent.toNat begun.rest
  let style : Style := if folded then .folded else .literal
  return { { cleared with cursor := begun }.takeTo rest (.scalar style (String.ofList text)) with
    keyAllowed := true }

def takeQuoted? (layout : Layout) (single : Bool) : Option Layout := do
  let marked ← layout.markCandidate?
  let (text, cursor) ← quoted? single (marked.cursor.skip 1)
  let style : Style := if single then .singleQuoted else .doubleQuoted
  return { marked.add (.scalar style (String.ofList text)) with cursor, keyAllowed := false }

/-- A plain scalar. A key may begin behind it if it ends with a line. -/
def takePlain? (layout : Layout) : Option Layout := do
  let marked ← layout.markCandidate?
  let (text, stop) ← plain? marked.inFlow (marked.indent + 1).toNat marked.cursor
  return { marked.add (.scalar .plain (String.ofList text)) with
    cursor := stop.cursor
    keyAllowed := stop.afterBreak }

/-- Whether a plain scalar may begin here, where no other token begins. -/
def beginsPlain (inFlow : Bool) (chars : List Char) : Bool :=
  match chars with
  | [] => false
  | char :: rest =>
    !(atSpace chars || "-?:,[]\x7b\x7d#&*!|>'\"%@`".toList.contains char) ||
      (char = '-' && !rest.head?.any isBlank) ||
      (!inFlow && (char = '?' || char = ':') && !atSpace rest)

/-- Take the token that begins here, or those that it brings with it. -/
def takeToken? (layout : Layout) : Option Layout :=
  let atLineStart := layout.cursor.column = 0
  match layout.cursor.rest with
  | [] => layout.takeEnd?
  | char :: rest =>
    if atLineStart && char = '%' then layout.takeDirective?
    else if atLineStart && atMarker '-' (char :: rest) then
      layout.takeDocumentMark? .documentStart
    else if atLineStart && atMarker '.' (char :: rest) then layout.takeDocumentMark? .documentEnd
    else if char = '[' then layout.takeOpening? .flowSequenceStart
    else if char = '\x7b' then layout.takeOpening? .flowMappingStart
    else if char = ']' then layout.takeClosing? .flowSequenceEnd
    else if char = '\x7d' then layout.takeClosing? .flowMappingEnd
    else if char = ',' then layout.takeComma?
    else if char = '-' && atSpace rest then layout.takeDash?
    else if char = '?' && (layout.inFlow || atSpace rest) then layout.takeQuestion?
    else if char = ':' && (layout.inFlow || atSpace rest) then layout.takeColon?
    else if char = '*' then layout.takeName? .alias
    else if char = '&' then layout.takeName? .anchor
    else if char = '!' then layout.takeTag?
    else if char = '|' && !layout.inFlow then layout.takeBlockScalar? false
    else if char = '>' && !layout.inFlow then layout.takeBlockScalar? true
    else if char = '\'' then layout.takeQuoted? true
    else if char = '"' then layout.takeQuoted? false
    else if beginsPlain layout.inFlow (char :: rest) then layout.takePlain?
    else none

/-- How many characters behind a token have to be looked at to see where it ends. -/
def lookahead : Token → Nat
  | .alias _ | .anchor _ | .tag .. | .scalar .. => 1
  | _ => 0

/-- Go on to the next token and take it. Four characters tell which token comes. -/
def advance? (layout : Layout) : Option Layout := do
  let current ← layout.skipSpace.dropAllStale?
  let next ← (current.closeBlocks current.column).takeToken?
  let behind := (next.waiting.getLast?.map lookahead).getD 0
  if current.sees 4 && next.sees behind then some next else none

/-- Whether the first waiting token may still turn out to begin a key. -/
def isHeld (layout : Layout) : Bool :=
  (layout.candidate.toList ++ layout.outerCandidates.map Prod.snd).any fun candidate =>
    candidate.number = layout.released

/-- The tokens of the rest of the text; `fuel` bounds the number of steps. -/
def tokensWithin : Nat → Layout → List Token
  | 0, _ => [.malformed]
  | fuel + 1, layout =>
    match layout.waiting with
    | [] =>
      if layout.ended then []
      else match layout.advance? with
        | some next => tokensWithin fuel next
        | none => [.malformed]
    | token :: others =>
      match layout.dropAllStale? with
      | none => [.malformed]
      | some current =>
        if current.isHeld then
          match current.advance? with
          | some next => tokensWithin fuel next
          | none => [.malformed]
        else
          token :: tokensWithin fuel
            { current with waiting := others, released := current.released + 1 }

end Layout

/-- The tokens of a text, up to where it cannot be read any more. Each character brings at most a
token, a key mark and the start and end of a block. -/
def tokens (text : List Char) : List Token :=
  Layout.tokensWithin (8 * text.length + 16) (.start text)

end PositionSync.Yaml
