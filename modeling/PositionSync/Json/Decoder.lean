import PositionSync.Json.Number
import PositionSync.Reading.Fault

/-!
# Decoding JSON

A decoder takes the lexemes of one value off a list of lexemes. It reports the first fault in the
order of the text: a value of the wrong type is noticed before anything that stands behind it.
-/

namespace PositionSync.Json

/-- Reads one value off the front of a list of lexemes. -/
abbrev Decoder (α : Type) := List Lexeme → Except Fault (α × List Lexeme)

/-- The fault of a text that goes on with these lexemes where something else is expected. -/
def mismatch (expected : String) : List Lexeme → Fault
  | .null :: _ => .invalidType .null expected
  | .boolean value :: _ => .invalidType (.boolean value) expected
  | .number numeral :: _ =>
    match numeral.value? with
    | some (.whole value) => .invalidType (.integer value) expected
    | some (.negative value) => .invalidType (.integer value) expected
    | some (.float bits) => .invalidType (.float (floatFormat.render bits)) expected
    | none => .malformed
  | .string parts :: _ =>
    match textOf? parts with
    | some text => .invalidType (.text text) expected
    | none => .malformed
  | .leftBracket :: _ => .invalidType .sequence expected
  | .leftBrace :: _ => .invalidType .mapping expected
  | _ => .malformed

def stringText (parts : List StringPart) : Except Fault String :=
  match textOf? parts with
  | some text => .ok text
  | none => .error .malformed

/-- Reads a string; `expected` says what it stands for. -/
def text (expected : String) : Decoder String
  | .string parts :: rest => (stringText parts).map fun value => (value, rest)
  | lexemes => .error (mismatch expected lexemes)

def unsigned32 : Decoder Nat
  | .number numeral :: rest =>
    match numeral.value? with
    | some (.whole value) =>
      if value < 0x100000000 then .ok (value, rest)
      else .error (.invalidValue (.integer value) "u32")
    | some (.negative value) => .error (.invalidValue (.integer value) "u32")
    | _ => .error (mismatch "u32" (.number numeral :: rest))
  | lexemes => .error (mismatch "u32" lexemes)

/-- A container whose end has not been reached yet. -/
inductive Container where
  | list
  | object
deriving DecidableEq

/-- What may come next while a value is skipped. -/
inductive Awaited where
  | value
  | valueOrEnd
  | name
  | nameOrEnd
  | colon
  /-- What follows a whole value. -/
  | continuation
deriving DecidableEq

/-- Skip up to the end of a value inside the given containers, innermost first. Only the grammar is
checked: any spelled number and any spelled string will do. -/
def skipWithin : Awaited → List Container → List Lexeme → Option (List Lexeme)
  | .continuation, [], rest => some rest
  | .continuation, .list :: outer, .comma :: rest => skipWithin .value (.list :: outer) rest
  | .continuation, .list :: outer, .rightBracket :: rest => skipWithin .continuation outer rest
  | .continuation, .object :: outer, .comma :: rest => skipWithin .name (.object :: outer) rest
  | .continuation, .object :: outer, .rightBrace :: rest => skipWithin .continuation outer rest
  | .valueOrEnd, .list :: outer, .rightBracket :: rest => skipWithin .continuation outer rest
  | .nameOrEnd, .object :: outer, .rightBrace :: rest => skipWithin .continuation outer rest
  | .name, outer, .string _ :: rest => skipWithin .colon outer rest
  | .nameOrEnd, outer, .string _ :: rest => skipWithin .colon outer rest
  | .colon, outer, .colon :: rest => skipWithin .value outer rest
  | .value, outer, lexeme :: rest | .valueOrEnd, outer, lexeme :: rest =>
    match lexeme with
    | .null | .boolean _ | .number _ | .string _ => skipWithin .continuation outer rest
    | .leftBracket => skipWithin .valueOrEnd (.list :: outer) rest
    | .leftBrace => skipWithin .nameOrEnd (.object :: outer) rest
    | _ => none
  | _, _, _ => none

def skip : Decoder Unit := fun lexemes =>
  match skipWithin .value [] lexemes with
  | some rest => .ok ((), rest)
  | none => .error .malformed

/-- Reads the value of a member: a colon and what the decoder reads. -/
def memberValue {α : Type} (value : Decoder α) : Decoder α
  | .colon :: rest => value rest
  | _ => .error .malformed

/-- Reads the items of a list up to its end; an item comes next. There are at most as many items as
`bound` has lexemes: those of the list itself are enough, since each item takes one. -/
def items {α : Type} (item : Decoder α) : List Lexeme → Decoder (List α)
  | [], _ => .error .malformed
  | _ :: bound, lexemes => do
    let (first, rest) ← item lexemes
    match rest with
    | .comma :: more =>
      let (others, after) ← items item bound more
      return (first :: others, after)
    | .rightBracket :: after => return ([first], after)
    | _ => throw .malformed

def list {α : Type} (item : Decoder α) : Decoder (List α)
  | .leftBracket :: .rightBracket :: rest => .ok ([], rest)
  | .leftBracket :: rest => items item rest rest
  | lexemes => .error (mismatch "a sequence" lexemes)

/-- Reads the members of an object of texts up to its end; a name comes next. There are at most as many
members as `bound` has lexemes. -/
def textMembers : List Lexeme → Decoder (List (String × String))
  | _ :: bound, .string parts :: rest => do
    let name ← stringText parts
    let (value, rest) ← memberValue (text "a string") rest
    match rest with
    | .comma :: more =>
      let (others, after) ← textMembers bound more
      return ((name, value) :: others, after)
    | .rightBrace :: after => return ([(name, value)], after)
    | _ => throw .malformed
  | _, _ => .error .malformed

/-- Reads an object of texts, with its members in the order of the text. -/
def textObject : Decoder (List (String × String))
  | .leftBrace :: .rightBrace :: rest => .ok ([], rest)
  | .leftBrace :: rest => textMembers rest rest
  | lexemes => .error (mismatch "a map" lexemes)

/-- How a record is read: `known` tells its fields by name, `isSet` whether one has been read,
and `read` reads the value of one. -/
structure Fields (σ : Type) where
  known : List String
  isSet : String → σ → Bool
  read : String → σ → Decoder σ

/-- Reads the value of the member with this name into a record. A name that is not known is
skipped with its value, a field that has been read already is a fault. -/
def field {σ : Type} (fields : Fields σ) (name : String) (record : σ) : Decoder σ := fun rest =>
  if name ∈ fields.known then
    if fields.isSet name record then .error (.duplicateField name)
    else memberValue (fields.read name record) rest
  else
    (memberValue skip rest).map fun (_, after) => (record, after)

/-- Reads the members of a record up to its end; a name comes next. There are at most as many members as
`bound` has lexemes. -/
def members {σ : Type} (fields : Fields σ) : List Lexeme → σ → Decoder σ
  | _ :: bound, record, .string parts :: rest => do
    let name ← stringText parts
    let (record, rest) ← field fields name record rest
    match rest with
    | .comma :: more => members fields bound record more
    | .rightBrace :: after => return (record, after)
    | _ => throw .malformed
  | _, _, _ => .error .malformed

/-- Reads the members of an object behind its opening brace. -/
def object {σ : Type} (fields : Fields σ) (record : σ) : Decoder σ
  | .rightBrace :: rest => .ok (record, rest)
  | lexemes => members fields lexemes record lexemes

/-- Reads one item of a list whose items are the fields of a record; `isFirst` tells whether it is
the first one. There may be no further item. -/
def nextItem {α : Type} (isFirst : Bool) (item : Decoder α) : Decoder (Option α)
  | .rightBracket :: rest => .ok (none, .rightBracket :: rest)
  | lexemes =>
    if isFirst then (item lexemes).map fun (value, rest) => (some value, rest)
    else match lexemes with
      | .comma :: rest => (item rest).map fun (value, after) => (some value, after)
      | _ => .error .malformed

def listEnd : Decoder Unit
  | .rightBracket :: rest => .ok ((), rest)
  | _ => .error .malformed

/-- Reads a name among known ones: a string, or an object whose only member has that name and the
value null. -/
def variant (known : List String) : Decoder String
  | .string parts :: rest => do
    let name ← stringText parts
    if name ∈ known then return (name, rest) else throw (.unknownVariant name known)
  | .leftBrace :: rest => do
    let (name, rest) ← text "variant identifier" rest
    if name ∈ known then
      match rest with
      | .colon :: .null :: .rightBrace :: after => return (name, after)
      | .colon :: .null :: _ => throw .malformed
      | .colon :: other => throw (mismatch "unit" other)
      | _ => throw .malformed
    else throw (.unknownVariant name known)
  | _ => .error .malformed

/-- Read a text that holds one value and nothing else but space. -/
def decode {α : Type} (decoder : Decoder α) (octets : List UInt8) : Except Fault α := do
  let (value, rest) ← decoder (lexemes octets)
  if rest.isEmpty then return value else throw .malformed

end PositionSync.Json
