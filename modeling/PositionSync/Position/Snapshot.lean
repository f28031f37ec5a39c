import PositionSync.Position.Listing
import PositionSync.Time.Timestamp

/-!
# The position file

A position file holds a version, the time at which it was saved, and a listing of the table. Only the
table is used when it is read; the other two have to be well formed.
-/

namespace PositionSync.Snapshot

def version : Nat := 1

def listedValue (savedAt : Timestamp) (listing : List (Partition × Offset)) : Json.Value :=
  .object [("version", .number version), ("saved_at", .text savedAt.render),
    ("positions", Listing.value listing)]

def encodeListed (savedAt : Timestamp) (listing : List (Partition × Offset)) : List UInt8 :=
  Utf8.encodeChars ((listedValue savedAt listing).prettyChars 0)

/-- Reads a point in time; what it is does not matter. -/
def timestamp : Json.Decoder Unit := fun lexemes => do
  let (text, rest) ← Json.text "an RFC 3339 formatted date and time string" lexemes
  if Timestamp.accepts text then return ((), rest) else throw .malformed

structure Draft where
  version : Option Nat := none
  savedAt : Option Unit := none
  positions : Option PositionTable := none

namespace Draft

def isSet (name : String) (draft : Draft) : Bool :=
  if name = "version" then draft.version.isSome
  else if name = "saved_at" then draft.savedAt.isSome
  else draft.positions.isSome

def read (name : String) (draft : Draft) : Json.Decoder Draft := fun lexemes =>
  if name = "version" then
    (Json.unsigned32 lexemes).map fun (version, rest) =>
      ({ draft with version := some version }, rest)
  else if name = "saved_at" then
    (timestamp lexemes).map fun (savedAt, rest) => ({ draft with savedAt := some savedAt }, rest)
  else
    (Listing.decoder lexemes).map fun (positions, rest) =>
      ({ draft with positions := some positions }, rest)

def fields : Json.Fields Draft where
  known := ["version", "saved_at", "positions"]
  isSet := isSet
  read := read

/-- The table of a position file, once it has been read. The first missing field is a fault. -/
def finish (draft : Draft) : Except Fault PositionTable :=
  match draft.version, draft.savedAt, draft.positions with
  | none, _, _ => .error (.missingField "version")
  | some _, none, _ => .error (.missingField "saved_at")
  | some _, some _, none => .error (.missingField "positions")
  | some _, some _, some positions => .ok positions

end Draft

/-- The fault of a list that has too few items to be a position file. -/
def tooShort (length : Nat) : Fault :=
  .invalidLength length "struct PositionSnapshot with 3 elements"

/-- Reads a position file that is given as the list of its fields, behind the opening bracket. -/
def items : Json.Decoder PositionTable := fun lexemes => do
  let (version, lexemes) ← Json.nextItem true Json.unsigned32 lexemes
  if version.isNone then throw (tooShort 0)
  let (savedAt, lexemes) ← Json.nextItem false timestamp lexemes
  if savedAt.isNone then throw (tooShort 1)
  let (positions, lexemes) ← Json.nextItem false Listing.decoder lexemes
  let some positions := positions
    | throw (tooShort 2)
  let ((), rest) ← Json.listEnd lexemes
  return (positions, rest)

def decoder : Json.Decoder PositionTable
  | .leftBrace :: lexemes => do
    let (draft, rest) ← Json.object Draft.fields {} lexemes
    return (← draft.finish, rest)
  | .leftBracket :: lexemes => items lexemes
  | lexemes => .error (Json.mismatch "struct PositionSnapshot" lexemes)

def decode (chars : List Char) : Except Fault PositionTable :=
  Json.decode decoder (Utf8.encodeChars chars)

end PositionSync.Snapshot
