import PositionSync.Json.Decoder
import PositionSync.Json.Value
import PositionSync.Position.Basic

/-!
# Tables as lists of entries

A table is written as a list with one object for each entry, since a partition cannot be the name of
a member. Any listing of the table may be written. When a list is read, a later entry for a partition
wins over an earlier one.
-/

namespace PositionSync

def Attributes.value (attributes : Attributes) : Json.Value :=
  .object (attributes.entries.map fun entry => (entry.1, .text entry.2))

/-- Reads attributes; of a repeated name the last value counts. -/
def Attributes.decoder : Json.Decoder Attributes := fun lexemes =>
  (Json.textObject lexemes).map fun (members, rest) => (.ofList members, rest)

namespace Listing

def entryValue (entry : Partition × Offset) : Json.Value :=
  .object [("partition", entry.1.attributes.value), ("offset", entry.2.attributes.value)]

def value (listing : List (Partition × Offset)) : Json.Value :=
  .list (listing.map entryValue)

/-- The fields of an entry that have been read. -/
structure PartialEntry where
  partition : Option Partition := none
  offset : Option Offset := none

def entryFields : Json.Fields PartialEntry where
  known := ["partition", "offset"]
  isSet name entry := if name = "partition" then entry.partition.isSome else entry.offset.isSome
  read name entry := fun lexemes =>
    (Attributes.decoder lexemes).map fun (attributes, rest) =>
      if name = "partition" then ({ entry with partition := some ⟨attributes⟩ }, rest)
      else ({ entry with offset := some ⟨attributes⟩ }, rest)

/-- An entry of which both fields have been read. -/
def PartialEntry.finish (entry : PartialEntry) : Except Fault (Partition × Offset) :=
  match entry.partition, entry.offset with
  | none, _ => .error (.missingField "partition")
  | some _, none => .error (.missingField "offset")
  | some partition, some offset => .ok (partition, offset)

/-- Reads an entry that is given as the list of its fields, behind the opening bracket. -/
def entryItems : Json.Decoder (Partition × Offset) := fun lexemes => do
  let (partition, lexemes) ← Json.nextItem true Attributes.decoder lexemes
  let some partition := partition
    | throw (.invalidLength 0 "struct Entry with 2 elements")
  let (offset, lexemes) ← Json.nextItem false Attributes.decoder lexemes
  let some offset := offset
    | throw (.invalidLength 1 "struct Entry with 2 elements")
  let ((), rest) ← Json.listEnd lexemes
  return ((⟨partition⟩, ⟨offset⟩), rest)

def entry : Json.Decoder (Partition × Offset)
  | .leftBrace :: lexemes => do
    let (fields, rest) ← Json.object entryFields {} lexemes
    return (← fields.finish, rest)
  | .leftBracket :: lexemes => entryItems lexemes
  | lexemes => .error (Json.mismatch "struct Entry" lexemes)

/-- Reads a table from a list of its entries. -/
def decoder : Json.Decoder PositionTable := fun lexemes =>
  (Json.list entry lexemes).map fun (entries, rest) => (.ofList entries, rest)

end Listing

end PositionSync
