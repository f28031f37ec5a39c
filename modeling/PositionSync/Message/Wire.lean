import PositionSync.Message.Basic
import PositionSync.Position.Listing

/-!
# Messages on the wire

A message is one compact JSON object with the tag of its kind and a listing of its positions. Reading
takes the kind as any string first, so that a well-formed message of an unknown kind is told apart from
a malformed one.
-/

namespace PositionSync

namespace PositionMessage

def listedValue (kind : MessageKind) (listing : List (Partition × Offset)) : Json.Value :=
  .object [("kind", .text kind.tag), ("positions", Listing.value listing)]

def encodeListed (kind : MessageKind) (listing : List (Partition × Offset)) : List UInt8 :=
  Utf8.encodeChars (listedValue kind listing).compactChars

def encode (message : PositionMessage) : List UInt8 :=
  encodeListed message.kind message.positions.toList

/-- A message before its kind is checked, as far as it has been read. -/
structure Envelope where
  kind : Option String := none
  positions : Option PositionTable := none

def Envelope.fields : Json.Fields Envelope where
  known := ["kind", "positions"]
  isSet name envelope := if name = "kind" then envelope.kind.isSome else envelope.positions.isSome
  read name envelope := fun lexemes =>
    if name = "kind" then
      (Json.text "a string" lexemes).map fun (kind, rest) =>
        ({ envelope with kind := some kind }, rest)
    else
      (Listing.decoder lexemes).map fun (positions, rest) =>
        ({ envelope with positions := some positions }, rest)

/-- Reads a message that is given as the list of its fields, behind the opening bracket. The
positions may be missing. -/
def Envelope.items : Json.Decoder (String × PositionTable) := fun lexemes => do
  let (kind, lexemes) ← Json.nextItem true (Json.text "a string") lexemes
  let some kind := kind
    | throw (.invalidLength 0 "struct Envelope with 2 elements")
  let (positions, lexemes) ← Json.nextItem false Listing.decoder lexemes
  let ((), rest) ← Json.listEnd lexemes
  return ((kind, positions.getD .empty), rest)

/-- Reads the kind and the positions of a message. Without positions the table is empty. -/
def Envelope.decoder : Json.Decoder (String × PositionTable)
  | .leftBrace :: lexemes => do
    let (envelope, rest) ← Json.object Envelope.fields {} lexemes
    let some kind := envelope.kind
      | throw (.missingField "kind")
    return ((kind, envelope.positions.getD .empty), rest)
  | .leftBracket :: lexemes => Envelope.items lexemes
  | lexemes => .error (Json.mismatch "struct Envelope" lexemes)

def decode (payload : List UInt8) : Delivery :=
  match Json.decode Envelope.decoder payload with
  | .error fault => .error (.delivery ("Failed to decode position message: " ++ fault.message))
  | .ok (name, positions) => do
    let kind ← MessageKind.parse name
    return ⟨kind, positions⟩

end PositionMessage

end PositionSync
