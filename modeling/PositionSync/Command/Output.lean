import PositionSync.Command.Arguments
import PositionSync.Position.Listing
import PositionSync.Source.Batch
import PositionSync.Time.Timestamp

/-!
# Printed messages

Every message is one JSON object whose members stand in the order of their names.
-/

namespace PositionSync.Command

/-- An entry with its members in the order of their names. -/
def entryValue (entry : Partition × Offset) : Json.Value :=
  .object [("offset", entry.2.attributes.value), ("partition", entry.1.attributes.value)]

/-- The order in which entries are printed. -/
def entryBefore (first second : Partition × Offset) : Bool :=
  ((compare first.1 second.1).then
    (compare first.2.attributes second.2.attributes)).isLE

/-- The entries of a table, listed in any order, in the order of their partitions. -/
def positionsValue (listing : List (Partition × Offset)) : Json.Value :=
  .list ((listing.mergeSort entryBefore).map entryValue)

inductive Message where
  | positions (path workerId : String) (listing : List (Partition × Offset))
  | record (file : String) (emittedAt : Timestamp) (record : Record)
  | state (workerId : String) (listing : List (Partition × Offset))
  | forgotten (removed : List String)

def textValue : Option String → Json.Value
  | some text => .text text
  | none => .null

def Message.value : Message → Json.Value
  | .positions path workerId listing =>
    .object [("path", .text path), ("positions", positionsValue listing),
      ("type", .text "POSITIONS"), ("worker_id", .text workerId)]
  | .record file emittedAt found =>
    .object [
      ("record", .object [
        ("emitted_at", .text emittedAt.renderWithOffset),
        ("filename", .text file),
        ("line", .text found.line),
        ("next_position", textValue (found.offset.attributes.get? nextPositionKey))]),
      ("type", .text "RECORD")]
  | .state workerId listing =>
    .object [("positions", positionsValue listing), ("type", .text "STATE"),
      ("worker_id", .text workerId)]
  | .forgotten removed =>
    .object [("removed", .list (removed.map .text)), ("type", .text "FORGOTTEN")]

/-- A message as it is printed, with the end of its last line. -/
def Message.print (format : OutputFormat) (message : Message) : String :=
  match format with
  | .compact => message.value.compact ++ "\n"
  | .pretty => message.value.pretty ++ "\n"

end PositionSync.Command
