import PositionSync.Decimal.Unsigned
import PositionSync.Error
import PositionSync.Files.Path
import PositionSync.Position.Basic

/-!
# Positions in files

The partition of a file is known by the file's name, and its offset is the number of octets in front
of the next line.
-/

namespace PositionSync

def filenameKey : String := "filename"

def nextPositionKey : String := "next_position"

def filePartition (path : Path) : Partition := ⟨SortedMap.empty.insert filenameKey path.text⟩

def fileOffset (position : Nat) : Offset :=
  ⟨SortedMap.empty.insert nextPositionKey (Decimal.render position)⟩

/-- The number of octets that a stored offset stands for. Without an offset, or without a number in
it, reading begins at the start. -/
def storedPosition (stored : Option Offset) : Except Error Nat :=
  match stored.bind fun offset => offset.attributes.get? nextPositionKey with
  | none => .ok 0
  | some text =>
    match Decimal.parse Decimal.largest64 text with
    | .ok position => .ok position
    | .error fault =>
      .error (.source ("Invalid stored position '" ++ text ++ "': " ++ fault.message))

end PositionSync
