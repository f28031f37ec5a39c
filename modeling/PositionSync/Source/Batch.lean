import PositionSync.Source.Line
import PositionSync.Source.Position

/-!
# Batches of lines

Lines are taken from the octets that have been read but not handed out, and more octets are read as
long as the batch is not full. How the octets of the file are divided among the reads does not matter.
-/

namespace PositionSync

/-- One line of a file, and the position right behind it. -/
structure Record where
  partition : Partition
  offset : Offset
  line : String
deriving DecidableEq

/-- The position to keep once some records have been dealt with: the one behind the last of them. -/
def Record.lastPosition? (records : List Record) : Option (Partition × Offset) :=
  records.getLast?.map fun last => (last.partition, last.offset)

/-- What one read of a file returns. -/
inductive ReadResult where
  | octets (data : List UInt8)
  | endOfFile
  | failed (message : String)
deriving DecidableEq

/-- The lines of a batch so far, the octets that have been read but not handed out, the position of the
first of them, and the number of octets read for the batch. -/
structure Batch where
  lines : List (String × Nat)
  buffer : List UInt8
  position : Nat
  read : Nat
deriving DecidableEq

namespace Batch

def start (buffer : List UInt8) (position : Nat) : Batch := ⟨[], buffer, position, 0⟩

/-- Lines that follow each other, each with the position right behind it. -/
def located : Nat → List SplitLine → List (String × Nat)
  | _, [] => []
  | position, line :: rest =>
    (line.text, position + line.used) :: located (position + line.used) rest

/-- Hand out complete lines of the buffer until the batch is full. -/
def fill (size : Nat) (batch : Batch) : Batch :=
  let (taken, buffer) := splitLines (size - batch.lines.length) batch.buffer
  { batch with
    lines := batch.lines ++ located batch.position taken
    buffer
    position := batch.position + (taken.map SplitLine.used).foldr (· + ·) 0 }

def append (batch : Batch) (data : List UInt8) : Batch :=
  { batch with buffer := batch.buffer ++ data, read := batch.read + data.length }

/-- Read on until the batch is full or the file ends. A failing read ends the batch with its
message. -/
def collect (size : Nat) : List ReadResult → Batch → Batch × Except Error Unit
  | [], batch => (batch, .ok ())
  | result :: rest, batch =>
    if size ≤ batch.lines.length then (batch, .ok ())
    else match result with
    | .octets data => collect size rest ((batch.append data).fill size)
    | .endOfFile => (batch, .ok ())
    | .failed message => (batch, .error (.io message))

/-- The batch of a source with a buffer, given what the reads return. -/
def ofReads (size : Nat) (buffer : List UInt8) (position : Nat) (reads : List ReadResult) :
    Batch × Except Error Unit :=
  collect size reads ((start buffer position).fill size)

def records (batch : Batch) (partition : Partition) : List Record :=
  batch.lines.map fun (line, position) => ⟨partition, fileOffset position, line⟩

end Batch

end PositionSync
