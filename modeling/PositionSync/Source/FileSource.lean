import PositionSync.Backoff
import PositionSync.Files.System
import PositionSync.Source.Batch

/-!
# Following a file

A source hands out the lines of one file in batches. It opens the file at the stored position when it
is first polled; while the file is missing, it waits as its retry policy says. Whatever takes time is
answered by a pause, together with what has to be done after it. How the octets of an open file are
divided among the reads is not up to the source: it is told what the reads return.
-/

namespace PositionSync

structure SourceSettings where
  file : Path
  /-- The largest number of lines of a batch, at least one. -/
  batchSize : Nat
  pollInterval : Duration
  retry : RetryPolicy
deriving DecidableEq

namespace SourceSettings

def new (file : Path) : SourceSettings := ⟨file, 100, .ofSeconds 1, default⟩

def withBatchSize (settings : SourceSettings) (size : Nat) : SourceSettings :=
  { settings with batchSize := max size 1 }

end SourceSettings

/-- An open file, and the number of octets in front of the next read. -/
structure OpenFile where
  node : FileNode
  position : Nat
deriving DecidableEq

namespace OpenFile

/-- The most octets that one read returns. -/
def chunkSize : Nat := 8192

/-- Cut octets into pieces of the size of a read; `fuel` bounds their number. -/
def chunksWithin : Nat → List UInt8 → List ReadResult
  | 0, _ => []
  | fuel + 1, data =>
    if data.isEmpty then []
    else .octets (data.take chunkSize) :: chunksWithin fuel (data.drop chunkSize)

/-- What the reads of an open file return up to its end. A directory can be opened but not read. -/
def reads (file : OpenFile) (files : FileSystem) : List ReadResult :=
  match file.node with
  | .directory => [.failed FileFault.isDirectory.message]
  | .file number =>
    let rest := (files.octets number).drop file.position
    chunksWithin rest.length rest ++ [.endOfFile]

def length (file : OpenFile) (files : FileSystem) : Nat :=
  match file.node with
  | .directory => 4096
  | .file number => (files.octets number).length

end OpenFile

/-- A source: its open file, the octets that have been read but not handed out, and the position of the
first of them. -/
structure FileSource where
  settings : SourceSettings
  file : Option OpenFile
  buffer : List UInt8
  streamOffset : Nat
deriving DecidableEq

namespace FileSource

def new (settings : SourceSettings) : FileSource := ⟨settings, none, [], 0⟩

/-- The partition under which a source keeps its position. -/
def partition (source : FileSource) : Partition := filePartition source.settings.file

def isOpen (source : FileSource) : Bool := source.file.isSome

def render (source : FileSource) : String :=
  "FileLineSource \x7b filename: " ++ Text.quoteName source.settings.file.octets ++ ", open: " ++
    (if source.isOpen then "true" else "false") ++ ", stream_offset: " ++
    Decimal.render source.streamOffset ++ " \x7d"

/-- What an attempt to open the file leads to. -/
inductive Attempt where
  | opened (source : FileSource)
  | failed (error : Error)
  /-- The file is missing; the attempt is to be repeated after a pause. -/
  | pause (span : Duration) (failed : UInt32)

/-- The source with its file open at a position. A file that is shorter is read from the start. -/
def openAt (source : FileSource) (node : FileNode) (position : Nat) (files : FileSystem) :
    FileSource :=
  let begin := if (OpenFile.mk node 0).length files < position then 0 else position
  { source with file := some ⟨node, begin⟩, buffer := [], streamOffset := begin }

/-- Try to open the file at the stored position, after some failed attempts. -/
def attempt (source : FileSource) (files : FileSystem) (stored : Option Offset)
    (failed : UInt32) : Attempt :=
  match files.lookup source.settings.file with
  | .ok node =>
    match storedPosition stored with
    | .ok position => .opened (source.openAt node position files)
    | .error error => .failed error
  | .error .notFound =>
    let failed := failed + 1
    if source.settings.retry.isExhausted failed then
      .failed (.fileNotFound source.settings.file.text)
    else .pause (source.settings.retry.delay (failed - 1)) failed
  | .error fault => .failed (.io fault.message)

/-- Take the next batch from an open file, given what the reads return. -/
def readBatch (source : FileSource) (file : OpenFile) (reads : List ReadResult) :
    Except Error (List Record) × FileSource :=
  let (batch, result) :=
    Batch.ofReads source.settings.batchSize source.buffer source.streamOffset reads
  (result.map fun () => batch.records source.partition, { source with
    file := some { file with position := file.position + batch.read }
    buffer := batch.buffer
    streamOffset := batch.position })

inductive Request where
  | openFile
  | poll
deriving DecidableEq

/-- What has to be done after a pause. -/
inductive Resume where
  | retry (request : Request) (failed : UInt32)
  | answer
deriving DecidableEq

/-- How far a request has got. -/
inductive Progress where
  | done (result : Except Error (List Record))
  | pause (span : Duration) (resume : Resume)

section Requests

variable (source : FileSource) (files : FileSystem) (reads : OpenFile → List ReadResult)
  (stored : Option Offset)

/-- Go on with a request on a source whose file is open. An empty batch is answered after a pause. -/
def proceed (request : Request) (file : OpenFile) : Progress × FileSource :=
  match request with
  | .openFile => (.done (.ok []), source)
  | .poll =>
    match source.readBatch file (reads file) with
    | (.ok [], source) => (.pause source.settings.pollInterval .answer, source)
    | (result, source) => (.done result, source)

/-- Open the file for a request, after some failed attempts, and go on with it. -/
def openFor (request : Request) (failed : UInt32) : Progress × FileSource :=
  match source.attempt files stored failed with
  | .failed error => (.done (.error error), source)
  | .pause span failed => (.pause span (.retry request failed), source)
  | .opened source =>
    match source.file with
    | some file => source.proceed reads request file
    | none => (.done (.ok []), source)

/-- Begin a request. Opening opens the file anew; polling opens it only if it is not open. -/
def begin (request : Request) : Progress × FileSource :=
  match request, source.file with
  | .poll, some file => source.proceed reads .poll file
  | request, _ => source.openFor files reads stored request 0

/-- Go on with a request after a pause. -/
def resume : Resume → Progress × FileSource
  | .retry request failed => source.openFor files reads stored request failed
  | .answer => (.done (.ok []), source)

end Requests

/-- Close the file. What has been read but not handed out is read again later. -/
def close (source : FileSource) : FileSource := { source with file := none, buffer := [] }

end FileSource

end PositionSync
