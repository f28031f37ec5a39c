import PositionSync.Command.Run
import Std.Internal.UV.Signal
import Std.Time.DateTime.Timestamp

/-!
# The program

The program shows the library the files that a command is about, and carries out what the library
answers. A file that is followed is read again before every poll, and the position file is written
whenever the library has changed it.
-/

namespace PositionSync.Program

open Command

def usage : String :=
  "Usage: solidafy-positions [OPTIONS] show\n" ++
  "       solidafy-positions [OPTIONS] tail [--batch-size N] FILE\n" ++
  "       solidafy-positions [OPTIONS] forget FILE...\n\n" ++
  "Options: -C, --config FILE; -s, --store-dir DIR; -w, --worker-id ID; " ++
  "-f, --format json|pretty; -v, --verbose; -h, --help; -V, --version\n"

def currentTime : IO Timestamp := do
  let nanoseconds := (← Std.Time.Timestamp.now).toNanosecondsSinceUnixEpoch.val.toNat
  return .ofEpoch (nanoseconds / 1000000000) (nanoseconds % 1000000000)

/-- Whether a path leads to a directory, if it leads anywhere. -/
def isDirectory? (path : Path) : IO (Option Bool) := do
  match ← ((← IO.currentDir) / path.text).metadata.toBaseIO with
  | .error _ => return none
  | .ok metadata => return some (metadata.type == .dir)

/-- Bring one path of the model up to date. -/
def copyPath (files : FileSystem) (path : Path) : IO FileSystem := do
  match ← isDirectory? path with
  | none => return files.change (.delete path)
  | some true => return files.change (.makeDirectory path)
  | some false => return files.change (.write path (← IO.FS.readBinFile path.text).toList)

/-- The directories around a path, and the path itself. -/
def around (path : Path) : List Path :=
  let names := path.components
  (List.range (names.length - 1)).map
    (fun count => Path.ofComponents path.isAbsolute (names.take (count + 1))) ++ [path]

/-- Bring paths of the model up to date, with the directories around them. -/
def copyPaths (files : FileSystem) (paths : List Path) : IO FileSystem :=
  (paths.flatMap around).foldlM copyPath files

def replaceFile (store : Store) (octets : List UInt8) : IO Unit := do
  IO.FS.createDirAll store.directory.text
  IO.FS.writeBinFile store.temporaryPath.text ⟨octets.toArray⟩
  IO.FS.rename store.temporaryPath.text store.path.text

/-- Write the position file if it has changed. -/
def keepPositions (config : WorkerConfig) (before after : FileSystem) : IO Unit := do
  match after.read config.positionPath with
  | .error _ => return
  | .ok octets =>
    unless (before.read config.positionPath).toOption = some octets do
      replaceFile (.new config.positionPath) octets

def printText (text : String) : IO Unit := do
  let output ← IO.getStdout
  output.putStr text
  output.flush

def printMessages (format : OutputFormat) (messages : List Message) : IO Unit :=
  messages.forM fun message => printText (message.print format)

/-- A file that is being followed, with what is needed for it outside the model. -/
structure Session where
  config : WorkerConfig
  format : OutputFormat
  tail : Tail
  /-- When the clock of the model started. -/
  startedAt : Nat
  /-- The file as it was opened. -/
  handle : Option IO.FS.Handle
  /-- Resolved when the user interrupts the program. -/
  interrupt : IO.Promise Int

namespace Session

def files (session : Session) : FileSystem := session.tail.follower.cluster.files

def mapFollower (session : Session) (change : Follower → Follower) : Session :=
  { session with tail := { session.tail with follower := change session.tail.follower } }

def withFiles (session : Session) (files : FileSystem) : Session :=
  session.mapFollower fun follower => { follower with cluster := { follower.cluster with files } }

/-- Read what has been added to the open file. -/
def readAdded (session : Session) (number : Nat) (handle : IO.FS.Handle) : IO Session := do
  let added ← handle.readBinToEnd
  let files := session.files
  return session.withFiles { files with
    contents := files.contents.insert number (files.octets number ++ added.toList) }

/-- Bring the followed file of the model up to date. -/
def refresh (session : Session) : IO Session := do
  let path := session.tail.follower.source.settings.file
  match session.tail.follower.source.file, session.handle with
  | some ⟨.file number, _⟩, some handle => session.readAdded number handle
  | _, _ =>
    match ← isDirectory? path with
    | some false =>
      let handle ← IO.FS.Handle.mk path.text .read
      let octets := (← handle.readBinToEnd).toList
      let files ← copyPaths session.files (around path).dropLast
      return { session.withFiles (files.change (.write path octets)) with handle }
    | _ => return session.withFiles (← copyPaths session.files [path])

/-- Let the model's clock catch up. -/
def catchUp (session : Session) : IO Session := do
  let now := (← IO.monoNanosNow) - session.startedAt
  let later := session.mapFollower fun follower => { follower with cluster := follower.cluster.settle }
  let savedAt ← currentTime
  let advanced := later.mapFollower fun follower => follower.advanceTo savedAt now
  keepPositions session.config session.files advanced.files
  return advanced

/-- Wait until an instant of the model's clock, or until the user interrupts the program. -/
partial def wait (session : Session) (deadline : Instant) : IO Session := do
  if ← session.interrupt.isResolved then
    return session.mapFollower fun follower => follower.meet .cancel
  let session ← session.catchUp
  let now := session.tail.follower.cluster.now
  if deadline ≤ now then return session
  IO.sleep (min 50 ((deadline - now) / 1000000 + 1)).toUInt32
  session.wait deadline

/-- Go on until a request is answered. -/
partial def answer (session : Session) (progress : FileSource.Progress) :
    IO (Except Error (List Record) × Session) := do
  match progress with
  | .done result => return (result, session)
  | .pause span resume =>
    let deadline := session.tail.follower.cluster.now + span.nanoseconds
    let session ← session.wait deadline
    if session.tail.follower.cancelled then return (.error .cancelled, session)
    let session ← session.refresh
    let (progress, follower) := session.tail.follower.resume resume
    (session.mapFollower fun _ => follower).answer progress

def poll (session : Session) : IO (Except Error (List Record) × Session) := do
  let session ← session.wait 0
  let session ← session.refresh
  let (progress, follower) := session.tail.follower.begin .poll
  (session.mapFollower fun _ => follower).answer progress

partial def run (session : Session) : IO (Except Error Unit × Session) := do
  match ← session.poll with
  | (.ok records, session) =>
    let taken := session.tail.take (← currentTime) records
    printMessages session.format taken.messages
    run { session with tail := { taken with messages := [] } }
  | (.error .cancelled, session) => return (.ok (), session)
  | (.error error, session) => return (.error error, session)

end Session

/-- Follow a file until the user interrupts the program. -/
def follow (config : WorkerConfig) (format : OutputFormat) (file : String) (batchSize : Nat)
    (files : FileSystem) : IO Report := do
  match (soloCluster config files).start Follower.keeper with
  | (.error error, cluster) => return ⟨.error error, [], cluster.files⟩
  | (.ok (), cluster) =>
    let interrupt ← (← Std.Internal.UV.Signal.mk 2 false).next
    let settings := (SourceSettings.new (.ofText file)).withBatchSize batchSize
    let tail : Tail := ⟨⟨cluster, .new settings, false, []⟩, []⟩
    let (outcome, session) ←
      (Session.mk config format tail (← IO.monoNanosNow) none interrupt).run
    let report := session.tail.finish (← currentTime) config.workerId outcome
    keepPositions config session.files report.files
    return report

def perform (invocation : Invocation) : IO Report := do
  let configPath := invocation.config.map Path.ofText
  let files ← copyPaths .empty configPath.toList
  let now ← currentTime
  match configOf invocation files with
  | .error _ => return Command.run invocation now [] files
  | .ok config =>
    let store := Store.new config.positionPath
    let files ← copyPaths files [store.path, store.temporaryPath]
    match invocation.task with
    | .tail file batchSize => follow config invocation.format file batchSize files
    | _ =>
      let report := Command.run invocation now [] files
      keepPositions config files report.files
      return report

/-- Print what is left to be printed at the end, and answer the exit code. -/
def close (exit : Exit) : IO UInt32 := do
  printText exit.output
  if let some error := exit.error then IO.eprintln ("Error: " ++ error.message)
  return exit.code.toUInt32

end PositionSync.Program

def main (arguments : List String) : IO UInt32 := do
  match PositionSync.Command.read arguments with
  | .error refusal =>
    match refusal with
    | .help => IO.print PositionSync.Program.usage
    | .version => pure ()
    | .nothing | .invalid => IO.eprint PositionSync.Program.usage
    PositionSync.Program.close refusal.exit
  | .ok invocation =>
    match ← (PositionSync.Program.perform invocation).toBaseIO with
    | .ok report => PositionSync.Program.close (report.exit invocation.format)
    | .error failure => PositionSync.Program.close ⟨1, "", some (.io failure.toString)⟩
