import PositionSync.Command.Output
import PositionSync.Config.Reading
import PositionSync.Source.Follower

/-!
# Running commands

Showing and forgetting work on the position file alone. Following a file runs a service of its own,
until it is interrupted or fails; the service is stopped in either case.
-/

namespace PositionSync.Command

/-- The name of the worker if neither the configuration nor an option gives one. -/
def defaultWorkerId : String := "worker-1"

/-- Replace what the options give. -/
def override (invocation : Invocation) (config : WorkerConfig) : WorkerConfig :=
  { config with
    workerId := invocation.workerId.getD config.workerId
    storeDir := invocation.storeDir.getD config.storeDir }

/-- The configuration of a command: that of the file, or the usual one, with what the options give. -/
def configOf (invocation : Invocation) (files : FileSystem) : Except Error WorkerConfig := do
  let base ← match invocation.config with
    | some path => WorkerConfig.load files (.ofText path)
    | none => .ok (.new defaultWorkerId)
  (override invocation base).validated

structure Report where
  result : Except Error Unit
  messages : List Message
  files : FileSystem

def showPositions (config : WorkerConfig) (files : FileSystem) : Report :=
  match (Store.new config.positionPath).load files with
  | .error error => ⟨.error error, [], files⟩
  | .ok store =>
    ⟨.ok (), [.positions config.positionPath.text config.workerId store.table.toList], files⟩

/-- Remove the position of a file from a store. What is already removed is listed in order. -/
def forgetFile (state : Store × List String) (path : Path) : Store × List String :=
  let (store, removed) := state
  let partition := filePartition path
  if (store.get? partition).isSome then (store.remove partition, removed ++ [path.text])
  else state

def forgetFiles (store : Store) (paths : List Path) : Store × List String :=
  paths.foldl forgetFile (store, [])

/-- Remove the stored positions of files. The position file is written only if one was removed. -/
def forget (config : WorkerConfig) (moment : Moment) (paths : List Path)
    (files : FileSystem) : Report :=
  match (Store.new config.positionPath).load files with
  | .error error => ⟨.error error, [], files⟩
  | .ok store =>
    let (left, removed) := forgetFiles store paths
    if removed.isEmpty then ⟨.ok (), [.forgotten removed], files⟩
    else match left.persist moment files with
      | (files, .error error) => ⟨.error error, [], files⟩
      | (files, .ok ()) => ⟨.ok (), [.forgotten removed], files⟩

/-- A file that is being followed, and what has been printed. -/
structure Tail where
  follower : Follower
  messages : List Message

namespace Tail

/-- The file that is followed, as it was given. -/
def file (tail : Tail) : String := tail.follower.source.settings.file.text

def settle (tail : Tail) : Tail :=
  let follower := tail.follower
  { tail with follower := { follower with cluster := follower.cluster.settle } }

/-- Print records and keep the position behind them. -/
def take (tail : Tail) (emittedAt : Timestamp) (records : List Record) : Tail where
  follower := tail.follower.commit records
  messages := tail.messages ++ records.map (.record tail.file emittedAt)

/-- Poll until the source is cancelled or fails; `fuel` bounds the number of polls. -/
def pollWithin (moment : Moment) : Nat → Tail → Except Error Unit × Tail
  | 0, tail => (.ok (), tail)
  | fuel + 1, tail =>
    let settled := tail.settle
    match settled.follower.request moment .poll with
    | (.ok records, follower) =>
      let polled : Tail := { settled with follower }.settle
      pollWithin moment fuel (polled.take moment.time records)
    | (.error .cancelled, follower) => (.ok (), { settled with follower })
    | (.error error, follower) => (.error error, { settled with follower })

/-- The number of octets that are in the files or are going to be written. -/
def octetCount (follower : Follower) : Nat :=
  let present := follower.cluster.files.contents.toList.map fun entry => entry.2.length
  let coming := follower.agenda.map fun (_, incident) => match incident with
    | .change (.write _ octets) | .change (.append _ octets) => octets.length
    | _ => 0
  (present ++ coming).foldr (· + ·) 0

/-- The most polls that can be made until nothing happens any more: each of them returns at least an
octet or takes some time. -/
def patience (tail : Tail) : Nat :=
  octetCount tail.follower + (tail.follower.agenda.map Prod.fst).foldl max 0 + 2

/-- Stop the service and print its table. A failure to follow the file counts before one to stop. -/
def finish (tail : Tail) (moment : Moment) (workerId : String)
    (outcome : Except Error Unit) : Report :=
  let closed := tail.follower.close
  let (stopped, cluster) := closed.cluster.stop moment Follower.keeper
  let table := ((cluster.member? Follower.keeper).map fun member =>
    member.service.table).getD .empty
  let result := match outcome with
    | .ok () => stopped
    | .error error => .error error
  ⟨result, tail.messages ++ [.state workerId table.toList], cluster.files⟩

end Tail

/-- The worker of a configuration on a network of its own. -/
def soloCluster (config : WorkerConfig) (files : FileSystem) : Cluster :=
  .new .new files
    [.new config.positionTopic config.workerId (.new config.positionPath) config.flushSettings]

/-- Follow a file, printing each line, until it is interrupted. -/
def follow (config : WorkerConfig) (moment : Moment) (file : String) (batchSize : Nat)
    (agenda : List (Instant × Incident)) (files : FileSystem) : Report :=
  match (soloCluster config files).start Follower.keeper with
  | (.error error, cluster) => ⟨.error error, [], cluster.files⟩
  | (.ok (), cluster) =>
    let settings := (SourceSettings.new (.ofText file)).withBatchSize batchSize
    let tail : Tail := ⟨⟨cluster, .new settings, false, agenda⟩, []⟩
    let (outcome, polled) := tail.pollWithin moment tail.patience
    polled.finish moment config.workerId outcome

/-- Run a command. `agenda` is what happens meanwhile; a cancellation is the interrupt of the user. -/
def run (invocation : Invocation) (moment : Moment) (agenda : List (Instant × Incident))
    (files : FileSystem) : Report :=
  match configOf invocation files with
  | .error error => ⟨.error error, [], files⟩
  | .ok config =>
    match invocation.task with
    | .show => showPositions config files
    | .tail file batchSize => follow config moment file batchSize agenda files
    | .forget paths => forget config moment (paths.map .ofText) files

def Report.text (report : Report) (format : OutputFormat) : String :=
  String.join (report.messages.map fun message => message.print format)

/-- The text that names the program and its version. -/
def versionText : String := "solidafy-positions 0.1.0\n"

/-- How the program ends: its exit code, what it prints, and the error that it reports. -/
structure Exit where
  code : Nat
  output : String
  error : Option Error

/-- The end of a program whose command line was refused. -/
def Refusal.exit : Refusal → Exit
  | .help => ⟨0, "", none⟩
  | .version => ⟨0, versionText, none⟩
  | .nothing | .invalid => ⟨2, "", none⟩

/-- The end of a program that has run a command. -/
def Report.exit (report : Report) (format : OutputFormat) : Exit :=
  match report.result with
  | .ok () => ⟨0, report.text format, none⟩
  | .error error => ⟨1, report.text format, some error⟩

end PositionSync.Command
