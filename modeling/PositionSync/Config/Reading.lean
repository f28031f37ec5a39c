import PositionSync.Config.Basic
import PositionSync.Files.System
import PositionSync.Yaml.Record

/-!
# Reading worker configurations

A configuration is one YAML mapping, which may also be written as JSON. Only the worker's name is
required, and unknown members are left out.
-/

namespace PositionSync.WorkerConfig

/-- The fields of a configuration that have been read. -/
structure Draft where
  workerId : Option String := none
  storeDir : Option String := none
  positionTopic : Option String := none
  syncIntervalMs : Option (Option UInt64) := none
  persistIntervalMs : Option (Option UInt64) := none

namespace Draft

def isSet (name : String) (draft : Draft) : Bool :=
  match name with
  | "worker_id" => draft.workerId.isSome
  | "store_dir" => draft.storeDir.isSome
  | "position_topic" => draft.positionTopic.isSome
  | "sync_interval_ms" => draft.syncIntervalMs.isSome
  | "persist_interval_ms" => draft.persistIntervalMs.isSome
  | _ => false

def interval (place : Option String) (node : Yaml.Node) : Except Fault (Option UInt64) :=
  (node.optionalUnsigned64 place).map fun value => value.map Nat.toUInt64

def read (name : String) (place : Option String) (draft : Draft) (node : Yaml.Node) :
    Except Fault Draft := do
  match name with
  | "worker_id" =>
    return { draft with workerId := some (← Yaml.atMember place (node.text "a string")) }
  | "store_dir" =>
    return { draft with storeDir := some (← Yaml.atMember place (node.text "path string")) }
  | "position_topic" =>
    return { draft with positionTopic := some (← Yaml.atMember place (node.text "a string")) }
  | "sync_interval_ms" => return { draft with syncIntervalMs := some (← interval place node) }
  | "persist_interval_ms" =>
    return { draft with persistIntervalMs := some (← interval place node) }
  | _ => return draft

def fields : Yaml.Fields Draft where
  known :=
    ["worker_id", "store_dir", "position_topic", "sync_interval_ms", "persist_interval_ms"]
  isSet := isSet
  read := read

/-- The configuration with defaults for what has not been read. -/
def finish (draft : Draft) : Except Fault WorkerConfig :=
  match draft.workerId with
  | none => .error (.missingField "worker_id")
  | some workerId => .ok {
      workerId
      storeDir := draft.storeDir.getD defaultStoreDir
      positionTopic := draft.positionTopic.getD defaultTopic
      syncIntervalMs := draft.syncIntervalMs.getD none
      persistIntervalMs := draft.persistIntervalMs.getD none }

end Draft

def parse (text : String) : Except Error WorkerConfig :=
  match Yaml.decode Draft.fields {} "struct WorkerConfig" Draft.finish text with
  | .error fault => .error (.config ("Failed to parse worker config: " ++ fault.message))
  | .ok config => config.validated

def load (files : FileSystem) (path : Path) : Except Error WorkerConfig :=
  match files.readText path with
  | .ok text => parse text
  | .error .notFound => .error (.config ("Config file '" ++ path.text ++ "' not found"))
  | .error fault =>
    .error (.config ("Failed to read config file '" ++ path.text ++ "': " ++ fault.message))

end PositionSync.WorkerConfig
