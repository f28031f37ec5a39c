import PositionSync.Time.Duration
import PositionSync.Error
import PositionSync.Files.Path
import PositionSync.Json.Value
import PositionSync.Text.Basic

/-!
# Worker configuration

What a worker has to know to run the position service.
-/

namespace PositionSync

/-- When a service flushes by itself; without an interval it does not. -/
structure FlushSettings where
  syncEvery : Option Duration
  persistEvery : Option Duration
deriving DecidableEq

namespace FlushSettings

def never : FlushSettings := ⟨none, none⟩

instance : Inhabited FlushSettings := ⟨never⟩

end FlushSettings

/-- The configuration of a worker. -/
structure WorkerConfig where
  workerId : String
  storeDir : String
  positionTopic : String
  syncIntervalMs : Option UInt64
  persistIntervalMs : Option UInt64
deriving DecidableEq

namespace WorkerConfig

/-- The name of the position file inside the store directory. -/
def positionFileName : String := "position.json"

def defaultStoreDir : String := "./store"

def defaultTopic : String := "position-topic"

/-- A configuration with defaults for everything but the worker's name. -/
def new (workerId : String) : WorkerConfig :=
  ⟨workerId, defaultStoreDir, defaultTopic, none, none⟩

/-- An interval has to be positive if it is given. -/
def checkInterval (field : String) (interval : Option UInt64) : Except Error Unit :=
  if interval = some 0 then .error (.invalidConfigValue field "interval must be positive")
  else .ok ()

/-- Check the values of the fields. -/
def validate (config : WorkerConfig) : Except Error Unit := do
  if Text.isBlank config.workerId then throw (.missingConfigField "worker_id")
  if Text.isBlank config.positionTopic then
    throw (.invalidConfigValue "position_topic" "topic cannot be empty")
  checkInterval "sync_interval_ms" config.syncIntervalMs
  checkInterval "persist_interval_ms" config.persistIntervalMs

/-- A configuration that has been checked. -/
def validated (config : WorkerConfig) : Except Error WorkerConfig := do
  config.validate
  return config

def positionPath (config : WorkerConfig) : Path :=
  (Path.ofText config.storeDir).join (.ofText positionFileName)

/-- A span of milliseconds. -/
def intervalDuration (interval : UInt64) : Duration := .ofMilliseconds interval.toNat

/-- When the service of the worker flushes by itself. -/
def flushSettings (config : WorkerConfig) : FlushSettings :=
  ⟨config.syncIntervalMs.map intervalDuration, config.persistIntervalMs.map intervalDuration⟩

def intervalValue (interval : Option UInt64) : Json.Value :=
  match interval with
  | some value => .number value.toNat
  | none => .null

/-- The object with all fields of a configuration. -/
def value (config : WorkerConfig) : Json.Value :=
  .object [
    ("worker_id", .text config.workerId),
    ("store_dir", .text config.storeDir),
    ("position_topic", .text config.positionTopic),
    ("sync_interval_ms", intervalValue config.syncIntervalMs),
    ("persist_interval_ms", intervalValue config.persistIntervalMs)]

def json (config : WorkerConfig) : String := config.value.compact

end WorkerConfig

end PositionSync
