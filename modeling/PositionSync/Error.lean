import PositionSync.Reading.Fault

/-!
# Errors

Every operation that can fail reports one of these causes.
-/

namespace PositionSync

/-- The operations that change the lifecycle of a service. -/
inductive LifecycleOperation where
  | start
  | stop
deriving DecidableEq

def LifecycleOperation.name : LifecycleOperation → String
  | .start => "start"
  | .stop => "stop"

inductive Error where
  | config (message : String)
  | missingConfigField (field : String)
  | invalidConfigValue (field message : String)
  | state (message : String)
  | persist (message : String)
  | delivery (message : String)
  | unknownMessageKind (kind : String)
  | lifecycle (operation : LifecycleOperation) (state : String)
  | source (message : String)
  | cancelled
  | io (message : String)
  | json (fault : Fault)
  | fileNotFound (path : String)
deriving DecidableEq

def Error.message : Error → String
  | .config message => "Configuration error: " ++ message
  | .missingConfigField field => "Missing required config field: " ++ field
  | .invalidConfigValue field message => "Invalid config value for '" ++ field ++ "': " ++ message
  | .state message => "State error: " ++ message
  | .persist message => "Persist failed: " ++ message
  | .delivery message => "Delivery failed: " ++ message
  | .unknownMessageKind kind => "Invalid message kind: " ++ kind
  | .lifecycle operation condition =>
    "Cannot " ++ operation.name ++ " while service is " ++ condition
  | .source message => "Source error: " ++ message
  | .cancelled => "Operation cancelled"
  | .io message => "IO error: " ++ message
  | .json fault => "JSON error: " ++ fault.message
  | .fileNotFound path => "File not found: " ++ path

end PositionSync
