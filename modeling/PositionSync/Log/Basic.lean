import PositionSync.Message.Basic

/-!
# Replicated logs

A replicated log carries messages between all workers of a cluster. A worker sees of it only three
operations on a state that belongs to the log.

The recorder is a log that keeps what is sent to it. Its deliveries come from outside, through an inbox
that is open while there is a subscription.
-/

namespace PositionSync

/-- A log with state `ω`: a worker may begin to receive, send a message to all, and stop receiving. -/
structure ReplicatedLog (ω : Type) where
  subscribe : ω → Except Error ω
  send : PositionMessage → ω → ω
  unsubscribe : ω → ω

/-- What a recorder has seen, and whether it lets anybody subscribe. -/
structure Recorder where
  sent : List PositionMessage
  hasInbox : Bool
  unsubscribed : Nat
  refusal : Option String
deriving DecidableEq

namespace Recorder

def new : Recorder := ⟨[], false, 0, none⟩

instance : Inhabited Recorder := ⟨new⟩

def replicated : ReplicatedLog Recorder where
  subscribe recorder :=
    match recorder.refusal with
    | some message => .error (.delivery message)
    | none => .ok { recorder with hasInbox := true }
  send message recorder := { recorder with sent := recorder.sent ++ [message] }
  unsubscribe recorder :=
    { recorder with hasInbox := false, unsubscribed := recorder.unsubscribed + 1 }

end Recorder

end PositionSync
