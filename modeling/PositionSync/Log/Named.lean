import PositionSync.Log.Network

/-!
# Handles and receivers with names

Several handles share one network, and what a handle receives goes to a receiver of its own. The
receivers fetch whenever they get the chance.
-/

namespace PositionSync

structure Receiver where
  /-- The name of the handle that feeds the receiver, unless the name has gone to another handle. -/
  log : Option String
  topic : String
  subscription : Subscription
  isOpen : Bool

/-- Handles and receivers by name on one network. -/
structure NamedLogs where
  network : Network
  logs : SortedMap String LocalLog
  receivers : SortedMap String Receiver

namespace NamedLogs

def start (network : Network) : NamedLogs := ⟨network, .empty, .empty⟩

def mapReceivers (named : NamedLogs) (change : Receiver → Receiver) : NamedLogs :=
  { named with
    receivers := .ofList (named.receivers.toList.map fun entry => (entry.1, change entry.2)) }

/-- Join a topic under a name. A receiver that was fed by another handle of this name stays open. -/
def join (named : NamedLogs) (log topic workerId : String) : NamedLogs :=
  let detached := named.mapReceivers fun receiver =>
    if receiver.log = some log then { receiver with log := none } else receiver
  { detached with logs := detached.logs.insert log (.join topic workerId) }

def fetchAll (named : NamedLogs) : NamedLogs :=
  named.mapReceivers fun receiver =>
    if receiver.isOpen then
      { receiver with
        subscription := receiver.subscription.fetch named.network receiver.topic }
    else receiver

/-- Stop receiving with a handle. Its receiver keeps what it has. -/
def unsubscribe (named : NamedLogs) (log : String) : NamedLogs :=
  named.mapReceivers fun receiver =>
    if receiver.log = some log then { receiver with isOpen := false } else receiver

def subscribe (named : NamedLogs) (log name : String) : NamedLogs :=
  match named.logs.get? log with
  | none => named
  | some handle =>
    let ended := named.unsubscribe log
    let receiver : Receiver :=
      ⟨some log, handle.topic, .start named.network handle.topic, true⟩
    { ended with receivers := ended.receivers.insert name receiver }

def publish (named : NamedLogs) (log : String) (payload : Payload) : NamedLogs :=
  match named.logs.get? log with
  | none => named
  | some handle => { named with network := named.network.publish handle.topic payload }

/-- Give a receiver up. The flag tells whether there was one. -/
def dropReceiver (named : NamedLogs) (name : String) : Bool × NamedLogs :=
  (named.receivers.contains name, { named with receivers := named.receivers.erase name })

/-- Take everything out of a receiver, and tell whether nothing more can come. What is taken makes room
for what an open receiver could not fetch before. -/
def drain (named : NamedLogs) (name : String) : Option (List Delivery × Bool) × NamedLogs :=
  match named.receivers.get? name with
  | none => (none, named)
  | some receiver =>
    let (taken, subscription) :=
      if receiver.isOpen then receiver.subscription.drain named.network receiver.topic
      else (receiver.subscription.inbox, { receiver.subscription with inbox := [] })
    (some (taken, !receiver.isOpen),
      { named with receivers := named.receivers.insert name { receiver with subscription } })

end NamedLogs

end PositionSync
