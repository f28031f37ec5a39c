import PositionSync.Log.Basic
import PositionSync.Service.Lifecycle

/-!
# A service on its own

A host runs one service over a recording log, with files and a clock. Whatever is handed to the inbox
is handled at once, and while time passes the service flushes when it is due.
-/

namespace PositionSync

/-- A service with its surroundings, and the names of the listeners called so far. -/
structure Host where
  service : Service
  recorder : Recorder
  files : FileSystem
  now : Instant
  called : List String

namespace Host

def new (store : Store) (settings : FlushSettings) (files : FileSystem) : Host :=
  ⟨.new store settings, .new, files, 0, []⟩

def start (host : Host) : Except Error Unit × Host :=
  let (result, service, recorder) :=
    host.service.start Recorder.replicated host.files host.now host.recorder
  (result, { host with service, recorder })

def stop (host : Host) (moment : Moment) : Except Error Unit × Host :=
  let outcome := host.service.stop Recorder.replicated moment host.files host.recorder
  (outcome.result, { host with
    service := outcome.service, recorder := outcome.world, files := outcome.files })

/-- Write the table, listed in some order. -/
def persistListed (host : Host) (moment : Moment) (listing : List (Partition × Offset)) :
    Except Error Unit × Host :=
  let (files, result) := host.service.store.persistListed moment listing host.files
  (result, { host with files })

def persist (host : Host) (moment : Moment) : Except Error Unit × Host :=
  host.persistListed moment host.service.table.toList

def load (host : Host) : Except Error Unit × Host :=
  match host.service.load host.files with
  | .ok service => (.ok (), { host with service })
  | .error error => (.error error, host)

def synchronize (host : Host) : Nat × Host :=
  let (count, service, recorder) := host.service.synchronize Recorder.replicated host.recorder
  (count, { host with service, recorder })

def deliver (host : Host) (delivery : Delivery) : Bool × Host :=
  let handled := host.service.handleDelivery Recorder.replicated delivery host.recorder
  (handled.notified, { host with
    service := handled.service
    recorder := handled.world
    called := host.called ++ handled.called })

/-- Hand a delivery to the inbox. There is no answer without an inbox; else it tells whether somebody
still listens, who then handles the delivery. -/
def push (host : Host) (delivery : Delivery) : Option Bool × Host :=
  if !host.recorder.hasInbox then (none, host)
  else if host.service.isConsuming then (some true, (host.deliver delivery).2)
  else (some false, host)

/-- Close the inbox from outside. The answer tells whether there was one. -/
def closeInbox (host : Host) : Bool × Host :=
  (host.recorder.hasInbox, { host with
    recorder := { host.recorder with hasInbox := false }
    service := host.service.loseInbox })

/-- Refuse further subscriptions with a message, or allow them again. -/
def refuse (host : Host) (refusal : Option String) : Host :=
  { host with recorder := { host.recorder with refusal } }

def register (host : Host) (listener : Listener) : ListenerId × Host :=
  let (id, listeners) := host.service.listeners.register listener
  (id, { host with service := { host.service with listeners } })

/-- Take the last listener under a name off. -/
def unregister (host : Host) (name : String) : Option Bool × Host :=
  let (found, listeners) := host.service.listeners.unregister name
  (found, { host with service := { host.service with listeners } })

def flushDue (host : Host) (moment : Moment) : Host :=
  let (files, service, recorder) :=
    host.service.flushDue Recorder.replicated moment host.now host.files host.recorder
  { host with files, service, recorder }

/-- Let time pass up to an instant. Each step takes some time, so that `fuel` need not exceed the
span. -/
def advanceWithin (moment : Moment) (target : Instant) : Nat → Host → Host
  | 0, host => { host with now := target }
  | fuel + 1, host =>
    match host.service.nextFlush? host.now with
    | none => { host with now := target }
    | some instant =>
      if target < instant then { host with now := target }
      else advanceWithin moment target fuel ({ host with now := instant }.flushDue moment)

def advance (host : Host) (moment : Moment) (span : Duration) : Host :=
  let waited := span.waited.nanoseconds
  advanceWithin moment (host.now + waited) (waited + 1) host

end Host

end PositionSync
