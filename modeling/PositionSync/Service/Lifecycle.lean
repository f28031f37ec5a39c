import PositionSync.Service.Basic

/-!
# Starting and stopping

A start goes through three phases: it reads the table, subscribes to the log and announces the
worker. A stop goes through four: it broadcasts the pending positions, writes the table, ends the
background tasks and unsubscribes. Deliveries may be handled between the phases as long as the
background tasks run. A stop always ends in the stopped stage and answers what the writing
answered.
-/

namespace PositionSync.Service

variable {ω : Type}

/-- The first phase of a start: read the table. -/
def beginStart (files : FileSystem) (service : Service) : Except Error Service :=
  match service.lifecycle with
  | .stopped => (service.load files).map fun loaded => { loaded with lifecycle := .starting none }
  | other => .error (.lifecycle .start other.name)

/-- The second phase of a start: subscribe to the log and begin the background tasks. A log that
refuses ends the start. -/
def joinLog (log : ReplicatedLog ω) (now : Instant) (service : Service) (world : ω) :
    Except Error Unit × Service × ω :=
  match log.subscribe world with
  | .error error => (.error error, { service with lifecycle := .stopped }, world)
  | .ok subscribed =>
    let tasks : Tasks := ⟨true, .start service.settings now⟩
    (.ok (), { service with lifecycle := .starting (some tasks) }, subscribed)

/-- The last phase of a start: announce the worker. -/
def finishStart (log : ReplicatedLog ω) (service : Service) (world : ω) : Service × ω :=
  match service.lifecycle with
  | .starting (some tasks) =>
    ({ service with lifecycle := .running tasks }, service.announce log world)
  | _ => (service, world)

def start (log : ReplicatedLog ω) (files : FileSystem) (now : Instant) (service : Service)
    (world : ω) : Except Error Unit × Service × ω :=
  match service.beginStart files with
  | .error error => (.error error, service, world)
  | .ok loaded =>
    match loaded.joinLog log now world with
    | (.error error, refused, world) => (.error error, refused, world)
    | (.ok (), joined, world) => (.ok (), joined.finishStart log world)

/-- The first phase of a stop: broadcast the pending positions. -/
def beginStop (log : ReplicatedLog ω) (service : Service) (world : ω) :
    Except Error (Service × ω) :=
  match service.lifecycle with
  | .running tasks =>
    let (_, flushed, world) := service.synchronize log world
    .ok ({ flushed with lifecycle := .stopping (some tasks) }, world)
  | other => .error (.lifecycle .stop other.name)

/-- The third phase of a stop, after the table has been written: end the background tasks. -/
def endTasks (service : Service) : Service := { service with lifecycle := .stopping none }

def finishStop (log : ReplicatedLog ω) (service : Service) (world : ω) : Service × ω :=
  ({ service with lifecycle := .stopped }, log.unsubscribe world)

/-- What a call that may write files leads to. -/
structure Outcome (ω : Type) where
  result : Except Error Unit
  files : FileSystem
  service : Service
  world : ω

def stop (log : ReplicatedLog ω) (moment : Moment) (files : FileSystem) (service : Service)
    (world : ω) : Outcome ω :=
  match service.beginStop log world with
  | .error error => ⟨.error error, files, service, world⟩
  | .ok (flushed, world) =>
    let (files, persisted) := flushed.persist moment files
    let (stopped, world) := flushed.endTasks.finishStop log world
    ⟨persisted, files, stopped, world⟩

/-- The log ends the subscription by itself: no further delivery is handled. -/
def loseInbox (service : Service) : Service :=
  match service.lifecycle with
  | .running tasks => { service with lifecycle := .running { tasks with consuming := false } }
  | .stopping (some tasks) =>
    { service with lifecycle := .stopping (some { tasks with consuming := false }) }
  | _ => service

/-- Whether deliveries are handled in the background. -/
def isConsuming (service : Service) : Bool :=
  service.lifecycle.tasks?.any fun tasks => tasks.consuming

/-- Flush once, as it is done periodically: broadcast only if something is pending, and let a failed
write pass. -/
def flush (log : ReplicatedLog ω) (moment : Moment) (kind : Flush) (files : FileSystem)
    (service : Service) (world : ω) : FileSystem × Service × ω :=
  match kind with
  | .synchronize =>
    if service.pending.isEmpty then (files, service, world)
    else
      let (_, service, world) := service.synchronize log world
      (files, service, world)
  | .persist => ((service.persist moment files).1, service, world)

/-- The next instant at which the service flushes by itself. -/
def nextFlush? (service : Service) (now : Instant) : Option Instant :=
  service.lifecycle.tasks?.bind fun tasks => tasks.schedule.next? now

def dueAt (service : Service) (now : Instant) : List Flush :=
  match service.lifecycle.tasks? with
  | some tasks => tasks.schedule.dueAt now
  | none => []

def flushDue (log : ReplicatedLog ω) (moment : Moment) (now : Instant) (files : FileSystem)
    (service : Service) (world : ω) : FileSystem × Service × ω :=
  (service.dueAt now).foldl
    (fun (files, service, world) kind => service.flush log moment kind files world)
    (files, service, world)

end PositionSync.Service
