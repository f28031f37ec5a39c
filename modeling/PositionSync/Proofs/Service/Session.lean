import Mathlib.Data.List.Basic
import PositionSync.Log.Network
import PositionSync.Proofs.Service.Steps

/-!
# Sessions

In a session, one service works on a topic of a network while anything else goes on around it. A start
or stop that finds the lifecycle free has it to itself until it answers, and goes on in steps. Other
starts and stops wait until then, and so does who asks for the stage of the service. Whatever else a
service can do may happen between the steps.
-/

namespace PositionSync

inductive LogEvent where
  | subscribed
  | sent (message : PositionMessage)
  | unsubscribed
deriving DecidableEq

/-- A log that notes what is done to it, the earliest first. -/
def ReplicatedLog.noting {ω : Type} (log : ReplicatedLog ω) :
    ReplicatedLog (ω × List LogEvent) where
  subscribe state := (log.subscribe state.1).map fun world => (world, state.2 ++ [.subscribed])
  send message state := (log.send message state.1, state.2 ++ [.sent message])
  unsubscribe state := (log.unsubscribe state.1, state.2 ++ [.unsubscribed])

/-- What a call does next while it has the lifecycle to itself. -/
inductive Errand where
  | join
  | announce
  | write
  /-- End the background tasks, after the table has been written with a result. -/
  | endTasks (written : Except Error Unit)
  | leave (written : Except Error Unit)

def Errand.remaining : Errand → Nat
  | .announce | .leave _ => 1
  | .join | .endTasks _ => 2
  | .write => 3

/-- A start or stop that has the lifecycle to itself. -/
structure Call where
  errand : Errand
  /-- The stage in which it has found the service. -/
  found : Lifecycle
  events : List LogEvent

structure Answer where
  operation : LifecycleOperation
  found : Lifecycle
  /-- The result of reading or writing the table, unless the call was rejected. -/
  stored : Option (Except Error Unit)
  result : Except Error Unit
  events : List LogEvent
  /-- The stage in which it has left the service. -/
  left : Lifecycle

/-- Whether a start has succeeded, or a stop has not been rejected. -/
def Answer.isAccepted (answer : Answer) : Bool :=
  match answer.operation with
  | .start => answer.result.isOk
  | .stop => answer.stored.isSome

structure Session where
  service : Service
  network : Network
  log : LocalLog
  files : FileSystem
  /-- The call that has the lifecycle to itself. -/
  holder : Option Call
  events : List LogEvent
  handled : List Delivery
  answers : List Answer

namespace Session

/-- A stopped service that knows its topic. -/
def new (store : Store) (settings : FlushSettings) (topic workerId : String) (network : Network)
    (files : FileSystem) : Session :=
  ⟨.new store settings, network, .join topic workerId, files, none, [], [], []⟩

/-- The stage of the service, which shows while no call has the lifecycle to itself. -/
def stage? (session : Session) : Option Lifecycle :=
  if session.holder.isSome then none else some session.service.lifecycle

def remaining (session : Session) : Nat :=
  (session.holder.map fun call => call.errand.remaining).getD 0

def turns (session : Session) : List LifecycleOperation :=
  (session.answers.filter Answer.isAccepted).map Answer.operation

abbrev noting : ReplicatedLog ((Network × LocalLog) × List LogEvent) := LocalLog.replicated.noting

def world (session : Session) : (Network × LocalLog) × List LogEvent :=
  ((session.network, session.log), [])

def adopt (session : Session) (service : Service)
    (world : (Network × LocalLog) × List LogEvent) : Session :=
  { session with
    service
    network := world.1.1
    log := world.1.2
    events := session.events ++ world.2 }

/-- Answer a call, which gives the lifecycle free. -/
def answer (session : Session) (operation : LifecycleOperation) (found : Lifecycle)
    (stored : Option (Except Error Unit)) (result : Except Error Unit) (events : List LogEvent) :
    Session :=
  { session with
    holder := none
    answers := session.answers ++
      [⟨operation, found, stored, result, events, session.service.lifecycle⟩] }

/-- Start or stop, if no other call has the lifecycle to itself. A call that is rejected, and a start
that cannot read the table, answer at once. -/
def call (operation : LifecycleOperation) (session : Session) : Session :=
  if session.holder.isSome then session
  else
    let found := session.service.lifecycle
    match operation with
    | .start =>
      match session.service.beginStart session.files with
      | .error error =>
        let stored := match found with
          | .stopped => some (.error error)
          | _ => none
        session.answer .start found stored (.error error) []
      | .ok loaded => { session with service := loaded, holder := some ⟨.join, found, []⟩ }
    | .stop =>
      match session.service.beginStop noting session.world with
      | .error error => session.answer .stop found none (.error error) []
      | .ok (flushed, world) =>
        { session.adopt flushed world with holder := some ⟨.write, found, world.2⟩ }

/-- One step of the call that has the lifecycle to itself. -/
def proceed (now : Instant) (moment : Moment) (session : Session) : Session :=
  match session.holder with
  | none => session
  | some ⟨.join, found, events⟩ =>
    match session.service.joinLog noting now session.world with
    | (.error error, refused, world) =>
      (session.adopt refused world).answer .start found (some (.ok ())) (.error error)
        (events ++ world.2)
    | (.ok (), joined, world) =>
      { session.adopt joined world with holder := some ⟨.announce, found, events ++ world.2⟩ }
  | some ⟨.announce, found, events⟩ =>
    let (running, world) := session.service.finishStart noting session.world
    (session.adopt running world).answer .start found (some (.ok ())) (.ok ()) (events ++ world.2)
  | some ⟨.write, found, events⟩ =>
    let (files, written) := session.service.persist moment session.files
    { session with files, holder := some ⟨.endTasks written, found, events⟩ }
  | some ⟨.endTasks written, found, events⟩ =>
    { session with
      service := session.service.endTasks
      holder := some ⟨.leave written, found, events⟩ }
  | some ⟨.leave written, found, events⟩ =>
    let (stopped, world) := session.service.finishStop noting session.world
    (session.adopt stopped world).answer .stop found (some written) written (events ++ world.2)

inductive Background where
  | fetch
  /-- The next delivery is handled, if the service has its tasks. -/
  | handle
  /-- Somebody publishes something. -/
  | publish (topic : String) (payload : Payload)

def handleNext (session : Session) : Session :=
  if session.service.isConsuming then
    match session.log.subscription.bind Subscription.next? with
    | none => session
    | some (delivery, subscription) =>
      let log := { session.log with subscription := some subscription }
      let handled := session.service.handleDelivery noting delivery ((session.network, log), [])
      { session.adopt handled.service handled.world with handled := session.handled ++ [delivery] }
  else session

def background (session : Session) : Background → Session
  | .fetch => { session with log := session.log.fetch session.network }
  | .handle => session.handleNext
  | .publish topic payload => { session with network := session.network.publish topic payload }

inductive Move where
  | call (operation : LifecycleOperation)
  | proceed (now : Instant) (moment : Moment)
  | background (step : Background)
  | put (partition : Partition) (offset : Offset)
  | putMany (positions : PositionTable)
  | remove (partitions : List Partition)
  | synchronize
  | persist (moment : Moment)
  | load
  | listen (listeners : Listeners)
  | changeFiles (files : FileSystem)

def Move.isProceed : Move → Bool
  | .proceed .. => true
  | _ => false

def perform (session : Session) : Move → Session
  | .call operation => session.call operation
  | .proceed now moment => session.proceed now moment
  | .background step => session.background step
  | .put partition offset => { session with service := session.service.putPosition partition offset }
  | .putMany positions => { session with service := session.service.putPositions positions }
  | .remove partitions => { session with service := session.service.removePositions partitions }
  | .synchronize =>
    let (_, flushed, world) := session.service.synchronize noting session.world
    session.adopt flushed world
  | .persist moment =>
    { session with files := (session.service.persist moment session.files).1 }
  | .load =>
    match session.service.load session.files with
    | .ok service => { session with service }
    | .error _ => session
  | .listen listeners => { session with service := { session.service with listeners } }
  | .changeFiles files => { session with files }

def run (moves : List Move) (session : Session) : Session := moves.foldl perform session

theorem run_append (earlier later : List Move) (session : Session) :
    session.run (earlier ++ later) = (session.run earlier).run later :=
  List.foldl_append

section Uninterrupted

variable {session : Session} (free : session.holder = none) (now : Instant) (moment : Moment)

include free

/-- A start during which nothing else happens is a start of the service. -/
theorem start_uninterrupted :
    let ended := ((session.call .start).proceed now moment).proceed now moment
    let (result, service, world) := session.service.start noting session.files now session.world
    ended.service = service ∧ ended.world.1 = world.1 ∧ ended.events = session.events ++ world.2 ∧
      ended.files = session.files ∧ ended.holder = none ∧
      ended.answers.getLast?.map Answer.result = some result := by
  cases stage : session.service.lifecycle with
  | stopped =>
      cases loads : session.service.load session.files with
      | error error =>
          simp [call, free, Service.beginStart, stage, loads, Except.map, answer, proceed,
            Service.start, world]
      | ok loaded =>
          simp [call, free, Service.beginStart, stage, loads, Except.map, proceed, Service.joinLog,
            ReplicatedLog.noting, LocalLog.replicated, world, adopt, Service.finishStart,
            Service.announce, answer, Service.start]
  | starting | running | stopping =>
      simp [call, free, Service.beginStart, stage, answer, proceed, Service.start, world]

/-- A stop during which nothing else happens is a stop of the service. -/
theorem stop_uninterrupted :
    let ended := (((session.call .stop).proceed now moment).proceed now moment).proceed now moment
    let outcome := session.service.stop noting moment session.files session.world
    ended.service = outcome.service ∧ ended.world.1 = outcome.world.1 ∧
      ended.events = session.events ++ outcome.world.2 ∧ ended.files = outcome.files ∧
      ended.holder = none ∧ ended.answers.getLast?.map Answer.result = some outcome.result := by
  cases stage : session.service.lifecycle with
  | running tasks =>
      simp [call, free, Service.beginStop, stage, Service.synchronize, proceed, adopt, world, answer,
        ReplicatedLog.noting, LocalLog.replicated, Service.stop, Service.endTasks, Service.finishStop]
  | starting | stopped | stopping =>
      simp [call, free, Service.beginStop, stage, answer, proceed, Service.stop, world]

end Uninterrupted

end Session

end PositionSync
