import PositionSync.Log.Network
import PositionSync.Service.Lifecycle

/-!
# Clusters

A cluster is a number of workers on one network, with common files and a common clock. Each worker has
one listener, whose calls are counted. The workers take turns: a receiver that waits for its topic gets
a turn when something is published there, and gives the handler of its worker a turn when it has
fetched something. A call may use the table of a worker over several turns; a handler that needs the
table meanwhile waits for it.
-/

namespace PositionSync

/-- How a handler stands to the table of its worker. -/
inductive TableWait where
  | idle
  | queued
  /-- The table is its own, but it has not had a turn since. -/
  | granted
deriving DecidableEq

/-- A worker: its handle on the network, its service, how often its listener was called, and how its
handler stands to the table. -/
structure Member where
  log : LocalLog
  service : Service
  notified : Nat
  wait : TableWait

/-- What a worker does when it has its turn. -/
inductive Turn where
  | fetch (index : Nat)
  | handle (index : Nat)
deriving DecidableEq

def Turn.index : Turn → Nat
  | .fetch index | .handle index => index

/-- Workers with their surroundings. -/
structure Cluster where
  network : Network
  files : FileSystem
  now : Instant
  members : List Member
  ready : List Turn
  /-- The workers whose receivers wait for their topics, in the order in which they began to wait. -/
  waiting : List Nat
  /-- The worker whose table a call is using, and how. -/
  inUse : Option (Nat × TableUse)

namespace Member

def new (topic workerId : String) (store : Store) (settings : FlushSettings) : Member :=
  let service := Service.new store settings
  let (_, listeners) := service.listeners.register { name := workerId }
  ⟨.join topic workerId, { service with listeners }, 0, .idle⟩

end Member

namespace Cluster

def new (network : Network) (files : FileSystem) (members : List Member) : Cluster :=
  ⟨network, files, 0, members, [], [], none⟩

def member? (cluster : Cluster) (index : Nat) : Option Member := cluster.members[index]?

def setMember (cluster : Cluster) (index : Nat) (member : Member) : Cluster :=
  { cluster with members := cluster.members.set index member }

def mapMember (cluster : Cluster) (index : Nat) (change : Member → Member) : Cluster :=
  { cluster with members := cluster.members.modify index change }

def mapService (cluster : Cluster) (index : Nat) (change : Service → Service) : Cluster :=
  cluster.mapMember index fun member => { member with service := change member.service }

/-- The answer for a worker that does not exist. -/
def unknownMember {α : Type} : Except Error α := .error (.state "no such worker")

/-- Whether the receiver of a worker waits for a topic. -/
def waitsFor (cluster : Cluster) (topic : String) (index : Nat) : Bool :=
  cluster.waiting.contains index && (cluster.member? index).any fun member => member.log.topic = topic

/-- Give all receivers that wait for a topic their turns. -/
def wake (cluster : Cluster) (topic : String) : Cluster :=
  let woken := cluster.waiting.filter (cluster.waitsFor topic)
  { cluster with
    ready := cluster.ready ++ woken.map .fetch
    waiting := cluster.waiting.filter fun index => !cluster.waitsFor topic index }

/-- Put a worker and the network in the state in which its service has left them. Receivers are woken
if something was published. -/
def update (cluster : Cluster) (index : Nat) (member : Member) (network : Network) : Cluster :=
  let topic := member.log.topic
  let updated := { cluster with network }.setMember index member
  if cluster.network.publishedCount topic = network.publishedCount topic then updated
  else updated.wake topic

/-- Let a worker wait for nothing, and take all its turns away. -/
def dismiss (cluster : Cluster) (index : Nat) : Cluster :=
  let dismissed := { cluster with
    ready := cluster.ready.filter fun turn => turn.index ≠ index
    waiting := cluster.waiting.erase index }
  dismissed.mapMember index fun member => { member with wait := .idle }

/-- Give a worker the turns in which it begins to receive. -/
def enroll (cluster : Cluster) (index : Nat) : Cluster :=
  let dismissed := cluster.dismiss index
  { dismissed with ready := dismissed.ready ++ [.fetch index, .handle index] }

def publish (cluster : Cluster) (topic : String) (payload : Payload) : Cluster :=
  { cluster with network := cluster.network.publish topic payload }.wake topic

/-- Let a worker fetch what its topic has for it. -/
def fetch (cluster : Cluster) (index : Nat) : Cluster :=
  cluster.mapMember index fun member => { member with log := member.log.fetch cluster.network }

/-- Let a worker handle a delivery. The flag tells whether its listener was called. -/
def handle (cluster : Cluster) (index : Nat) (delivery : Delivery) : Bool × Cluster :=
  match cluster.member? index with
  | none => (false, cluster)
  | some member =>
    let handled := member.service.handleDelivery LocalLog.replicated delivery
      (cluster.network, member.log)
    let (network, log) := handled.world
    let notified := member.notified + handled.called.length
    (handled.notified, cluster.update index
      { member with log, service := handled.service, notified } network)

/-- Let a worker handle the next delivery in its inbox. -/
def handleNext (cluster : Cluster) (index : Nat) : Cluster :=
  match cluster.member? index with
  | none => cluster
  | some member =>
    match member.log.subscription.bind Subscription.next? with
    | none => cluster
    | some (delivery, subscription) =>
      let log := { member.log with subscription := some subscription }
      ((cluster.setMember index { member with log }).handle index delivery).2

end Cluster

end PositionSync
