import PositionSync.Log.Basic
import PositionSync.Message.Wire

/-!
# Logs inside one process

A network keeps the payloads of every topic in the order of their publication. A subscription is a
place in that order. Only the last payloads of a topic are kept for those who read late: who falls
further behind is told how many were lost and goes on with the oldest one kept.
-/

namespace PositionSync

abbrev Payload := List UInt8

/-- How many payloads a topic keeps for late readers, and the topics with all payloads ever published
on them, the latest first. -/
structure Network where
  capacity : Nat
  topics : SortedMap String (List Payload)
deriving DecidableEq

namespace Network

/-- How many payloads a topic keeps unless it is told otherwise. -/
def defaultCapacity : Nat := 1024

/-- A network whose topics keep at least `requested` payloads, and at least one. The number is a power
of two. -/
def withCapacity (requested : Nat) : Network := ⟨(max requested 1).nextPowerOfTwo, .empty⟩

def new : Network := withCapacity defaultCapacity

instance : Inhabited Network := ⟨new⟩

def latest (network : Network) (topic : String) : List Payload :=
  (network.topics.get? topic).getD []

/-- The payloads published on a topic, in the order of their publication. -/
def published (network : Network) (topic : String) : List Payload :=
  (network.latest topic).reverse

def publish (network : Network) (topic : String) (payload : Payload) : Network :=
  { network with topics := network.topics.insert topic (payload :: network.latest topic) }

/-- What is published on a topic comes behind what was published there before. -/
theorem published_publish (network : Network) (topic other : String) (payload : Payload) :
    (network.publish topic payload).published other =
      if other = topic then network.published topic ++ [payload] else network.published other := by
  by_cases same : other = topic
  · simp [published, latest, publish, same]
  · simp [published, latest, publish, SortedMap.get?_insert_of_ne _ _ same, same]

def publishedCount (network : Network) (topic : String) : Nat := (network.latest topic).length

end Network

/-- A place in a topic: the number of payloads that lie before it, and the deliveries that have been
fetched but not handled yet. -/
structure Subscription where
  cursor : Nat
  inbox : List Delivery

namespace Subscription

/-- How many deliveries are fetched before one of them must be taken: those of a buffer, and one more
that waits for a place in it. -/
def inboxCapacity : Nat := 256 + 1

/-- A subscription that sees only later payloads. -/
def start (network : Network) (topic : String) : Subscription :=
  ⟨network.publishedCount topic, []⟩

def lagged (topic : String) (lost : Nat) : Delivery :=
  .error (.delivery (Nat.repr lost ++ " messages skipped on topic '" ++ topic ++ "'"))

/-- What tells of the payloads between a place and the oldest payload kept. -/
def notice (topic : String) (cursor oldest : Nat) : List Delivery :=
  if cursor < oldest then [lagged topic (oldest - cursor)] else []

/-- Fetch what a topic has for a subscription, as far as the inbox takes it: if payloads were lost their
number, then those kept. What was lost counts at the time of fetching. -/
def fetch (subscription : Subscription) (network : Network) (topic : String) : Subscription :=
  let all := network.published topic
  let oldest := all.length - network.capacity
  match inboxCapacity - subscription.inbox.length with
  | 0 => subscription
  | room =>
    let lost := notice topic subscription.cursor oldest
    let first := max subscription.cursor oldest
    let fetched := (all.drop first).take (room - lost.length)
    ⟨first + fetched.length, subscription.inbox ++ lost ++ fetched.map PositionMessage.decode⟩

/-- Whether a topic has nothing more for a subscription. -/
def isUpToDate (subscription : Subscription) (network : Network) (topic : String) : Bool :=
  network.publishedCount topic ≤ subscription.cursor

def next? (subscription : Subscription) : Option (Delivery × Subscription) :=
  match subscription.inbox with
  | [] => none
  | delivery :: rest => some (delivery, { subscription with inbox := rest })

/-- Take everything out of the inbox and fetch again, until nothing more comes. Each round fetches
something, so that `fuel` need not exceed the number of payloads. -/
def drainWithin (network : Network) (topic : String) :
    Nat → Subscription → List Delivery × Subscription
  | 0, subscription => (subscription.inbox, { subscription with inbox := [] })
  | fuel + 1, subscription =>
    let emptied := { subscription with inbox := [] }
    if emptied.isUpToDate network topic then (subscription.inbox, emptied)
    else
      let (later, drained) := drainWithin network topic fuel (emptied.fetch network topic)
      (subscription.inbox ++ later, drained)

/-- Take everything that a topic has for a subscription. -/
def drain (subscription : Subscription) (network : Network) (topic : String) :
    List Delivery × Subscription :=
  drainWithin network topic (network.publishedCount topic + 1) subscription

end Subscription

structure LocalLog where
  workerId : String
  topic : String
  subscription : Option Subscription

namespace LocalLog

def join (topic workerId : String) : LocalLog := ⟨workerId, topic, none⟩

def render (log : LocalLog) : String :=
  "LocalLog \x7b worker_id: " ++ Text.quote log.workerId ++ ", topic: " ++
    Text.quote log.topic ++ " \x7d"

def subscribe (log : LocalLog) (network : Network) : LocalLog :=
  { log with subscription := some (.start network log.topic) }

def unsubscribe (log : LocalLog) : LocalLog := { log with subscription := none }

def send (log : LocalLog) (message : PositionMessage) (network : Network) : Network :=
  network.publish log.topic message.encode

def fetch (log : LocalLog) (network : Network) : LocalLog :=
  { log with
    subscription := log.subscription.map fun subscription =>
      subscription.fetch network log.topic }

def replicated : ReplicatedLog (Network × LocalLog) where
  subscribe state := .ok (state.1, state.2.subscribe state.1)
  send message state := (state.2.send message state.1, state.2)
  unsubscribe state := (state.1, state.2.unsubscribe)

end LocalLog

end PositionSync
