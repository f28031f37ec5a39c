import PositionSync.Cluster.Basic

/-!
# Letting a cluster settle

The workers take their turns until none is left. Only an announcement makes its handlers send anything,
and what they send makes nobody send any more. So the number of turns is bounded by those to come and
by the announcements that are outstanding: each time one of them is handled, every worker gets at most
one more turn to fetch, and one more to handle what it has fetched.
-/

namespace PositionSync.Cluster

def subscription? (cluster : Cluster) (index : Nat) : Option Subscription :=
  (cluster.member? index).bind fun member => member.log.subscription

/-- The deliveries that have been fetched for a worker but not handled. -/
def inbox (cluster : Cluster) (index : Nat) : List Delivery :=
  match cluster.subscription? index with
  | some subscription => subscription.inbox
  | none => []

/-- Whether the topic of a worker has nothing more for it. -/
def isUpToDate (cluster : Cluster) (index : Nat) : Bool :=
  (cluster.member? index).all fun member => member.log.subscription.all fun subscription =>
    subscription.isUpToDate cluster.network member.log.topic

/-- How the handler of a worker uses the table next. -/
def nextUse? (cluster : Cluster) (index : Nat) : Option TableUse :=
  (cluster.inbox index).head?.bind Delivery.tableUse?

/-- How the handler of a worker stands to the table. -/
def waitOf (cluster : Cluster) (index : Nat) : TableWait :=
  match cluster.member? index with
  | some member => member.wait
  | none => .idle

/-- Let the handler of a worker stand to the table in some way. -/
def setWait (cluster : Cluster) (index : Nat) (wait : TableWait) : Cluster :=
  cluster.mapMember index fun member => { member with wait }

/-- Whether a call keeps the handler of a worker from its next delivery. -/
def isHeldUp (cluster : Cluster) (index : Nat) : Bool :=
  match cluster.inUse, cluster.nextUse? index with
  | some (user, current), some next => user = index && !current.allows next
  | _, _ => false

/-- Let a worker handle a number of deliveries. It stops at one for which it has to wait. -/
def handleMany : Nat → Cluster → Nat → Cluster
  | 0, cluster, _ => cluster
  | count + 1, cluster, index =>
    if cluster.isHeldUp index then cluster.setWait index .queued
    else handleMany count (cluster.handleNext index) index

/-- Let a worker handle everything in its inbox. -/
def handleAll (cluster : Cluster) (index : Nat) : Cluster :=
  handleMany (cluster.inbox index).length cluster index

/-- Let the receiver of a worker go on if it had stopped because the inbox was full. -/
def resumeFetching (cluster : Cluster) (index : Nat) : Cluster :=
  let hasRoom := (cluster.subscription? index).any fun subscription =>
    subscription.inbox.length < Subscription.inboxCapacity
  if hasRoom && !cluster.waiting.contains index && !cluster.ready.contains (.fetch index) then
    { cluster with ready := cluster.ready ++ [.fetch index] }
  else cluster

/-- Let a worker fetch, and its handler have a turn if there is anything to handle. -/
def takeFetch (cluster : Cluster) (index : Nat) : Cluster :=
  let fetched := cluster.fetch index
  let handler := Turn.handle index
  { fetched with
    waiting := if fetched.isUpToDate index then fetched.waiting ++ [index] else fetched.waiting
    ready :=
      if (fetched.inbox index).isEmpty || fetched.ready.contains handler then fetched.ready
      else fetched.ready ++ [handler] }

/-- Let a worker handle what it has fetched. What it was granted the table for comes first. -/
def takeHandle (cluster : Cluster) (index : Nat) : Cluster :=
  match cluster.waitOf index with
  | .queued => cluster
  | .granted => ((cluster.setWait index .idle).handleNext index).handleAll index
  | .idle => cluster.handleAll index

def take (cluster : Cluster) : Turn → Cluster
  | .fetch index => cluster.takeFetch index
  | .handle index => (cluster.takeHandle index).resumeFetching index

/-- The number of deliveries that a worker has not handled yet. -/
def outstandingOf (cluster : Cluster) (member : Member) : Nat :=
  match member.log.subscription with
  | some subscription =>
    subscription.inbox.length +
      (cluster.network.publishedCount member.log.topic - subscription.cursor)
  | none => 0

def outstanding (cluster : Cluster) : Nat :=
  (cluster.members.map cluster.outstandingOf).foldr (· + ·) 0

/-- Let workers take turns until none is left; `fuel` bounds their number. -/
def settleWithin : Nat → Cluster → Cluster
  | 0, cluster => cluster
  | fuel + 1, cluster =>
    match cluster.ready with
    | [] => cluster
    | turn :: later => settleWithin fuel ({ cluster with ready := later }.take turn)

/-- The most turns that can be taken until none is left. A receiver whose inbox is full gets a further
turn each time something is handled. -/
def patience (cluster : Cluster) : Nat :=
  4 * (cluster.ready.length + cluster.outstanding * (cluster.members.length + 1))

/-- Let workers take turns until none is left. -/
def settle (cluster : Cluster) : Cluster := settleWithin cluster.patience cluster

end PositionSync.Cluster
