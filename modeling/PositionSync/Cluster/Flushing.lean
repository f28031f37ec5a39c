import PositionSync.Cluster.Calls

/-!
# Time in a cluster

Time passes only when the cluster has settled. It goes from one instant at which some worker flushes
by itself to the next one.
-/

namespace PositionSync.Cluster

/-- Let a worker flush what is due now. -/
def flushDue (moment : Moment) (cluster : Cluster) (index : Nat) : Cluster :=
  match cluster.member? index with
  | none => cluster
  | some member =>
    let (files, service, network, log) := member.service.flushDue LocalLog.replicated moment
      cluster.now cluster.files (cluster.network, member.log)
    { cluster with files }.update index { member with service, log } network

/-- The next instant at which a worker flushes by itself. -/
def nextFlush? (cluster : Cluster) : Option Instant :=
  (cluster.members.filterMap fun member => member.service.nextFlush? cluster.now).min?

/-- Let all workers flush what is due at an instant, and then settle. The one that has received for the
longest time flushes first. -/
def flushAt (cluster : Cluster) (moment : Moment) (instant : Instant) : Cluster :=
  let current := { cluster with now := instant }
  (current.waiting.foldl (flushDue moment) current).settle

/-- Let time pass up to an instant. Each step takes some time, so that `fuel` need not exceed the
span. -/
def advanceWithin (moment : Moment) (target : Instant) : Nat → Cluster → Cluster
  | 0, cluster => { cluster with now := target }
  | fuel + 1, cluster =>
    match cluster.nextFlush? with
    | none => { cluster with now := target }
    | some instant =>
      if target < instant then { cluster with now := target }
      else advanceWithin moment target fuel (cluster.flushAt moment instant)

def advance (cluster : Cluster) (moment : Moment) (span : Duration) : Cluster :=
  let waited := span.waited.nanoseconds
  advanceWithin moment (cluster.now + waited) (waited + 1) cluster.settle

end PositionSync.Cluster
