import PositionSync.Cluster.Basic

/-!
# Runs of a cluster

The workers of a cluster act in any order. An action is the least that one worker does before another
one may act: starting and stopping are taken apart into their phases, fetching a payload from the topic
is an action apart from handling it, and what a worker does is built from the operations of its service
and of its handle. An action that a worker cannot take at its stage changes nothing.
-/

namespace PositionSync

inductive Action where
  | put (partition : Partition) (offset : Offset)
  | putMany (positions : PositionTable)
  | remove (partitions : List Partition)
  | synchronize
  | persist (moment : Moment)
  | load
  | beginStart
  | joinLog
  | finishStart
  /-- Broadcast the pending positions, to stop. -/
  | beginStop
  | endTasks
  | finishStop
  | fetch
  | handle
  | changeFiles (files : FileSystem)

/-- The actions that may find nothing to do. -/
def Action.mayRest : Action → Bool
  | .put _ _ | .putMany _ | .remove _ | .synchronize => false
  | _ => true

/-- Whether an action takes payloads from the topic. -/
def Action.fetches : Action → Bool
  | .fetch => true
  | _ => false

/-- Whether an action may make a worker forget positions. -/
def Action.forgets : Action → Bool
  | .remove _ | .load => true
  | _ => false

namespace Cluster

/-- Let a worker do something that it has the network for. -/
def withLog (cluster : Cluster) (index : Nat) (member : Member)
    (result : Service × Network × LocalLog) : Cluster :=
  cluster.update index { member with service := result.1, log := result.2.2 } result.2.1

/-- What a cluster is after a worker has acted. -/
def actMember (cluster : Cluster) (index : Nat) (member : Member) : Action → Cluster
  | .put partition offset =>
    cluster.setMember index { member with service := member.service.putPosition partition offset }
  | .putMany positions =>
    cluster.setMember index { member with service := member.service.putPositions positions }
  | .remove partitions =>
    cluster.setMember index { member with service := member.service.removePositions partitions }
  | .synchronize =>
    cluster.withLog index member
      (member.service.synchronize LocalLog.replicated (cluster.network, member.log)).2
  | .persist moment =>
    { cluster with files := (member.service.persist moment cluster.files).1 }
  | .load =>
    match member.service.load cluster.files with
    | .ok service => cluster.setMember index { member with service }
    | .error _ => cluster
  | .beginStart =>
    match member.service.beginStart cluster.files with
    | .ok service => cluster.setMember index { member with service }
    | .error _ => cluster
  | .joinLog =>
    if member.service.lifecycle = .starting none then
      cluster.withLog index member
        (member.service.joinLog LocalLog.replicated cluster.now (cluster.network, member.log)).2
    else cluster
  | .finishStart =>
    match member.service.lifecycle with
    | .starting (some _) =>
      cluster.withLog index member
        (member.service.finishStart LocalLog.replicated (cluster.network, member.log))
    | _ => cluster
  | .beginStop =>
    match member.service.beginStop LocalLog.replicated (cluster.network, member.log) with
    | .ok result => cluster.withLog index member result
    | .error _ => cluster
  | .endTasks =>
    match member.service.lifecycle with
    | .stopping (some _) =>
      cluster.setMember index { member with service := member.service.endTasks }
    | _ => cluster
  | .finishStop =>
    if member.service.lifecycle = .stopping none then
      cluster.withLog index member
        (member.service.finishStop LocalLog.replicated (cluster.network, member.log))
    else cluster
  | .fetch => cluster.fetch index
  | .handle => if member.service.isConsuming then cluster.handleNext index else cluster
  | .changeFiles files => { cluster with files }

def act (cluster : Cluster) (index : Nat) (action : Action) : Cluster :=
  match cluster.member? index with
  | some member => cluster.actMember index member action
  | none => cluster

def run (cluster : Cluster) (moves : List (Nat × Action)) : Cluster :=
  moves.foldl (fun cluster move => cluster.act move.1 move.2) cluster

theorem run_append (cluster : Cluster) (earlier later : List (Nat × Action)) :
    cluster.run (earlier ++ later) = (cluster.run earlier).run later :=
  List.foldl_append

/-- Whether the topic of a worker still has every payload that the worker has not fetched. -/
def hasKept (cluster : Cluster) (index : Nat) : Bool :=
  (cluster.member? index).all fun member => member.log.subscription.all fun subscription =>
    cluster.network.publishedCount member.log.topic ≤
      subscription.cursor + cluster.network.capacity

/-- Whether no worker ever lags so far behind its topic that payloads are lost to it. -/
def isLagFree (cluster : Cluster) : List (Nat × Action) → Bool
  | [] => true
  | (index, action) :: later =>
    (!action.fetches || cluster.hasKept index) && (cluster.act index action).isLagFree later

theorem isLagFree_append (cluster : Cluster) (earlier later : List (Nat × Action)) :
    cluster.isLagFree (earlier ++ later) =
      (cluster.isLagFree earlier && (cluster.run earlier).isLagFree later) := by
  induction earlier generalizing cluster with
  | nil => rfl
  | cons move rest ih =>
      rw [List.cons_append, isLagFree, isLagFree, ih, Bool.and_assoc]
      rfl

/-- The moves with which a worker starts. -/
def startMoves (index : Nat) : List (Nat × Action) :=
  [(index, .beginStart), (index, .joinLog), (index, .finishStart)]

/-- Stopped workers with some stores on one topic. -/
def sample (files : FileSystem) (stores : List Store) : Cluster :=
  .new .new files (stores.map fun store => .new "positions" "worker" store .never)

end Cluster

end PositionSync
