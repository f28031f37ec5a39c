import PositionSync.Cluster.Settling

/-!
# Calling the workers of a cluster

A call goes ahead of all turns to come unless it takes a while: a call that reads or writes a file
lets the others settle meanwhile. The worker's own table is in use until such a call is over. Its
handler gets the table next, so that a further call lets the cluster settle first.
-/

namespace PositionSync.Cluster

/-- Whether the handler of a worker has been granted the table in a way that excludes a use. -/
def isGranted (cluster : Cluster) (index : Nat) (use : TableUse) : Bool :=
  cluster.waitOf index = .granted &&
    (cluster.nextUse? index).any fun granted => !granted.allows use

/-- Begin to use the table of a worker, after the handler to which it has been granted. -/
def acquire (cluster : Cluster) (index : Nat) (use : TableUse) : Cluster :=
  let claimed := { cluster with inUse := some (index, use) }
  if cluster.isGranted index use then claimed.settle else claimed

/-- End the use of the table of a worker. Its handler gets the table if it waits for it. -/
def release (cluster : Cluster) (index : Nat) : Cluster :=
  let free := { cluster with inUse := none }
  match free.waitOf index with
  | .queued =>
    let granted := free.setWait index .granted
    { granted with ready := granted.ready ++ [.handle index] }
  | _ => free

/-- Change a service that is free to use its table. -/
def useTable (cluster : Cluster) (index : Nat) (change : Service → Service) : Cluster :=
  ((cluster.acquire index .writing).mapService index change).release index

def position? (cluster : Cluster) (index : Nat) (partition : Partition) :
    Option Offset × Cluster :=
  let held := cluster.acquire index .reading
  ((held.member? index).bind fun member => member.service.position? partition,
    held.release index)

def putPosition (cluster : Cluster) (index : Nat) (partition : Partition) (offset : Offset) :
    Cluster :=
  cluster.useTable index (·.putPosition partition offset)

def putPositions (cluster : Cluster) (index : Nat) (positions : PositionTable) : Cluster :=
  if positions.isEmpty then cluster else cluster.useTable index (·.putPositions positions)

def removePositions (cluster : Cluster) (index : Nat) (partitions : List Partition) : Cluster :=
  if partitions.isEmpty then cluster else cluster.useTable index (·.removePositions partitions)

def synchronize (cluster : Cluster) (index : Nat) : Nat × Cluster :=
  let held := cluster.acquire index .reading
  match held.member? index with
  | none => (0, cluster)
  | some member =>
    let (count, service, network, log) :=
      member.service.synchronize LocalLog.replicated (held.network, member.log)
    (count, (held.update index { member with service, log } network).release index)

/-- Hand a delivery to a worker outside of its log. -/
def deliver (cluster : Cluster) (index : Nat) (delivery : Delivery) : Bool × Cluster :=
  match delivery.tableUse? with
  | none => cluster.handle index delivery
  | some use =>
    let (notified, handled) := (cluster.acquire index use).handle index delivery
    (notified, handled.release index)

def persist (cluster : Cluster) (moment : Moment) (index : Nat) :
    Except Error Unit × Cluster :=
  let held := cluster.acquire index .writing
  match held.member? index with
  | none => (unknownMember, cluster)
  | some member =>
    if member.service.store.isInMemory then (.ok (), cluster)
    else
      let (files, result) := member.service.persist moment held.files
      (result, { held with files }.settle.release index)

/-- Let the cluster settle while the file of a worker is read, if it has one. -/
def awaitFile (cluster : Cluster) (index : Nat) : Cluster :=
  let reads := (cluster.member? index).any fun member =>
    member.service.store.hasFile cluster.files
  if reads then cluster.settle else cluster

def load (cluster : Cluster) (index : Nat) : Except Error Unit × Cluster :=
  let held := (cluster.acquire index .writing).awaitFile index
  match held.member? index with
  | none => (unknownMember, cluster)
  | some member =>
    match member.service.load held.files with
    | .ok service => (.ok (), (held.setMember index { member with service }).release index)
    | .error error => (.error error, held.release index)

/-- Start a worker. Its own turns come before those of the workers that its announcement wakes. -/
def start (cluster : Cluster) (index : Nat) : Except Error Unit × Cluster :=
  let isStopped := (cluster.member? index).any fun member =>
    member.service.lifecycle = .stopped
  let read := if isStopped then cluster.awaitFile index else cluster
  match read.member? index with
  | none => (unknownMember, cluster)
  | some member =>
    let (result, service, network, log) := member.service.start LocalLog.replicated
      read.files read.now (read.network, member.log)
    let started := { member with service, log }
    match result with
    | .ok () => (.ok (), (read.enroll index).update index started network)
    | .error error => (.error error, read.update index started network)

/-- Let a worker that is about to stop broadcast its pending positions. -/
def beginStop (cluster : Cluster) (index : Nat) : Except Error Cluster :=
  match cluster.member? index with
  | none => unknownMember
  | some member =>
    match member.service.beginStop LocalLog.replicated (cluster.network, member.log) with
    | .error error => .error error
    | .ok (service, network, log) =>
      .ok (cluster.update index { member with service, log } network)

/-- Let a worker whose table has been written end its tasks and unsubscribe. Its handler finishes the
delivery that it has been granted the table for, and begins no other that needs the table. -/
def finishStop (cluster : Cluster) (index : Nat) : Cluster :=
  let ended := { cluster with inUse := some (index, .writing) }.settle
  match ended.member? index with
  | none => cluster
  | some member =>
    let (service, network, log) := member.service.endTasks.finishStop LocalLog.replicated
      (ended.network, member.log)
    ({ ended with inUse := none }.update index { member with service, log } network).dismiss index

def stop (cluster : Cluster) (moment : Moment) (index : Nat) :
    Except Error Unit × Cluster :=
  match (cluster.acquire index .reading).beginStop index with
  | .error error => (.error error, cluster)
  | .ok begun =>
    let (result, saved) := (begun.release index).persist moment index
    (result, saved.finishStop index)

end PositionSync.Cluster
