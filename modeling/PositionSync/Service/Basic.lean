import PositionSync.Listener.Named
import PositionSync.Log.Basic
import PositionSync.Position.Pending
import PositionSync.Position.Store
import PositionSync.Service.Schedule

/-!
# The position service

A service ties a store, the set of pending partitions and a replicated log together. Local writes
change the table and make their partition pending; a synchronization broadcasts all pending positions
in one message. Delivered positions are merged into the table, and listeners are told when that
changed it.
-/

namespace PositionSync

/-- How the table of a service is used. -/
inductive TableUse where
  | reading
  | writing
deriving DecidableEq

/-- Whether a second use is possible during the first one. -/
def TableUse.allows : TableUse → TableUse → Bool
  | .reading, .reading => true
  | _, _ => false

/-- How handling a delivery uses the table, if it does. -/
def Delivery.tableUse? : Delivery → Option TableUse
  | .error _ => none
  | .ok ⟨.online, _⟩ => some .reading
  | .ok ⟨.positionChange, positions⟩ => if positions.isEmpty then none else some .writing

/-- What runs in the background of a service. -/
structure Tasks where
  /-- Whether deliveries are still handled. -/
  consuming : Bool
  schedule : Schedule
deriving DecidableEq

/-- The stages of a service's life, with what runs in the background. -/
inductive Lifecycle where
  | stopped
  | starting (tasks : Option Tasks)
  | running (tasks : Tasks)
  | stopping (tasks : Option Tasks)
deriving DecidableEq

def Lifecycle.name : Lifecycle → String
  | .stopped => "stopped"
  | .starting _ => "starting"
  | .running _ => "running"
  | .stopping _ => "stopping"

def Lifecycle.tasks? : Lifecycle → Option Tasks
  | .running tasks => some tasks
  | .starting tasks | .stopping tasks => tasks
  | .stopped => none

/-- The positions of one worker. -/
structure Service where
  store : Store
  pending : PendingSet
  listeners : Listeners
  settings : FlushSettings
  lifecycle : Lifecycle

namespace Service

def new (store : Store) (settings : FlushSettings) : Service :=
  ⟨store, .empty, .empty, settings, .stopped⟩

def table (service : Service) : PositionTable := service.store.table

def position? (service : Service) (partition : Partition) : Option Offset :=
  service.store.get? partition

def pendingCount (service : Service) : Nat := service.pending.size

def putPosition (service : Service) (partition : Partition) (offset : Offset) : Service :=
  { service with
    store := service.store.put partition offset
    pending := service.pending.insert partition }

def putPositions (service : Service) (positions : PositionTable) : Service :=
  { service with
    store := service.store.putAll positions
    pending := service.pending.insertAll positions.keys }

/-- Forget partitions, also for the next synchronization. -/
def removePositions (service : Service) (partitions : List Partition) : Service :=
  { service with
    store := service.store.removeAll partitions
    pending := service.pending.eraseAll partitions }

variable {ω : Type}

def broadcastAll (log : ReplicatedLog ω) (service : Service) (world : ω) : ω :=
  log.send ⟨.positionChange, service.table⟩ world

/-- Tell the others that this worker came online. -/
def announce (log : ReplicatedLog ω) (service : Service) (world : ω) : ω :=
  log.send ⟨.online, service.table⟩ world

/-- The pending positions, as far as the table holds them. -/
def pendingPositions (service : Service) : PositionTable :=
  service.table.restrict service.pending.toList

/-- Broadcast all pending positions in one message. Returns their number. -/
def synchronize (log : ReplicatedLog ω) (service : Service) (world : ω) : Nat × Service × ω :=
  let changed := service.pendingPositions
  (changed.size, { service with pending := service.pending.take.2 },
    log.send ⟨.positionChange, changed⟩ world)

/-- What handling a delivery leads to. -/
structure Handled (ω : Type) where
  notified : Bool
  called : List String
  service : Service
  world : ω

def notify (service : Service) (world : ω) : Handled ω :=
  let (listeners, called) := service.listeners.notify
  ⟨true, called, { service with listeners }, world⟩

/-- Handle one delivery. A worker that came online gets the whole table; a change is merged. What
could not be received is dropped. -/
def handleDelivery (log : ReplicatedLog ω) (delivery : Delivery) (service : Service)
    (world : ω) : Handled ω :=
  match delivery with
  | .error _ => ⟨false, [], service, world⟩
  | .ok ⟨.online, _⟩ => service.notify (service.broadcastAll log world)
  | .ok ⟨.positionChange, positions⟩ =>
    let (store, changed) := service.store.merge positions
    let merged := { service with store }
    if changed then merged.notify world else ⟨false, [], merged, world⟩

def persist (service : Service) (moment : Moment) (files : FileSystem) :
    FileSystem × Except Error Unit :=
  service.store.persist moment files

def load (service : Service) (files : FileSystem) : Except Error Service :=
  (service.store.load files).map fun store => { service with store }

end Service

end PositionSync
