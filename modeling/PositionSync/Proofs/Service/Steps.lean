import PositionSync.Proofs.Position.Table
import PositionSync.Service.Lifecycle

/-!
# What the operations of a service do

Every operation of a service is described by the table and the pending set that it leaves behind and by
the messages that it sends. These descriptions hold over any log, so that runs of one service and runs
of whole clusters rest on the same facts.
-/

namespace PositionSync

/-- The table after a delivery: only a change is merged. -/
def PositionTable.absorb (table : PositionTable) : Delivery → PositionTable
  | .ok ⟨.positionChange, positions⟩ => (table.merge positions.toList).1
  | _ => table

/-- What a worker with a table sends when it handles a delivery: only to who came online it answers, with
its whole table. -/
def PositionTable.answer (table : PositionTable) : Delivery → List PositionMessage
  | .ok ⟨.online, _⟩ => [⟨.positionChange, table⟩]
  | _ => []

/-- Whether a worker came online with this delivery. -/
def Delivery.isOnline : Delivery → Bool
  | .ok ⟨.online, _⟩ => true
  | _ => false

/-- Whether listeners are told of a delivery: whenever somebody came online, and of a change if merging
it says that the table is different. -/
def PositionTable.isNews (table : PositionTable) : Delivery → Bool
  | .error _ => false
  | .ok ⟨.online, _⟩ => true
  | .ok ⟨.positionChange, positions⟩ => (table.merge positions.toList).2

def ReplicatedLog.sendAll {ω : Type} (log : ReplicatedLog ω) (messages : List PositionMessage)
    (world : ω) : ω :=
  messages.foldl (fun world message => log.send message world) world

namespace PositionTable

/-- What a delivery tells about a partition. -/
def told? (partition : Partition) : Delivery → Option Offset
  | .ok ⟨.positionChange, positions⟩ => positions.get? partition
  | _ => none

/-- A delivery that says nothing about a partition leaves it as it is. -/
theorem get?_absorb (table : PositionTable) (delivery : Delivery) (partition : Partition) :
    (table.absorb delivery).get? partition =
      (told? partition delivery).or (table.get? partition) := by
  rcases delivery with error | ⟨kind | kind, positions⟩
  · rfl
  · rfl
  · exact get?_merge table positions partition

/-- No delivery removes a partition. -/
theorem isSome_get?_absorb {table : PositionTable} {partition : Partition}
    (held : (table.get? partition).isSome) (delivery : Delivery) :
    ((table.absorb delivery).get? partition).isSome := by
  rw [get?_absorb]
  cases told? partition delivery with
  | none => simpa using held
  | some offset => rfl

end PositionTable

def Lifecycle.isRunning : Lifecycle → Bool
  | .running _ => true
  | _ => false

theorem Lifecycle.isRunning_iff {lifecycle : Lifecycle} :
    lifecycle.isRunning ↔ ∃ tasks, lifecycle = .running tasks := by
  constructor
  · intro running
    cases lifecycle with
    | running tasks => exact ⟨tasks, rfl⟩
    | stopped | starting | stopping => nomatch running
  · rintro ⟨tasks, running⟩
    rw [running]
    rfl

namespace Service

variable {ω : Type} (log : ReplicatedLog ω) (service : Service) (world : ω)

theorem table_putPosition (partition : Partition) (offset : Offset) :
    (service.putPosition partition offset).table = service.table.insert partition offset :=
  rfl

/-- Recording many positions is merging them. -/
theorem get?_table_putPositions (positions : PositionTable) (partition : Partition) :
    (service.putPositions positions).table.get? partition =
      (positions.get? partition).or (service.table.get? partition) :=
  SortedMap.get?_insertAll_toList service.table positions partition

theorem contains_pending_putPositions (positions : PositionTable) (partition : Partition) :
    (service.putPositions positions).pending.contains partition = true ↔
      (positions.get? partition).isSome ∨ service.pending.contains partition = true := by
  refine (PendingSet.contains_insertAll service.pending positions.keys partition).trans ?_
  rw [SortedMap.mem_keys_iff, SortedMap.contains]

theorem get?_table_removePositions (partitions : List Partition) (partition : Partition) :
    (service.removePositions partitions).table.get? partition =
      if partition ∈ partitions then none else service.table.get? partition :=
  PositionTable.get?_eraseAll service.table partitions partition

/-- A synchronization carries the position of every pending partition that has one. -/
theorem get?_pendingPositions (partition : Partition) :
    service.pendingPositions.get? partition =
      if service.pending.contains partition then service.table.get? partition else none := by
  rw [pendingPositions, PositionTable.get?_restrict]
  simp only [PendingSet.mem_toList_iff]

def withTable (service : Service) (table : PositionTable) : Service :=
  { service with store := { service.store with table } }

def absorb (service : Service) (delivery : Delivery) : Service :=
  service.withTable (service.table.absorb delivery)

/-- Every delivery is absorbed and answered, and then listeners are told of it if it is news. -/
theorem handleDelivery_eq (delivery : Delivery) :
    service.handleDelivery log delivery world =
      if service.table.isNews delivery then
        (service.absorb delivery).notify (log.sendAll (service.table.answer delivery) world)
      else
        ⟨false, [], service.absorb delivery, log.sendAll (service.table.answer delivery) world⟩ := by
  rcases delivery with error | ⟨kind | kind, positions⟩
  · rfl
  · rfl
  · rfl

/-- The service after its listeners have been told, if there was something to tell. -/
def inform (news : Bool) (service : Service) : Service :=
  if news then { service with listeners := service.listeners.notify.1 } else service

theorem service_handleDelivery (delivery : Delivery) :
    (service.handleDelivery log delivery world).service =
      (service.absorb delivery).inform (service.table.isNews delivery) := by
  rw [handleDelivery_eq, inform]
  split
  · rfl
  · rfl

theorem world_handleDelivery (delivery : Delivery) :
    (service.handleDelivery log delivery world).world =
      log.sendAll (service.table.answer delivery) world := by
  rw [handleDelivery_eq]
  split
  · rfl
  · rfl

/-- Handling a delivery changes the table and what the registry has noted, and sends the answer. -/
theorem handleDelivery_spec (delivery : Delivery) :
    ∃ listeners, (service.handleDelivery log delivery world).service =
        { service with
          store := { service.store with table := service.table.absorb delivery }
          listeners } ∧
      (service.handleDelivery log delivery world).world =
        log.sendAll (service.table.answer delivery) world := by
  refine ⟨(service.inform (service.table.isNews delivery)).listeners, ?_,
    service.world_handleDelivery log world delivery⟩
  rw [service_handleDelivery]
  cases service.table.isNews delivery with
  | false => rfl
  | true => rfl

theorem table_handleDelivery (delivery : Delivery) :
    (service.handleDelivery log delivery world).service.table = service.table.absorb delivery := by
  obtain ⟨listeners, after, -⟩ := service.handleDelivery_spec log world delivery
  rw [after]
  rfl

/-- Loading changes nothing but the table. -/
theorem load_eq (files : FileSystem) :
    service.load files = (service.store.storedTable files).map service.withTable := by
  rw [load, Store.load]
  cases service.store.storedTable files with
  | error error => rfl
  | ok table => rfl

theorem load_cases (files : FileSystem) :
    (∃ error, service.load files = .error error) ∨
      ∃ table, service.load files = .ok { service with store := { service.store with table } } := by
  rw [load_eq]
  cases service.store.storedTable files with
  | error fault => exact .inl ⟨fault, rfl⟩
  | ok table => exact .inr ⟨table, rfl⟩

/-- A start that reads the table and joins the log announces what it has read. Every other start sends
nothing, and changes at most the table. -/
theorem start_cases (files : FileSystem) (now : Instant) :
    (∃ result table lifecycle, service.start log files now world =
        (result, { service with store := { service.store with table }, lifecycle }, world)) ∨
      ∃ table tasks subscribed, log.subscribe world = .ok subscribed ∧
        service.start log files now world =
          (.ok (), { service with store := { service.store with table }, lifecycle := .running tasks },
            log.send ⟨.online, table⟩ subscribed) := by
  cases stage : service.lifecycle with
  | stopped =>
      rcases service.load_cases files with ⟨error, failed⟩ | ⟨table, loaded⟩
      · refine .inl ⟨.error error, service.table, .stopped, ?_⟩
        simp only [start, beginStart, stage, failed, Except.map]
        rw [← stage]
        rfl
      · cases joined : log.subscribe world with
        | error error =>
            refine .inl ⟨.error error, table, .stopped, ?_⟩
            simp only [start, beginStart, stage, loaded, Except.map, joinLog, joined]
        | ok subscribed =>
            refine .inr ⟨table, ⟨true, .start service.settings now⟩, subscribed, rfl, ?_⟩
            simp only [start, beginStart, stage, loaded, Except.map, joinLog, joined]
            rfl
  | starting | running | stopping =>
      refine .inl ⟨.error (.lifecycle .start service.lifecycle.name), service.table,
        service.lifecycle, ?_⟩
      simp only [start, beginStart, stage]
      rw [← stage]
      rfl

/-- A stop of a running service broadcasts the pending positions and leaves none, and it answers what
writing the table answers. Every other stop changes nothing. -/
theorem stop_cases (moment : Moment) (files : FileSystem) :
    (∃ error, service.lifecycle.isRunning = false ∧
        service.stop log moment files world = ⟨.error error, files, service, world⟩) ∨
      ∃ tasks result written, service.lifecycle = .running tasks ∧
        service.persist moment files = (written, result) ∧
        service.stop log moment files world =
          ⟨result, written, { service with pending := .empty, lifecycle := .stopped },
            log.unsubscribe (log.send ⟨.positionChange, service.pendingPositions⟩ world)⟩ := by
  cases stage : service.lifecycle with
  | running tasks =>
      refine .inr ⟨tasks, (service.persist moment files).2, (service.persist moment files).1,
        rfl, rfl, ?_⟩
      simp only [stop, beginStop, stage]
      rfl
  | stopped | starting | stopping =>
      refine .inl ⟨.lifecycle .stop service.lifecycle.name, rfl, ?_⟩
      simp only [stop, beginStop, stage]

end Service

end PositionSync
