import PositionSync.Proofs.Service.Pending

/-!
# Pending partitions that a reload drops

A put stores a position and makes its partition pending, and a removal takes back both. But a load, that
of a start included, replaces the whole table by the stored one and leaves the pending partitions alone,
so that a pending partition may have no position any more. A synchronization broadcasts the pending
partitions that have one, and answers their number.
-/

namespace PositionSync.Host

open PositionTable

/-- The table that an operation reads in the place of the present one. -/
def reloaded? (host : Host) : Operation → Option PositionTable
  | .load => (host.service.store.storedTable host.files).toOption
  | .start =>
    if host.service.lifecycle = .stopped then
      (host.service.store.storedTable host.files).toOption
    else none
  | _ => none

/-- What an operation makes of the position of a partition, if it does anything about it. -/
def revised? (host : Host) (partition : Partition) : Operation → Option (Option Offset)
  | .put written offset => if written = partition then some (some offset) else none
  | .putMany positions => (positions.get? partition).map some
  | .remove partitions => if partition ∈ partitions then some none else none
  | .deliver delivery => (told? partition delivery).map some
  | .load => (host.reloaded? .load).map (·.get? partition)
  | .start => (host.reloaded? .start).map (·.get? partition)
  | _ => none

/-- Whether an operation reads a table without the partition. -/
def Drops (host : Host) (partition : Partition) (operation : Operation) : Prop :=
  ∃ table, host.reloaded? operation = some table ∧ table.get? partition = none

/-- Whether an operation stores a position of the partition. -/
def Restores (host : Host) (partition : Partition) (operation : Operation) : Prop :=
  ∃ offset, host.revised? partition operation = some (some offset)

/-- Whether some operation has dropped a partition and no later one has restored it. -/
def HasDropped (host : Host) (operations : List Operation) (partition : Partition) : Prop :=
  Lasts (fun earlier operation => (host.run earlier).Drops partition operation)
    (fun earlier operation => (host.run earlier).Restores partition operation) operations

variable (host : Host)

theorem table_load : host.load.2.table = (host.reloaded? .load).getD host.table := by
  rw [load, Service.load_eq, reloaded?]
  cases host.service.store.storedTable host.files with
  | error error => rfl
  | ok table => rfl

/-- A start that reads the table keeps it, also when the log refuses it then. -/
theorem table_start : host.start.2.table = (host.reloaded? .start).getD host.table := by
  cases stage : host.service.lifecycle with
  | starting | running | stopping =>
      simp [start, Service.start, Service.beginStart, stage, reloaded?, table]
  | stopped =>
      cases read : host.service.store.storedTable host.files with
      | error error =>
          simp [start, Service.start, Service.beginStart, stage, Service.load, Store.load, read,
            Except.map, reloaded?, table, Except.toOption]
      | ok table =>
          cases joined : Recorder.replicated.subscribe host.recorder with
          | error error =>
              simp [start, Service.start, Service.beginStart, stage, Service.load, Store.load, read,
                Except.map, Service.joinLog, joined, reloaded?, Host.table, Service.table,
                Except.toOption]
          | ok subscribed =>
              simp [start, Service.start, Service.beginStart, stage, Service.load, Store.load, read,
                Except.map, Service.joinLog, joined, Service.finishStart, reloaded?, Host.table,
                Service.table, Except.toOption]

/-- The position of a partition is what an operation makes of it, and else what it was. -/
theorem get?_table_perform (operation : Operation) (partition : Partition) :
    (host.perform operation).table.get? partition =
      (host.revised? partition operation).getD (host.table.get? partition) := by
  cases operation with
  | put written offset =>
      change (host.service.putPosition written offset).table.get? partition = _
      rw [Service.table_putPosition, revised?]
      by_cases same : written = partition
      · rw [if_pos same, same, SortedMap.get?_insert_self]
        rfl
      · rw [if_neg same, SortedMap.get?_insert_of_ne _ _ (Ne.symm same)]
        rfl
  | putMany positions =>
      refine (host.service.get?_table_putPositions positions partition).trans ?_
      rw [revised?]
      cases positions.get? partition with
      | none => rfl
      | some offset => rfl
  | remove partitions =>
      refine (host.service.get?_table_removePositions partitions partition).trans ?_
      rw [revised?]
      split
      · rfl
      · rfl
  | synchronize | persist | changeFiles | refuse => rfl
  | deliver delivery =>
      have absorbed := host.service.table_handleDelivery Recorder.replicated host.recorder delivery
      rw [perform, deliver, table, absorbed, get?_absorb, revised?]
      cases told? partition delivery with
      | none => rfl
      | some offset => rfl
  | load =>
      rw [perform, table_load, revised?]
      cases host.reloaded? .load with
      | none => rfl
      | some table => rfl
  | start =>
      rw [perform, table_start, revised?]
      cases host.reloaded? .start with
      | none => rfl
      | some table => rfl
  | stop moment =>
      rcases host.service.stop_cases Recorder.replicated host.recorder moment host.files with
        ⟨error, -, refused⟩ | ⟨tasks, result, written, -, -, stopped⟩
      · rw [perform, stop, refused]
        rfl
      · rw [perform, stop, stopped]
        rfl

variable {host : Host} {operation : Operation} {partition : Partition}

theorem restores_of_offset (records : (operation.offset? partition).isSome) :
    host.Restores partition operation := by
  obtain ⟨offset, recorded⟩ := Option.isSome_iff_exists.1 records
  refine ⟨offset, ?_⟩
  cases operation with
  | put written other =>
      rw [Operation.offset?] at recorded
      split at recorded
      · next same => rw [revised?, if_pos same, Option.some.inj recorded]
      · cases recorded
  | putMany positions =>
      have told : positions.get? partition = some offset := recorded
      rw [revised?, told]
      rfl
  | _ => cases recorded

/-- Unless it removes the partition, an operation makes away with its position only by dropping it. -/
theorem revised?_eq_some_none_iff
    (kept : ∀ partitions, operation = .remove partitions → partition ∉ partitions) :
    host.revised? partition operation = some none ↔ host.Drops partition operation := by
  cases operation with
  | remove partitions => simp [revised?, Drops, reloaded?, kept partitions rfl]
  | load | start => exact Option.map_eq_some_iff
  | _ => simp [revised?, Drops, reloaded?]

theorem lacks_perform_iff
    (kept : ∀ partitions, operation = .remove partitions → partition ∉ partitions) :
    (host.perform operation).table.get? partition = none ↔
      host.Drops partition operation ∨
        host.table.get? partition = none ∧ ¬ host.Restores partition operation := by
  rw [get?_table_perform, ← revised?_eq_some_none_iff kept, Restores]
  cases host.revised? partition operation with
  | none => simp
  | some position =>
      cases position with
      | none => simp
      | some offset => simp

/-- On a host without pending partitions, a partition that has become pending has a position unless it was
dropped since. -/
theorem lacks_run_iff (fresh : ∀ partition, host.isPending partition = false)
    (operations : List Operation)
    (pending : (host.run operations).isPending partition = true) :
    (host.run operations).table.get? partition = none ↔ host.HasDropped operations partition := by
  induction operations using List.reverseRecOn with
  | nil =>
      rw [run, List.foldl_nil, fresh] at pending
      cases pending
  | append_singleton operations operation ih =>
      rw [run_concat, isPending_perform_iff] at pending
      rw [run_concat, HasDropped, lasts_concat]
      rcases pending with records | ⟨waited, unsettled⟩
      · -- A put stores a position, whatever was there before.
        have kept : ∀ partitions, operation = .remove partitions → partition ∉ partitions := by
          rintro partitions rfl
          simp [Operation.offset?] at records
        rw [lacks_perform_iff kept]
        simp only [restores_of_offset records, not_true_eq_false, and_false]
      · have kept : ∀ partitions, operation = .remove partitions → partition ∉ partitions := by
          rintro partitions rfl
          exact unsettled
        rw [lacks_perform_iff kept, ih waited]
        rfl

theorem synchronize_fst : host.synchronize.1 =
    (host.service.pending.toList.filter fun partition =>
      (host.table.get? partition).isSome).length :=
  PositionTable.size_restrict host.table host.service.pending.nodup_toList

/-- A synchronization leaves no pending partition out if and only if all of them have a position. -/
theorem synchronize_fst_eq_iff : host.synchronize.1 = host.service.pendingCount ↔
    ∀ partition, host.isPending partition = true → host.table.get? partition ≠ none := by
  rw [synchronize_fst, Service.pendingCount, ← PendingSet.length_toList, List.length_filter_eq_length_iff]
  simp only [PendingSet.mem_toList_iff, isPending, Option.isSome_iff_ne_none]

/-- Over every run of a new service, a pending partition has a position unless a load, that of a start
included, has dropped it and nothing has stored one since. A synchronization answers the number of the
pending partitions that have a position, and its message carries these positions and no others. So it
answers the number of all pending partitions if and only if none of them has been dropped. -/
theorem pending_is_sent_unless_dropped (store : Store) (settings : FlushSettings)
    (files : FileSystem) (operations : List Operation) :
    let created := Host.new store settings files
    let host := created.run operations
    (∀ partition, host.isPending partition = true →
        (host.table.get? partition = none ↔ created.HasDropped operations partition)) ∧
      (∃ positions : PositionTable,
        host.synchronize.2.sent = host.sent ++ [⟨.positionChange, positions⟩] ∧
          host.synchronize.1 = positions.size ∧
          ∀ partition, positions.get? partition =
            if host.isPending partition then host.table.get? partition else none) ∧
      host.synchronize.1 = (host.service.pending.toList.filter fun partition =>
        (host.table.get? partition).isSome).length ∧
      (host.synchronize.1 = host.service.pendingCount ↔
        ∀ partition, host.isPending partition = true →
          ¬ created.HasDropped operations partition) := by
  intro created host
  have lacks : ∀ partition, host.isPending partition = true →
      (host.table.get? partition = none ↔ created.HasDropped operations partition) :=
    fun partition => lacks_run_iff (fun _ => rfl) operations
  refine ⟨lacks, ⟨_, rfl, rfl, host.service.get?_pendingPositions⟩, synchronize_fst, ?_⟩
  rw [synchronize_fst_eq_iff]
  exact forall_congr' fun partition => forall_congr' fun pending =>
    not_congr (lacks partition pending)

/-- A put in front of a load of a service without a file, and one behind it. -/
theorem pending_is_sent_unless_dropped_of_load :
    let dropped := filePartition (.ofText "dropped")
    let kept := filePartition (.ofText "kept")
    let operations : List Operation :=
      [.put dropped (fileOffset 1), .load, .put kept (fileOffset 2)]
    let created := Host.new .inMemory .never .empty
    let host := created.run operations
    (host.isPending dropped = true ∧ created.HasDropped operations dropped) ∧
      (host.isPending kept = true ∧ ¬ created.HasDropped operations kept) ∧
      host.synchronize.1 = 1 ∧ host.synchronize.1 ≠ host.service.pendingCount := by
  intro dropped kept operations created host
  obtain ⟨lacks, -, number, all⟩ :=
    pending_is_sent_unless_dropped .inMemory .never .empty operations
  have droppedPending : host.isPending dropped = true := by decide +kernel
  have keptPending : host.isPending kept = true := by decide +kernel
  have isDropped : created.HasDropped operations dropped :=
    (lacks dropped droppedPending).1 (by decide +kernel)
  refine ⟨⟨droppedPending, isDropped⟩, ⟨keptPending, ?_⟩, number.trans (by decide +kernel), ?_⟩
  · exact mt (lacks kept keptPending).2 (by decide +kernel)
  · exact fun same => all.1 same dropped droppedPending isDropped

/-- A put is pending, but a load takes its position away before a synchronization sends it. -/
theorem load_drops_pending :
    let partition := filePartition (.ofText "log")
    let host := (Host.new .inMemory .never .empty).run [.put partition (fileOffset 1), .load]
    host.isPending partition = true ∧ host.table.get? partition = none ∧
      host.service.pendingCount = 1 ∧ host.synchronize.1 = 0 ∧
      host.synchronize.2.sent = [⟨.positionChange, .empty⟩] := by
  decide +kernel

end PositionSync.Host
