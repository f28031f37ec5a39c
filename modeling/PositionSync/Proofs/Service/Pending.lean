import Mathlib.Data.List.Induction
import PositionSync.Proofs.Histories
import PositionSync.Proofs.Service.Runs
import PositionSync.Source.Position

/-!
# What is pending

A partition is pending exactly if its last local put has not been dealt with: neither has a
synchronization swept the pending partitions since, nor has the partition been removed. Every
synchronization, that of a stop included, tells the others of the pending positions in one message.
-/

namespace PositionSync.Host

open PositionMessage

/-- Whether an operation broadcasts the pending positions. A stop does, unless it is refused. -/
def Synchronizes (host : Host) : Operation → Prop
  | .synchronize => True
  | .stop _ => host.service.lifecycle.isRunning
  | _ => False

/-- Whether an operation makes a put of a partition before it a thing of the past. -/
def Settles (host : Host) (partition : Partition) : Operation → Prop
  | .remove partitions => partition ∈ partitions
  | operation => host.Synchronizes operation

/-- Whether some operations put a partition and do not settle this put afterwards. -/
def LeavesUnsettled (host : Host) (operations : List Operation) (partition : Partition) : Prop :=
  ∃ earlier write later, operations = earlier ++ write :: later ∧
    (write.offset? partition).isSome ∧
    ∀ before operation after, later = before ++ operation :: after →
      ¬ (host.run (earlier ++ write :: before)).Settles partition operation

/-- One operation makes a partition pending by putting it, and no longer pending by settling it. -/
theorem isPending_perform_iff (host : Host) (operation : Operation) (partition : Partition) :
    (host.perform operation).isPending partition = true ↔
      (operation.offset? partition).isSome ∨
        host.isPending partition = true ∧ ¬ host.Settles partition operation := by
  cases operation with
  | put written offset =>
      change (host.service.pending.insert written).contains partition = true ↔ _
      rw [PendingSet.contains_insert, Operation.offset?]
      by_cases same : written = partition
      · simp [same]
      · simp [same, Ne.symm same, isPending, Settles, Synchronizes]
  | putMany positions =>
      refine (host.service.contains_pending_putPositions positions partition).trans ?_
      simp [Operation.offset?, isPending, Settles, Synchronizes]
  | remove partitions =>
      refine (PendingSet.contains_eraseAll host.service.pending partitions partition).trans ?_
      simp [Operation.offset?, isPending, Settles, and_comm]
  | synchronize =>
      change false = true ↔ _
      simp [Operation.offset?, Settles, Synchronizes]
  | deliver delivery =>
      obtain ⟨listeners, service, -⟩ :=
        host.service.handleDelivery_spec Recorder.replicated host.recorder delivery
      rw [perform, deliver, isPending, service]
      simp [Operation.offset?, isPending, Settles, Synchronizes]
  | load =>
      rw [perform, load]
      rcases host.service.load_cases host.files with ⟨error, failed⟩ | ⟨table, loaded⟩
      · rw [failed]
        simp [Operation.offset?, Settles, Synchronizes]
      · rw [loaded]
        simp [Operation.offset?, isPending, Settles, Synchronizes]
  | start =>
      rw [perform, start]
      rcases host.service.start_cases Recorder.replicated host.recorder host.files host.now with
        ⟨result, table, lifecycle, silent⟩ | ⟨table, tasks, subscribed, -, announced⟩
      · rw [silent]
        simp [Operation.offset?, isPending, Settles, Synchronizes]
      · rw [announced]
        simp [Operation.offset?, isPending, Settles, Synchronizes]
  | stop moment =>
      rw [perform, stop]
      rcases host.service.stop_cases Recorder.replicated host.recorder moment host.files with
        ⟨error, notRunning, refused⟩ | ⟨tasks, result, written, running, -, stopped⟩
      · rw [refused]
        simp [Operation.offset?, isPending, Settles, Synchronizes, notRunning]
      · rw [stopped]
        simp [Operation.offset?, isPending, Settles, Synchronizes, running, Lifecycle.isRunning]
  | persist | changeFiles | refuse =>
      simp [perform, Host.persist, Host.persistListed, Host.refuse, Operation.offset?, isPending, Settles,
        Synchronizes]

theorem leavesUnsettled_iff_lasts {host : Host} {operations : List Operation}
    {partition : Partition} :
    host.LeavesUnsettled operations partition ↔
      Lasts (fun _ write => (write.offset? partition).isSome)
        (fun earlier operation => (host.run earlier).Settles partition operation) operations :=
  .rfl

theorem leavesUnsettled_concat (host : Host) (operations : List Operation)
    (operation : Operation) (partition : Partition) :
    host.LeavesUnsettled (operations ++ [operation]) partition ↔
      (operation.offset? partition).isSome ∨
        host.LeavesUnsettled operations partition ∧
          ¬ (host.run operations).Settles partition operation := by
  rw [leavesUnsettled_iff_lasts, leavesUnsettled_iff_lasts, lasts_concat]

/-- On a host without pending partitions exactly those become pending whose last put is not settled. -/
theorem isPending_run_iff {host : Host}
    (fresh : ∀ partition, host.isPending partition = false) (operations : List Operation)
    (partition : Partition) :
    (host.run operations).isPending partition = true ↔
      host.LeavesUnsettled operations partition := by
  -- Both sides are told by the last operation and by what held before it.
  induction operations using List.reverseRecOn with
  | nil =>
      have noPut : ¬ host.LeavesUnsettled [] partition :=
        mt leavesUnsettled_iff_lasts.1 not_lasts_nil
      simp [run, fresh, noPut]
  | append_singleton operations operation ih =>
      rw [run_concat, isPending_perform_iff, leavesUnsettled_concat, ih]

/-- A synchronization sends one message with the pending positions, and nothing is pending then. -/
theorem perform_of_synchronizes {host : Host} {operation : Operation}
    (synchronizes : host.Synchronizes operation) :
    (host.perform operation).sent =
        host.sent ++ [⟨.positionChange, host.service.pendingPositions⟩] ∧
      (host.perform operation).table = host.table ∧
      ∀ partition, (host.perform operation).isPending partition = false := by
  cases operation with
  | synchronize => exact ⟨rfl, rfl, fun _ => rfl⟩
  | stop moment =>
      have running : host.service.lifecycle.isRunning = true := synchronizes
      rcases host.service.stop_cases Recorder.replicated host.recorder moment host.files with
        ⟨error, notRunning, -⟩ | ⟨tasks, result, written, -, -, stopped⟩
      · rw [notRunning] at running
        nomatch running
      · rw [perform, stop, stopped]
        exact ⟨rfl, rfl, fun _ => rfl⟩
  | _ => exact synchronizes.elim

/-- A removed partition is not pending until it is put again. -/
theorem isPending_run_of_removed (host : Host) {partitions : List Partition}
    {later : List Operation} {partition : Partition} (removed : partition ∈ partitions)
    (noPut : ∀ operation ∈ later, operation.offset? partition = none) :
    (host.run (.remove partitions :: later)).isPending partition = false := by
  induction later using List.reverseRecOn with
  | nil =>
      have notPending := host.isPending_perform_iff (.remove partitions) partition
      simp only [Operation.offset?, Settles, removed] at notPending
      simpa [run] using notPending
  | append_singleton later operation ih =>
      have notPending := ih fun other member => noPut other (by simp [member])
      have unwritten : operation.offset? partition = none := noPut operation (by simp)
      rw [← List.cons_append, run_concat, ← Bool.not_eq_true, isPending_perform_iff]
      simp [unwritten, notPending]

/-- Over every run of a new service, a partition is pending if and only if its last local put has been
followed by neither a synchronization nor its removal. Every synchronization sends exactly the pending
positions in one message and leaves none, whereas deliveries and files have no effect on what is
pending. -/
theorem pending_is_unsettled (store : Store) (settings : FlushSettings) (files : FileSystem)
    (operations : List Operation) :
    let created := Host.new store settings files
    let host := created.run operations
    (∀ partition,
        host.isPending partition = true ↔ created.LeavesUnsettled operations partition) ∧
      (∀ operation, host.Synchronizes operation →
        ∃ positions : PositionTable,
          (host.perform operation).sent = host.sent ++ [⟨.positionChange, positions⟩] ∧
          (∀ partition, positions.get? partition =
            if host.isPending partition then host.table.get? partition else none) ∧
          (∀ partition, (host.perform operation).isPending partition = false) ∧
          (host.perform operation).table = host.table) ∧
      (∀ earlier partitions later partition, operations = earlier ++ .remove partitions :: later →
        partition ∈ partitions → (∀ write ∈ later, write.offset? partition = none) →
        ∀ operation message, host.Synchronizes operation →
          (host.perform operation).sent = host.sent ++ [message] →
          message.positions.get? partition = none) ∧
      ∀ delivery moment, ∀ operation ∈
        [Operation.deliver delivery, .persist moment, .load, .start],
          ∀ partition, (host.perform operation).isPending partition = host.isPending partition := by
  intro created host
  refine ⟨isPending_run_iff (fun _ => rfl) operations, ?_, ?_, ?_⟩
  · intro operation synchronizes
    obtain ⟨sent, sameTable, noneLeft⟩ := perform_of_synchronizes synchronizes
    exact ⟨_, sent, host.service.get?_pendingPositions, noneLeft, sameTable⟩
  · intro earlier partitions later partition splits removed noPut operation message synchronizes sent
    have notPending : host.isPending partition = false := by
      rw [show host = (created.run earlier).run (.remove partitions :: later) by
        rw [← run_append, ← splits]]
      exact isPending_run_of_removed _ removed noPut
    have isSent := (perform_of_synchronizes synchronizes).1.symm.trans sent
    obtain rfl : ⟨.positionChange, host.service.pendingPositions⟩ = message := by
      simpa using isSent
    rw [Service.get?_pendingPositions, if_neg]
    exact Bool.eq_false_iff.1 notPending
  · intro delivery moment operation member partition
    rw [Bool.eq_iff_iff, isPending_perform_iff]
    simp only [List.mem_cons, List.not_mem_nil, or_false] at member
    rcases member with rfl | rfl | rfl | rfl <;> simp [Operation.offset?, Settles, Synchronizes]

/-- A stop behind two puts and the removal of one of them. -/
theorem pending_is_unsettled_until_stop :
    let created := Host.new .inMemory .never .empty
    let removed := filePartition (.ofText "removed")
    let kept := filePartition (.ofText "kept")
    let forget : Operation := .remove [removed]
    let later : List Operation := [.put kept (fileOffset 2), .deliver (.ok ⟨.online, .empty⟩)]
    let operations := [.start, .put removed (fileOffset 1)] ++ forget :: later
    let host := created.run operations
    let message : PositionMessage := ⟨.positionChange, .ofList [(kept, fileOffset 2)]⟩
    (host.isPending kept = true ∧ created.LeavesUnsettled operations kept) ∧
      (host.Synchronizes (.stop Timestamp.epoch) ∧
        ∃ positions : PositionTable,
          (host.perform (.stop Timestamp.epoch)).sent = host.sent ++ [⟨.positionChange, positions⟩] ∧
          positions.get? kept = host.table.get? kept) ∧
      ((∀ write ∈ later, write.offset? removed = none) ∧
        (host.perform (.stop Timestamp.epoch)).sent = host.sent ++ [message] ∧
        message.positions.get? removed = none) ∧
      (host.perform .load).isPending kept = host.isPending kept := by
  intro created removed kept forget later operations host message
  obtain ⟨exactly, swept, silent, untouched⟩ :=
    pending_is_unsettled .inMemory .never .empty operations
  have pending : host.isPending kept = true := by decide +kernel
  have synchronizes : host.Synchronizes (.stop Timestamp.epoch) := by
    change host.service.lifecycle.isRunning = true
    decide +kernel
  have noPut : ∀ write ∈ later, write.offset? removed = none := by
    simp only [later, List.mem_cons, List.not_mem_nil, or_false, forall_eq_or_imp, forall_eq]
    decide +kernel
  have sent : (host.perform (.stop Timestamp.epoch)).sent = host.sent ++ [message] := by decide +kernel
  obtain ⟨positions, told, carried, -⟩ := swept (.stop Timestamp.epoch) synchronizes
  refine ⟨⟨pending, (exactly kept).1 pending⟩, ⟨synchronizes, positions, told, ?_⟩,
    ⟨noPut, sent, ?_⟩, untouched (.ok ⟨.online, .empty⟩) Timestamp.epoch .load (by simp) kept⟩
  · rw [carried kept]
    exact if_pos pending
  · exact silent _ _ later removed rfl (by simp) noPut (.stop Timestamp.epoch) message synchronizes sent

end PositionSync.Host
