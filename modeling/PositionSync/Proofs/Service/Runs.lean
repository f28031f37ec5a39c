import PositionSync.Proofs.Service.Steps
import PositionSync.Service.Host

/-!
# Runs of a host

A run is any sequence of calls, deliveries and changes of the surroundings. The surroundings may change
in any way: another program may replace the files, and the log may begin to refuse subscriptions.
-/

namespace PositionSync

inductive Operation where
  | put (partition : Partition) (offset : Offset)
  | putMany (positions : PositionTable)
  | remove (partitions : List Partition)
  | synchronize
  | deliver (delivery : Delivery)
  | persist (moment : Moment)
  | load
  | start
  | stop (moment : Moment)
  | changeFiles (files : FileSystem)
  /-- The log begins or ceases to refuse subscriptions. -/
  | refuse (refusal : Option String)

/-- The offset that an operation records for a partition. -/
def Operation.offset? : Operation → Partition → Option Offset
  | .put written offset, partition => if written = partition then some offset else none
  | .putMany positions, partition => positions.get? partition
  | _, _ => none

/-- The offset that the last of some operations to record one records for a partition. -/
def Operation.lastOffset? (operations : List Operation) (partition : Partition) : Option Offset :=
  operations.foldl (fun found operation => (operation.offset? partition).or found) none

/-- Whether an operation only records positions or broadcasts the pending ones. -/
def Operation.isLocal : Operation → Bool
  | .put _ _ | .putMany _ | .synchronize => true
  | _ => false

theorem Operation.lastOffset?_concat (operations : List Operation) (operation : Operation)
    (partition : Partition) :
    lastOffset? (operations ++ [operation]) partition =
      (operation.offset? partition).or (lastOffset? operations partition) := by
  rw [lastOffset?, List.foldl_append]
  rfl

namespace Host

def mapService (host : Host) (change : Service → Service) : Host :=
  { host with service := change host.service }

def perform (host : Host) : Operation → Host
  | .put partition offset => host.mapService (·.putPosition partition offset)
  | .putMany positions => host.mapService (·.putPositions positions)
  | .remove partitions => host.mapService (·.removePositions partitions)
  | .synchronize => host.synchronize.2
  | .deliver delivery => (host.deliver delivery).2
  | .persist moment => (host.persist moment).2
  | .load => host.load.2
  | .start => host.start.2
  | .stop moment => (host.stop moment).2
  | .changeFiles files => { host with files }
  | .refuse refusal => host.refuse refusal

def run (operations : List Operation) (host : Host) : Host := operations.foldl perform host

theorem run_append (earlier later : List Operation) (host : Host) :
    host.run (earlier ++ later) = (host.run earlier).run later :=
  List.foldl_append

theorem run_concat (operations : List Operation) (operation : Operation) (host : Host) :
    host.run (operations ++ [operation]) = (host.run operations).perform operation :=
  run_append operations [operation] host

def table (host : Host) : PositionTable := host.service.table

def isPending (host : Host) (partition : Partition) : Bool :=
  host.service.pending.contains partition

def sent (host : Host) : List PositionMessage := host.recorder.sent

/-- What one operation does to the table, the pending partitions and the messages sent, when it records
some offsets. -/
inductive Effect (offset? : Partition → Option Offset) (before after : Host) : Prop where
  | recorded
      (entries : ∀ partition, after.table.get? partition =
        (offset? partition).or (before.table.get? partition))
      (waiting : ∀ partition, after.isPending partition = true ↔
        (offset? partition).isSome ∨ before.isPending partition = true)
      (nothingSent : after.sent = before.sent)
  | forgotten (noWrite : ∀ partition, offset? partition = none) (partitions : List Partition)
      (entries : ∀ partition, after.table.get? partition =
        if partition ∈ partitions then none else before.table.get? partition)
      (waiting : ∀ partition, after.isPending partition = true ↔
        partition ∉ partitions ∧ before.isPending partition = true)
      (nothingSent : after.sent = before.sent)
  /-- The pending positions are broadcast, and none is left. -/
  | swept (noWrite : ∀ partition, offset? partition = none)
      (entries : after.table = before.table)
      (waiting : ∀ partition, after.isPending partition = false)
      (positions : PositionTable)
      (carried : ∀ partition, positions.get? partition =
        if before.isPending partition then before.table.get? partition else none)
      (broadcast : after.sent = before.sent ++ [⟨.positionChange, positions⟩])
  /-- The table may have become another one, and it may be sent as it is now. -/
  | replaced (noWrite : ∀ partition, offset? partition = none)
      (waiting : ∀ partition, after.isPending partition = before.isPending partition)
      (broadcast : after.sent = before.sent ∨
        ∃ kind, after.sent = before.sent ++ [⟨kind, after.table⟩])

/-- Subscribing sends nothing. -/
private theorem sent_of_subscribe {recorder subscribed : Recorder}
    (joined : Recorder.replicated.subscribe recorder = .ok subscribed) :
    subscribed.sent = recorder.sent := by
  simp only [Recorder.replicated] at joined
  split at joined
  · nomatch joined
  · injection joined with same
    rw [← same]

private theorem effect_put (host : Host) (written : Partition) (offset : Offset) :
    Effect (Operation.put written offset).offset? host (host.perform (.put written offset)) := by
  refine .recorded (fun partition => ?_) (fun partition => ?_) rfl
  · change ((host.service.putPosition written offset).table).get? partition = _
    rw [Service.table_putPosition, Operation.offset?]
    by_cases same : written = partition
    · rw [if_pos same, same, SortedMap.get?_insert_self, Option.some_or]
    · rw [if_neg same, SortedMap.get?_insert_of_ne _ _ (Ne.symm same), Option.none_or]
      rfl
  · change (host.service.pending.insert written).contains partition = true ↔ _
    rw [PendingSet.contains_insert, Operation.offset?]
    by_cases same : written = partition
    · simp [same]
    · simp [same, Ne.symm same, isPending]

private theorem effect_start (host : Host) : Effect (fun _ => none) host host.start.2 := by
  rcases host.service.start_cases Recorder.replicated host.recorder host.files host.now with
    ⟨result, table, lifecycle, silent⟩ | ⟨table, tasks, subscribed, joined, announced⟩
  · refine .replaced (fun _ => rfl) (fun partition => ?_) (.inl ?_)
    · rw [start, silent]
      rfl
    · rw [start, silent]
      rfl
  · have sameSent : subscribed.sent = host.recorder.sent :=
      sent_of_subscribe joined
    refine .replaced (fun _ => rfl) (fun partition => ?_) (.inr ⟨.online, ?_⟩)
    · rw [start, announced]
      rfl
    · rw [start, announced, sent, sent, ← sameSent]
      rfl

private theorem effect_stop (host : Host) (moment : Moment) :
    Effect (fun _ => none) host (host.stop moment).2 := by
  rcases host.service.stop_cases Recorder.replicated host.recorder moment host.files with
    ⟨error, -, refused⟩ | ⟨tasks, result, written, running, -, stopped⟩
  · refine .replaced (fun _ => rfl) (fun partition => ?_) (.inl ?_)
    · rw [stop, refused]
    · rw [stop, refused]
  · refine .swept (fun _ => rfl) ?_ (fun partition => ?_) host.service.pendingPositions
      host.service.get?_pendingPositions ?_
    · rw [stop, stopped]
      rfl
    · rw [stop, stopped]
      rfl
    · rw [stop, stopped]
      rfl

private theorem effect_deliver (host : Host) (delivery : Delivery) :
    Effect (fun _ => none) host (host.deliver delivery).2 := by
  obtain ⟨listeners, service, world⟩ :=
    host.service.handleDelivery_spec Recorder.replicated host.recorder delivery
  refine .replaced (fun _ => rfl) (fun partition => ?_) ?_
  · rw [deliver, isPending, service]
    rfl
  · rw [deliver, sent, sent, table, service, world]
    rcases delivery with error | ⟨kind | kind, positions⟩
    · exact .inl rfl
    · exact .inr ⟨.positionChange, rfl⟩
    · exact .inl rfl

/-- Every operation has one of the effects, with the offsets that it records. -/
theorem effect_perform (host : Host) (operation : Operation) :
    Effect operation.offset? host (host.perform operation) := by
  cases operation with
  | put written offset => exact effect_put host written offset
  | putMany positions =>
      refine .recorded (fun partition => ?_) (fun partition => ?_) rfl
      · exact host.service.get?_table_putPositions positions partition
      · exact host.service.contains_pending_putPositions positions partition
  | remove partitions =>
      refine .forgotten (fun _ => rfl) partitions (fun partition => ?_) (fun partition => ?_) rfl
      · exact host.service.get?_table_removePositions partitions partition
      · exact PendingSet.contains_eraseAll host.service.pending partitions partition
  | synchronize =>
      exact .swept (fun _ => rfl) rfl (fun partition => rfl) host.service.pendingPositions
        host.service.get?_pendingPositions rfl
  | deliver delivery => exact effect_deliver host delivery
  | persist moment => exact .replaced (fun _ => rfl) (fun partition => rfl) (.inl rfl)
  | load =>
      rw [perform, load]
      rcases host.service.load_cases host.files with ⟨error, failed⟩ | ⟨table, loaded⟩
      · rw [failed]
        exact .replaced (fun _ => rfl) (fun partition => rfl) (.inl rfl)
      · rw [loaded]
        exact .replaced (fun _ => rfl) (fun partition => rfl) (.inl rfl)
  | start => exact effect_start host
  | stop moment => exact effect_stop host moment
  | changeFiles files => exact .replaced (fun _ => rfl) (fun partition => rfl) (.inl rfl)
  | refuse refusal => exact .replaced (fun _ => rfl) (fun partition => rfl) (.inl rfl)

end Host

end PositionSync
