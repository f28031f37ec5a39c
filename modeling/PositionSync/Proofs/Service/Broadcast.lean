import Mathlib.Data.List.Induction
import PositionSync.Proofs.Service.Runs
import PositionSync.Source.Position

/-!
# Local writes reach the log

The table, the pending partitions and the messages sent are changed by different operations, each on its
own. What ties them together is that the offset of a local write is never known to the table alone: as
long as nothing else changes the entry, its partition waits for the next synchronization, or the last
message that carries the partition carries this offset.
-/

namespace PositionSync

namespace PositionMessage

/-- The offset in the last of some messages that carries a partition. -/
def lastOffset? (messages : List PositionMessage) (partition : Partition) : Option Offset :=
  messages.foldl (fun found message => (message.positions.get? partition).or found) none

/-- The table of a worker that has merged messages one after the other. -/
def replay (messages : List PositionMessage) : PositionTable :=
  messages.foldl (fun table message => (table.merge message.positions.toList).1) .empty

theorem lastOffset?_concat (messages : List PositionMessage) (message : PositionMessage)
    (partition : Partition) :
    lastOffset? (messages ++ [message]) partition =
      (message.positions.get? partition).or (lastOffset? messages partition) := by
  rw [lastOffset?, List.foldl_append]
  rfl

/-- Replaying messages gives every partition the offset in the last one that carries it. -/
theorem get?_replay (messages : List PositionMessage) (partition : Partition) :
    (replay messages).get? partition = lastOffset? messages partition := by
  rw [replay, lastOffset?]
  have fromTable : ∀ table : PositionTable,
      (messages.foldl (fun table message => (table.merge message.positions.toList).1)
        table).get? partition =
      messages.foldl (fun found message => (message.positions.get? partition).or found)
        (table.get? partition) := by
    induction messages with
    | nil => exact fun table => rfl
    | cons message rest ih =>
        intro table
        rw [List.foldl_cons, List.foldl_cons, ih, PositionTable.get?_merge]
  exact fromTable .empty

end PositionMessage

namespace Host

open PositionMessage

/-- A host secures an offset of a partition: its table holds the offset, and the others will be told or
have been told last. -/
structure Secures (host : Host) (partition : Partition) (offset : Offset) : Prop where
  holds : host.table.get? partition = some offset
  waitsOrSent :
    host.isPending partition = true ∨ lastOffset? host.sent partition = some offset

/-- Recording an offset secures it, whatever was before. -/
theorem secures_of_records {host : Host} {operation : Operation} {partition : Partition}
    {offset : Offset} (records : operation.offset? partition = some offset) :
    (host.perform operation).Secures partition offset := by
  cases host.effect_perform operation with
  | recorded entries waiting nothingSent =>
      refine ⟨?_, .inl ?_⟩
      · rw [entries, records, Option.some_or]
      · rw [waiting, records]
        exact .inl rfl
  | forgotten noWrite | swept noWrite | replaced noWrite =>
      rw [noWrite] at records
      nomatch records

/-- An operation that leaves the entry of a partition as it is leaves its offset secured. -/
theorem secures_of_kept {host : Host} {operation : Operation} {partition : Partition}
    {offset : Offset} (secured : host.Secures partition offset)
    (kept : (host.perform operation).table.get? partition = host.table.get? partition) :
    (host.perform operation).Secures partition offset := by
  refine ⟨kept.trans secured.holds, ?_⟩
  cases host.effect_perform operation with
  | recorded entries waiting nothingSent =>
      rw [nothingSent, waiting]
      exact secured.waitsOrSent.imp_left .inr
  | forgotten noWrite partitions entries waiting nothingSent =>
      have notForgotten : partition ∉ partitions := by
        intro forgotten
        rw [entries, if_pos forgotten, secured.holds] at kept
        nomatch kept
      rw [nothingSent, waiting]
      exact secured.waitsOrSent.imp_left fun waits => ⟨notForgotten, waits⟩
  | swept noWrite entries waiting positions carried broadcast =>
      right
      rw [broadcast, lastOffset?_concat, carried, secured.holds]
      by_cases waits : host.isPending partition = true
      · rw [if_pos waits, Option.some_or]
      · rw [if_neg waits, Option.none_or]
        exact secured.waitsOrSent.resolve_left waits
  | replaced noWrite waiting broadcast =>
      rw [waiting]
      rcases broadcast with nothingSent | ⟨kind, broadcast⟩
      · rw [nothingSent]
        exact secured.waitsOrSent
      · right
        rw [broadcast, lastOffset?_concat, kept, secured.holds, Option.some_or]

/-- Whether none of some operations changes what the table holds for a partition. -/
def Keeps (partition : Partition) : Host → List Operation → Prop
  | _, [] => True
  | host, operation :: later =>
    (host.perform operation).table.get? partition = host.table.get? partition ∧
      Keeps partition (host.perform operation) later

theorem secures_run {host : Host} {later : List Operation} {partition : Partition}
    {offset : Offset} (secured : host.Secures partition offset)
    (kept : Keeps partition host later) : (host.run later).Secures partition offset := by
  induction later generalizing host with
  | nil => exact secured
  | cons operation later ih =>
      obtain ⟨keptOnce, keptLater⟩ := kept
      exact ih (secures_of_kept secured keptOnce) keptLater

/-- A local operation changes no entry but those that it records. -/
theorem kept_of_isLocal (host : Host) {operation : Operation} {partition : Partition}
    (isLocal : operation.isLocal) (noWrite : operation.offset? partition = none) :
    (host.perform operation).table.get? partition = host.table.get? partition := by
  cases operation with
  | put written offset =>
      rw [Operation.offset?] at noWrite
      have differs : partition ≠ written := by
        intro same
        rw [if_pos same.symm] at noWrite
        cases noWrite
      exact SortedMap.get?_insert_of_ne _ _ differs
  | putMany positions =>
      have notListed : positions.get? partition = none := noWrite
      refine (host.service.get?_table_putPositions positions partition).trans ?_
      rw [notListed, Option.none_or]
      rfl
  | synchronize => rfl
  | _ => exact absurd isLocal Bool.false_ne_true

/-- In a run of local operations the last offset recorded is secured. -/
theorem secures_run_of_isLocal (host : Host) {operations : List Operation}
    (isLocal : ∀ operation ∈ operations, operation.isLocal) {partition : Partition}
    {offset : Offset} (recorded : Operation.lastOffset? operations partition = some offset) :
    (host.run operations).Secures partition offset := by
  induction operations using List.reverseRecOn with
  | nil => nomatch recorded
  | append_singleton earlier operation ih =>
      rw [Operation.lastOffset?_concat] at recorded
      rw [run_concat]
      have isLocalNow : operation.isLocal := isLocal operation (by simp)
      have isLocalBefore : ∀ operation ∈ earlier, operation.isLocal := fun operation member =>
        isLocal operation (List.mem_append_left _ member)
      cases writes : operation.offset? partition with
      | some written =>
          rw [writes, Option.some_or] at recorded
          exact secures_of_records (writes.trans recorded)
      | none =>
          rw [writes, Option.none_or] at recorded
          exact secures_of_kept (ih isLocalBefore recorded)
            (kept_of_isLocal _ isLocalNow writes)

/-- As long as the entry of a local write is not changed by anything else, its partition waits or the
last message that carries it carries the recorded offset. When only local operations happened and the last
of them is a synchronization, replaying the messages gives what was recorded last. -/
theorem recorded_offset_waits_or_is_sent (host : Host) (partition : Partition)
    (offset : Offset) :
    (∀ (earlier later : List Operation) (write : Operation),
        write.offset? partition = some offset →
        Keeps partition (host.run (earlier ++ [write])) later →
        (host.run (earlier ++ write :: later)).table.get? partition = some offset ∧
          ((host.run (earlier ++ write :: later)).isPending partition = true ∨
            lastOffset? (host.run (earlier ++ write :: later)).sent partition = some offset)) ∧
      ∀ operations : List Operation, (∀ operation ∈ operations, operation.isLocal) →
        Operation.lastOffset? operations partition = some offset →
        (replay (host.run (operations ++ [.synchronize])).sent).get? partition = some offset := by
  constructor
  · intro earlier later write records kept
    have splits : host.run (earlier ++ write :: later) =
        (host.run (earlier ++ [write])).run later := by
      rw [← run_append, List.append_assoc, List.singleton_append]
    have securedFirst : (host.run (earlier ++ [write])).Secures partition offset := by
      rw [run_concat]
      exact secures_of_records records
    have secured : (host.run (earlier ++ write :: later)).Secures partition offset := by
      rw [splits]
      exact secures_run securedFirst kept
    exact ⟨secured.holds, secured.waitsOrSent⟩
  · intro operations isLocal recorded
    have securedBefore : (host.run operations).Secures partition offset :=
      host.secures_run_of_isLocal isLocal recorded
    have secured : (host.run (operations ++ [.synchronize])).Secures partition offset := by
      rw [run_concat]
      exact secures_of_kept securedBefore rfl
    have noneWaits :
        ¬ (host.run (operations ++ [.synchronize])).isPending partition = true := by
      rw [run_concat]
      exact Bool.false_ne_true
    rw [get?_replay]
    exact secured.waitsOrSent.resolve_left noneWaits

/-- A write that is broadcast and told to a newcomer again, and a further write behind a first one. -/
theorem recorded_offset_waits_or_is_sent_of_file :
    let host := Host.new .inMemory .never .empty
    let partition := filePartition (.ofText "log")
    let write (count : Nat) : Operation := .put partition (fileOffset count)
    let later : List Operation := [.synchronize, .deliver (.ok ⟨.online, .empty⟩), .start]
    (((write 1).offset? partition = some (fileOffset 1) ∧
        Keeps partition (host.run ([.start] ++ [write 1])) later) ∧
      (host.run ([.start] ++ write 1 :: later)).table.get? partition = some (fileOffset 1)) ∧
    (∀ operation ∈ [write 1, .synchronize, write 2], operation.isLocal) ∧
      (replay (host.run ([write 1, .synchronize, write 2] ++ [.synchronize])).sent).get? partition =
        some (fileOffset 2) := by
  intro host partition write later
  have records : (write 1).offset? partition = some (fileOffset 1) := by decide +kernel
  have kept : Keeps partition (host.run ([.start] ++ [write 1])) later :=
    ⟨by decide +kernel, by decide +kernel, by decide +kernel, trivial⟩
  have isLocal : ∀ operation ∈ [write 1, .synchronize, write 2], operation.isLocal := by
    simp [write, Operation.isLocal]
  refine ⟨⟨⟨records, kept⟩, ?_⟩, isLocal, ?_⟩
  · exact ((recorded_offset_waits_or_is_sent host partition (fileOffset 1)).1 _ _ _ records
      kept).1
  · exact (recorded_offset_waits_or_is_sent host partition (fileOffset 2)).2 _ isLocal
      (by decide +kernel)

end Host

end PositionSync
