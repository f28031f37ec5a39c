import PositionSync.Proofs.Cluster.Outlook
import PositionSync.Source.Position

/-!
# A worker alone on its topic

A worker receives its own messages like everybody's, and merges them. A message carries the table as it
was when the message was sent, so that a write made in between meets an older offset. What the worker
holds of a partition in the end is decided when it last writes the partition: if no message that it has
still to handle carries the partition, the write stands, because every later message repeats it; else
the last message on the topic that carries the partition decides.
-/

namespace PositionSync

/-- What an action makes of a partition, if it is a local write or removal of it: the offset that the
table is to hold, or none. -/
def Action.outcome? : Action → Partition → Option (Option Offset)
  | .put written offset, partition => if written = partition then some (some offset) else none
  | .putMany positions, partition => (positions.get? partition).map some
  | .remove partitions, partition => if partition ∈ partitions then some none else none
  | _, _ => none

theorem Action.outcome?_of_mayRest {action : Action} (mayRest : action.mayRest)
    (partition : Partition) : action.outcome? partition = none := by
  cases action with
  | put | putMany | remove => nomatch mayRest
  | _ => rfl

/-- The actions of a worker that goes on running and does not read its file again. -/
def Action.isOngoing : Action → Bool
  | .put _ _ | .putMany _ | .remove _ | .synchronize | .persist _ | .fetch | .handle
  | .changeFiles _ => true
  | _ => false

namespace View

open PositionTable

variable {view next : View} {action : Action} {sent : List PositionMessage}
  {partition : Partition}

/-- What an ongoing action that does not write a partition means for the partition. -/
inductive Passes (partition : Partition) (sent : List PositionMessage) (view next : View) :
    Prop where
  /-- The entry stays, and what is sent says nothing else. -/
  | keeps (sameBacklog : next.backlog = view.backlog)
      (sameEntry : next.table.get? partition = view.table.get? partition)
      (honest : ∀ message ∈ sent, told? partition (.ok message) = none ∨
        told? partition (.ok message) = view.table.get? partition)
  | handles (delivery : Delivery) (rest : List Delivery)
      (nextDelivery : view.backlog = some (delivery :: rest))
      (remaining : next.backlog = some rest)
      (absorbed : next.table = view.table.absorb delivery)
      (answered : sent = view.table.answer delivery)

private theorem passes_silently (sameBacklog : next.backlog = view.backlog)
    (sameEntry : next.table.get? partition = view.table.get? partition) :
    Passes partition [] view next :=
  .keeps sameBacklog sameEntry fun _ isSent => nomatch isSent

theorem Acts.passes (acts : view.Acts action next sent) (ongoing : action.isOngoing)
    (noWrite : action.outcome? partition = none) : Passes partition sent view next := by
  cases acts with
  | rest => exact passes_silently rfl rfl
  | put written offset =>
      have differs : partition ≠ written := by
        intro same
        rw [Action.outcome?, if_pos same.symm] at noWrite
        nomatch noWrite
      exact passes_silently rfl (SortedMap.get?_insert_of_ne _ _ differs)
  | putMany positions =>
      have notListed : positions.get? partition = none := Option.map_eq_none_iff.1 noWrite
      refine passes_silently rfl ?_
      rw [SortedMap.get?_insertAll_toList, notListed, Option.none_or]
  | remove partitions =>
      have notListed : partition ∉ partitions := by
        intro listed
        rw [Action.outcome?, if_pos listed] at noWrite
        nomatch noWrite
      refine passes_silently rfl ?_
      rw [get?_eraseAll, if_neg notListed]
  | synchronize =>
      refine .keeps rfl rfl ?_
      intro message isSent
      rw [List.mem_singleton.1 isSent]
      change view.pendingPositions.get? partition = none ∨
        view.pendingPositions.get? partition = view.table.get? partition
      rw [get?_pendingPositions]
      split
      · exact .inr rfl
      · exact .inl rfl
  | handle delivery rest isNext => exact .handles delivery rest isNext rfl rfl rfl
  | load | beginStart | joinLog | finishStart | beginStop | endTasks | finishStop =>
      nomatch ongoing

/-- The table of a worker holds an entry, and nothing else is still to come about it. -/
structure Maintains (view : View) (partition : Partition) (entry : Option Offset) : Prop where
  holds : view.table.get? partition = entry
  honest : ∀ backlog, view.backlog = some backlog → ∀ delivery ∈ backlog,
    told? partition delivery = none ∨ told? partition delivery = entry

private theorem answer_honest (table : PositionTable) (delivery : Delivery)
    (partition : Partition) :
    ∀ message ∈ table.answer delivery, told? partition (.ok message) = none ∨
      told? partition (.ok message) = table.get? partition := by
  intro message isSent
  rcases delivery with error | ⟨kind | kind, positions⟩
  · nomatch isSent
  · rw [List.mem_singleton.1 isSent]
    exact .inr rfl
  · nomatch isSent

/-- An entry that is maintained stays so: whatever is sent repeats it. -/
theorem Maintains.passes {entry : Option Offset} (maintains : view.Maintains partition entry)
    (passes : Passes partition sent view next) :
    (next.hear next.topic sent).Maintains partition entry := by
  have sentHonest : ∀ message ∈ sent, told? partition (.ok message) = none ∨
      told? partition (.ok message) = entry := by
    rw [← maintains.holds]
    cases passes with
    | keeps _ _ honest => exact honest
    | handles delivery rest _ _ _ answered =>
        rw [answered]
        exact answer_honest view.table delivery partition
  have restHonest : ∀ backlog, next.backlog = some backlog → ∀ delivery ∈ backlog,
      told? partition delivery = none ∨ told? partition delivery = entry := by
    intro backlog isBacklog delivery isLater
    cases passes with
    | keeps sameBacklog =>
        exact maintains.honest backlog (sameBacklog.symm.trans isBacklog) delivery isLater
    | handles first rest nextDelivery remaining =>
        rw [remaining] at isBacklog
        injection isBacklog with same
        rw [← same] at isLater
        exact maintains.honest _ nextDelivery delivery (List.mem_cons_of_mem first isLater)
  refine ⟨?_, ?_⟩
  · rw [hear_table]
    cases passes with
    | keeps _ sameEntry => exact sameEntry.trans maintains.holds
    | handles delivery rest nextDelivery _ absorbed =>
        rw [absorbed, get?_absorb, maintains.holds]
        rcases maintains.honest _ nextDelivery delivery List.mem_cons_self with silent | same
        · rw [silent, Option.none_or]
        · rw [same, Option.or_self]
  · intro backlog isBacklog delivery isLater
    rw [backlog_hear_self] at isBacklog
    obtain ⟨earlier, isEarlier, together⟩ := Option.map_eq_some_iff.1 isBacklog
    rw [← together] at isLater
    rcases List.mem_append.1 isLater with before | isNew
    · exact restHonest earlier isEarlier delivery before
    · obtain ⟨message, isSent, same⟩ := List.mem_map.1 isNew
      rw [← same]
      exact sentHonest message isSent

/-- What a worker will hold of a partition is what was said last about it on its topic. -/
structure Follows (view : View) (partition : Partition) (log : List Delivery) : Prop where
  subscribed : view.backlog.isSome
  outlook_eq : view.outlook.get? partition = lastSaid? log partition

theorem Follows.passes {log : List Delivery} (follows : view.Follows partition log)
    (passes : Passes partition sent view next) :
    (next.hear next.topic sent).Follows partition (log ++ sent.map .ok) := by
  have nextSubscribed : next.backlog.isSome := by
    cases passes with
    | keeps sameBacklog =>
        rw [sameBacklog]
        exact follows.subscribed
    | handles delivery rest _ remaining =>
        rw [remaining]
        rfl
  have sameOutlook : next.outlook.get? partition = view.outlook.get? partition := by
    cases passes with
    | keeps sameBacklog sameEntry =>
        rw [outlook, outlook, sameBacklog, get?_foldl_absorb, sameEntry, ← get?_foldl_absorb]
    | handles delivery rest nextDelivery remaining absorbed =>
        rw [outlook, outlook, nextDelivery, remaining, absorbed]
        rfl
  refine ⟨?_, ?_⟩
  · rw [backlog_hear_self, Option.isSome_map]
    exact nextSubscribed
  · rw [get?_outlook_hear nextSubscribed, lastSaid?_append, sameOutlook, follows.outlook_eq]

end View

namespace Cluster

open PositionTable

/-- A worker is alone on its topic. -/
def IsAlone (cluster : Cluster) (index : Nat) (topic : String) : Prop :=
  ∀ other view, cluster.view? other = some view → (view.topic = topic ↔ other = index)

theorem Becomes.isAlone {before after : Cluster} {index mover : Nat} {action : Action}
    {view next : View} {sent : List PositionMessage} {topic : String}
    (alone : before.IsAlone index topic) (viewed : before.view? mover = some view)
    (acts : view.Acts action next sent) (becomes : before.Becomes after mover next sent) :
    after.IsAlone index topic := by
  intro other final viewedAfter
  obtain ⟨standing, heard, ⟨same, isNext⟩ | ⟨_, stays⟩⟩ := becomes.view_cases viewedAfter
  · rw [heard, View.hear_topic, isNext, acts.topic_eq, same]
    exact alone mover view viewed
  · rw [heard, View.hear_topic]
    exact alone other standing stays

/-- Whatever the others do, a worker that is alone on its topic notices nothing. -/
theorem Becomes.unnoticed {before after : Cluster} {index mover : Nat} {action : Action}
    {view next own : View} {sent : List PositionMessage} {topic : String}
    (alone : before.IsAlone index topic) (viewed : before.view? mover = some view)
    (acts : view.Acts action next sent) (becomes : before.Becomes after mover next sent)
    (isOther : mover ≠ index) (isOwn : before.view? index = some own) :
    after.view? index = some own ∧
      after.network.deliveries topic = before.network.deliveries topic := by
  have otherTopic : topic ≠ next.topic := by
    rw [acts.topic_eq]
    exact fun same => isOther ((alone mover view viewed).1 same.symm)
  have ownTopic : own.topic = topic := (alone index own isOwn).2 rfl
  refine ⟨?_, ?_⟩
  · rw [becomes.views, if_neg (Ne.symm isOther), isOwn, Option.map_some,
      View.hear_of_ne (ownTopic ▸ otherTopic)]
  · rw [becomes.deliveries, if_neg otherTopic, List.append_nil]

theorem IsAlone.run {cluster : Cluster} {index : Nat} {topic : String}
    (within : cluster.IsWithin) (alone : cluster.IsAlone index topic)
    {moves : List (Nat × Action)} (lagFree : cluster.isLagFree moves) :
    (cluster.run moves).IsAlone index topic :=
  (run_invariant (fun _ => True) (fun cluster => cluster.IsAlone index topic)
    (fun alone _ viewed acts becomes => becomes.isAlone alone viewed acts) within alone
    (fun _ _ => trivial) lagFree).2

/-- What holds of a worker that is alone on its topic, and of what its topic has delivered or has still
to deliver, goes on holding if nothing that passes the partition by changes it. -/
theorem run_alone (holds : View → List Delivery → Prop) {index : Nat} {topic : String}
    {partition : Partition}
    (preserved : ∀ {view next : View} {sent : List PositionMessage} {log : List Delivery},
      holds view log → View.Passes partition sent view next →
        holds (next.hear next.topic sent) (log ++ sent.map .ok))
    {cluster : Cluster} (within : cluster.IsWithin) (alone : cluster.IsAlone index topic)
    {own : View} (isOwn : cluster.view? index = some own)
    (starts : holds own (cluster.network.deliveries topic)) {moves : List (Nat × Action)}
    (quiet : ∀ move ∈ moves, move.1 = index →
      move.2.isOngoing ∧ move.2.outcome? partition = none)
    (lagFree : cluster.isLagFree moves) :
    ∃ final, (cluster.run moves).view? index = some final ∧
      holds final ((cluster.run moves).network.deliveries topic) := by
  have kept := run_invariant
    (fun move => move.1 = index → move.2.isOngoing ∧ move.2.outcome? partition = none)
    (fun cluster => cluster.IsAlone index topic ∧ ∃ own,
      cluster.view? index = some own ∧ holds own (cluster.network.deliveries topic))
    ?_ within ⟨alone, own, isOwn, starts⟩ quiet lagFree
  · exact kept.2.2
  · rintro before after mover action view next sent ⟨alone, own, isOwn, held⟩ allowed viewed acts
      becomes
    refine ⟨becomes.isAlone alone viewed acts, ?_⟩
    by_cases isMover : mover = index
    · subst isMover
      rw [viewed] at isOwn
      injection isOwn with isOwn
      subst isOwn
      have ownTopic : topic = next.topic :=
        ((alone mover view viewed).2 rfl).symm.trans acts.topic_eq.symm
      obtain ⟨ongoing, noWrite⟩ := allowed rfl
      refine ⟨next.hear next.topic sent, ?_, ?_⟩
      · rw [becomes.views, if_pos rfl, Option.map_some]
      · rw [becomes.deliveries, if_pos ownTopic]
        exact preserved held (acts.passes ongoing noWrite)
    · obtain ⟨stays, sameLog⟩ := becomes.unnoticed alone viewed acts isMover isOwn
      rw [stays, sameLog]
      exact ⟨own, rfl, held⟩

/-- A write changes the entry of its partition, and nothing else about it. -/
private theorem write_of_acts {view next : View} {action : Action} {sent : List PositionMessage}
    {partition : Partition} {entry : Option Offset} (acts : view.Acts action next sent)
    (writes : action.outcome? partition = some entry) :
    next.table.get? partition = entry ∧ next.backlog = view.backlog ∧ sent = [] := by
  cases acts with
  | put written offset =>
      rw [Action.outcome?] at writes
      split at writes
      · next same =>
        injection writes with isEntry
        rw [← isEntry, same, SortedMap.get?_insert_self]
        exact ⟨rfl, rfl, rfl⟩
      · nomatch writes
  | putMany positions =>
      obtain ⟨offset, listed, isEntry⟩ := Option.map_eq_some_iff.1 writes
      rw [← isEntry, SortedMap.get?_insertAll_toList, listed, Option.some_or]
      exact ⟨rfl, rfl, rfl⟩
  | remove partitions =>
      rw [Action.outcome?] at writes
      split at writes
      · next listed =>
        injection writes with isEntry
        rw [← isEntry, get?_eraseAll, if_pos listed]
        exact ⟨rfl, rfl, rfl⟩
      · nomatch writes
  | rest action mayRest =>
      rw [Action.outcome?_of_mayRest mayRest] at writes
      nomatch writes
  | synchronize | load | beginStart | joinLog | finishStart | beginStop | endTasks | finishStop
  | handle => nomatch writes

/-- A worker after a local write: the entry is written, and nothing else about it has changed. -/
private theorem exists_written {cluster : Cluster} {index : Nat} {topic : String} {write : Action}
    {partition : Partition} {entry : Option Offset} {writer : Member}
    (within : cluster.IsWithin) (alone : cluster.IsAlone index topic)
    (isWriter : cluster.member? index = some writer)
    (writes : write.outcome? partition = some entry)
    (kept : (!write.fetches || cluster.hasKept index) = true) :
    (cluster.act index write).IsWithin ∧ (cluster.act index write).IsAlone index topic ∧
      (cluster.act index write).network.deliveries topic = cluster.network.deliveries topic ∧
      ∃ next, (cluster.act index write).view? index = some next ∧
        next.table.get? partition = entry ∧
        next.backlog = (writer.view cluster.network).backlog := by
  have acted : cluster.act index write = cluster.actMember index writer write := by
    rw [act, isWriter]
  have viewed := view?_of_member? isWriter
  obtain ⟨next, sent, acts, becomes⟩ := actsOn within isWriter write kept
  obtain ⟨isEntry, sameBacklog, nothingSent⟩ := write_of_acts acts writes
  rw [acted]
  refine ⟨becomes.within, becomes.isAlone alone viewed acts, ?_, next, ?_, isEntry, sameBacklog⟩
  · rw [becomes.deliveries, nothingSent, List.map_nil, ite_self, List.append_nil]
  · rw [becomes.views, if_pos rfl, Option.map_some, nothingSent, View.hear_nil]

variable {cluster : Cluster} {index : Nat} {topic : String} {partition : Partition}
  {own : View} {later : List (Nat × Action)} {final : Member}

/-- An entry about which nothing is still to come is the one that the worker ends with. -/
private theorem entry_of_silent (within : cluster.IsWithin) (alone : cluster.IsAlone index topic)
    (isOwn : cluster.view? index = some own) {backlog : List Delivery}
    (isBacklog : own.backlog = some backlog) (silent : lastSaid? backlog partition = none)
    (quiet : ∀ move ∈ later, move.1 = index →
      move.2.isOngoing ∧ move.2.outcome? partition = none)
    (lagFree : cluster.isLagFree later)
    (isFinal : (cluster.run later).member? index = some final) :
    final.service.table.get? partition = own.table.get? partition := by
  have maintains : own.Maintains partition (own.table.get? partition) := by
    refine ⟨rfl, ?_⟩
    intro remaining isRemaining delivery isLater
    rw [isBacklog] at isRemaining
    injection isRemaining with same
    rw [← same] at isLater
    exact .inl (lastSaid?_eq_none_iff.1 silent delivery isLater)
  obtain ⟨view, viewed, maintained⟩ := run_alone
    (fun view _ => view.Maintains partition (own.table.get? partition))
    (fun maintains passes => maintains.passes passes) within alone isOwn maintains quiet lagFree
  rw [view?_of_member? isFinal] at viewed
  injection viewed with isView
  rw [← isView] at maintained
  exact maintained.holds

/-- A partition about which something is still to come ends with what the topic says last. -/
private theorem entry_of_said (within : cluster.IsWithin) (alone : cluster.IsAlone index topic)
    (isOwn : cluster.view? index = some own) {backlog : List Delivery}
    (isBacklog : own.backlog = some backlog)
    (inOrder : backlog <:+ cluster.network.deliveries topic)
    (isSaid : (lastSaid? backlog partition).isSome)
    (quiet : ∀ move ∈ later, move.1 = index →
      move.2.isOngoing ∧ move.2.outcome? partition = none)
    (lagFree : cluster.isLagFree later)
    (isFinal : (cluster.run later).member? index = some final)
    (handledAll : final.hasHandledAll (cluster.run later).network) :
    final.service.table.get? partition =
      lastSaid? ((cluster.run later).network.deliveries topic) partition := by
  have follows : own.Follows partition (cluster.network.deliveries topic) := by
    refine ⟨?_, ?_⟩
    · rw [isBacklog]
      rfl
    · obtain ⟨offset, said⟩ := Option.isSome_iff_exists.1 isSaid
      rw [lastSaid?_of_isSuffix inOrder isSaid, View.outlook, isBacklog, Option.getD_some,
        get?_foldl_absorb, said, Option.some_or]
  obtain ⟨view, viewed, followed⟩ := run_alone
    (fun view log => view.Follows partition log)
    (fun follows passes => follows.passes passes) within alone isOwn follows quiet lagFree
  rw [view?_of_member? isFinal] at viewed
  injection viewed with isView
  have outlook := followed.outlook_eq
  rw [← isView, View.outlook, Member.view_backlog_of_hasHandledAll handledAll] at outlook
  exact outlook

/-- What the last local write of a partition comes to, when a worker that is alone on its topic has
handled everything: it stands if nothing that was still to come when it was made says anything about the
partition; else the last message on the topic that does decides. -/
theorem last_write_stands_or_echo_decides
    (resting : ∀ member ∈ cluster.members, member.isResting)
    (alone : ∀ other member, cluster.member? other = some member →
      (member.log.topic = topic ↔ other = index))
    {earlier : List (Nat × Action)} {write : Action} {entry : Option Offset}
    (writes : write.outcome? partition = some entry)
    (quiet : ∀ move ∈ later, move.1 = index →
      move.2.isOngoing ∧ move.2.outcome? partition = none)
    (lagFree : cluster.isLagFree (earlier ++ (index, write) :: later)) {writer : Member}
    (isWriter : (cluster.run earlier).member? index = some writer)
    (running : writer.service.lifecycle.isRunning)
    (isFinal : (cluster.run (earlier ++ (index, write) :: later)).member? index = some final)
    (handledAll : final.hasHandledAll
      (cluster.run (earlier ++ (index, write) :: later)).network) :
    (lastSaid? ((cluster.run earlier).undelivered index) partition = none →
      final.service.table.get? partition = entry) ∧
    ((lastSaid? ((cluster.run earlier).undelivered index) partition).isSome →
      final.service.table.get? partition =
        lastSaid? ((cluster.run (earlier ++ (index, write) :: later)).network.deliveries topic)
          partition) := by
  rw [isLagFree_append, Bool.and_eq_true] at lagFree
  obtain ⟨lagFreeEarlier, lagFreeFromWrite⟩ := lagFree
  rw [isLagFree, Bool.and_eq_true] at lagFreeFromWrite
  obtain ⟨kept, lagFreeLater⟩ := lagFreeFromWrite
  have splits : cluster.run (earlier ++ (index, write) :: later) =
      ((cluster.run earlier).act index write).run later :=
    run_append cluster earlier ((index, write) :: later)
  rw [splits] at isFinal handledAll ⊢
  have soundStart : cluster.IsSound := isSound_of_isResting resting
  have aloneStart : cluster.IsAlone index topic := by
    intro other view viewed
    obtain ⟨member, present, same⟩ := Option.map_eq_some_iff.1 viewed
    rw [← same]
    exact alone other member present
  have sound : (cluster.run earlier).IsSound := soundStart.run lagFreeEarlier
  have aloneThen : (cluster.run earlier).IsAlone index topic :=
    aloneStart.run soundStart.within lagFreeEarlier
  have writerViewed := view?_of_member? isWriter
  obtain ⟨backlog, isBacklog⟩ := Option.isSome_iff_exists.1 <| View.backlog_isSome
    (sound.subscribed index _ writerViewed) (Lifecycle.isRunning_iff.1 running)
  have isUndelivered : (cluster.run earlier).undelivered index = backlog := by
    rw [undelivered, writerViewed, Option.bind_some, isBacklog, Option.getD_some]
  have inOrder : backlog <:+ (cluster.run earlier).network.deliveries topic := by
    have isTopic : (writer.view (cluster.run earlier).network).topic = topic :=
      (aloneThen index _ writerViewed).2 rfl
    rw [← isTopic]
    exact sound.inOrder index _ backlog writerViewed isBacklog
  obtain ⟨withinNow, aloneNow, sameLog, next, nextViewed, isEntry, sameBacklog⟩ :=
    exists_written sound.within aloneThen isWriter writes kept
  rw [isUndelivered, ← isEntry]
  constructor
  · intro silent
    exact entry_of_silent withinNow aloneNow nextViewed (sameBacklog.trans isBacklog) silent quiet
      lagFreeLater isFinal
  · intro isSaid
    exact entry_of_said withinNow aloneNow nextViewed (sameBacklog.trans isBacklog)
      (sameLog ▸ inOrder) isSaid quiet lagFreeLater isFinal handledAll

/-- The moves of a worker that starts, answers itself, writes a partition and broadcasts it. -/
private def firstWrite (partition : Partition) : List (Nat × Action) :=
  startMoves 0 ++ [(0, .fetch), (0, .handle), (0, .put partition (fileOffset 1)),
    (0, .synchronize)]

private theorem member?_of_members {cluster : Cluster} {member : Member}
    (only : cluster.members = [member]) : cluster.member? 0 = some member := by
  rw [member?, only]
  rfl

private theorem alone_of_single (files : FileSystem) (store : Store) :
    ∀ other member, (sample files [store]).member? other = some member →
      (member.log.topic = "positions" ↔ other = 0) := by
  intro other member present
  cases other with
  | zero =>
      injection present with same
      rw [← same]
      exact ⟨fun _ => rfl, fun _ => rfl⟩
  | succ other => nomatch present

/-- The same write gives way if the broadcast of an earlier one has still to come back, and stands if
it has come back. -/
theorem last_write_of_single :
    let cluster := sample .empty [.inMemory]
    let partition := filePartition (.ofText "log")
    let write : Nat × Action := (0, .put partition (fileOffset 2))
    let handling : List (Nat × Action) := [(0, .fetch), (0, .handle), (0, .handle)]
    (∃ final, (cluster.run (firstWrite partition ++ write :: handling)).members = [final] ∧
      final.service.table.get? partition = some (fileOffset 1)) ∧
    ∃ final, (cluster.run (firstWrite partition ++ handling ++ write :: [])).members = [final] ∧
      final.service.table.get? partition = some (fileOffset 2) := by
  intro cluster partition write handling
  have resting : ∀ member ∈ cluster.members, member.isResting := by decide +kernel
  have alone := alone_of_single .empty .inMemory
  have writes : write.2.outcome? partition = some (some (fileOffset 2)) := by decide +kernel
  constructor
  · have conditions : cluster.isLagFree (firstWrite partition ++ write :: handling) ∧
        (cluster.run (firstWrite partition)).members.length = 1 ∧
        (∀ member ∈ (cluster.run (firstWrite partition)).members,
          member.service.lifecycle.isRunning) ∧
        (lastSaid? ((cluster.run (firstWrite partition)).undelivered 0) partition).isSome ∧
        (∀ move ∈ handling, move.1 = 0 → move.2.isOngoing ∧ move.2.outcome? partition = none) ∧
        (cluster.run (firstWrite partition ++ write :: handling)).members.length = 1 ∧
        (∀ member ∈ (cluster.run (firstWrite partition ++ write :: handling)).members,
          member.hasHandledAll
            (cluster.run (firstWrite partition ++ write :: handling)).network) ∧
        lastSaid? ((cluster.run
          (firstWrite partition ++ write :: handling)).network.deliveries "positions")
          partition = some (fileOffset 1) := by
      decide +kernel
    obtain ⟨lagFree, oneBefore, running, isSaid, quiet, oneAfter, handledAll, said⟩ := conditions
    obtain ⟨writer, isWriter⟩ := List.length_eq_one_iff.1 oneBefore
    obtain ⟨final, isFinal⟩ := List.length_eq_one_iff.1 oneAfter
    refine ⟨final, isFinal, ?_⟩
    rw [← said]
    exact (last_write_stands_or_echo_decides resting alone writes quiet lagFree
      (member?_of_members isWriter) (running writer (isWriter ▸ List.mem_singleton_self writer))
      (member?_of_members isFinal)
      (handledAll final (isFinal ▸ List.mem_singleton_self final))).2 isSaid
  · have conditions : cluster.isLagFree (firstWrite partition ++ handling ++ write :: []) ∧
        (cluster.run (firstWrite partition ++ handling)).members.length = 1 ∧
        (∀ member ∈ (cluster.run (firstWrite partition ++ handling)).members,
          member.service.lifecycle.isRunning) ∧
        lastSaid? ((cluster.run (firstWrite partition ++ handling)).undelivered 0)
          partition = none ∧
        (cluster.run (firstWrite partition ++ handling ++ write :: [])).members.length = 1 ∧
        ∀ member ∈ (cluster.run (firstWrite partition ++ handling ++ write :: [])).members,
          member.hasHandledAll
            (cluster.run (firstWrite partition ++ handling ++ write :: [])).network := by
      decide +kernel
    obtain ⟨lagFree, oneBefore, running, silent, oneAfter, handledAll⟩ := conditions
    obtain ⟨writer, isWriter⟩ := List.length_eq_one_iff.1 oneBefore
    obtain ⟨final, isFinal⟩ := List.length_eq_one_iff.1 oneAfter
    refine ⟨final, isFinal, ?_⟩
    exact (last_write_stands_or_echo_decides resting alone writes
      (fun _ isLater => absurd isLater List.not_mem_nil) lagFree (member?_of_members isWriter)
      (running writer (isWriter ▸ List.mem_singleton_self writer)) (member?_of_members isFinal)
      (handledAll final (isFinal ▸ List.mem_singleton_self final))).1 silent

/-- A second write before the broadcast of the first one has come back does not last. -/
theorem echo_undoes_write :
    let cluster := sample .empty [.inMemory]
    let partition := filePartition (.ofText "log")
    let moves := firstWrite partition ++ (0, .put partition (fileOffset 2)) ::
      [(0, .fetch), (0, .handle), (0, .handle)]
    let final := cluster.run moves
    (∀ member ∈ cluster.members, member.isResting) ∧ cluster.isLagFree moves ∧
      final.members.length = 1 ∧
      (∀ member ∈ final.members, member.service.lifecycle.isRunning ∧
        member.hasHandledAll final.network ∧
        member.service.table.get? partition = some (fileOffset 1)) ∧
      fileOffset 1 ≠ fileOffset 2 := by
  decide +kernel

end Cluster

end PositionSync
