import Mathlib.Data.List.Basic
import PositionSync.Proofs.Cluster.Outlook
import PositionSync.Source.Position

/-!
# Convergence

Workers that have handled everything and have nothing pending hold the same table. What is compared along
a run is not the tables but the outlooks: the table that each worker will have when it has handled what
is still to come. Two outlooks may differ at a partition only as long as one of the two workers will
still tell the others about it: because the partition is pending, or because an announcement is still
to be answered when the table holds the partition. A worker that starts announces itself to everyone,
so that it differs from the others only where this is so.
-/

namespace PositionSync

namespace View

open PositionTable

/-- A worker will broadcast a partition that is pending, if its table holds it. -/
def WillSynchronize (view : View) (partition : Partition) : Prop :=
  view.pending.contains partition = true ∧ (view.table.get? partition).isSome

/-- A worker will answer an announcement, and its table will hold a partition then. -/
def WillAnswer (view : View) (partition : Partition) : Prop :=
  ∃ before announced after, view.backlog = some (before ++ .ok ⟨.online, announced⟩ :: after) ∧
    ((before.foldl absorb view.table).get? partition).isSome

/-- A worker will still tell the others about a partition. -/
def WillTell (view : View) (partition : Partition) : Prop :=
  view.WillSynchronize partition ∨ view.WillAnswer partition

/-- Two workers agree about a partition, now or later. -/
def Agree (first second : View) (partition : Partition) : Prop :=
  first.outlook.get? partition = second.outlook.get? partition ∨
    first.WillTell partition ∨ second.WillTell partition

variable {view next : View} {action : Action} {sent : List PositionMessage}
  {partition : Partition}

/-- Hearing something keeps a worker from nothing that it will tell. -/
theorem WillTell.hear (willTell : view.WillTell partition) (topic : String)
    (messages : List PositionMessage) : (view.hear topic messages).WillTell partition := by
  rw [View.hear]
  split
  · rcases willTell with willSynchronize | ⟨before, announced, after, backlog, held⟩
    · exact .inl willSynchronize
    · refine .inr ⟨before, announced, after ++ messages.map .ok, ?_, held⟩
      rw [backlog, Option.map_some, List.append_assoc, List.cons_append]
  · exact willTell

/-- Whoever hears an announcement will tell of everything that it will hold then. -/
theorem willAnswer_hear_online (isSubscribed : view.backlog.isSome)
    (held : (view.outlook.get? partition).isSome) (announced : PositionTable) :
    (view.hear view.topic [⟨.online, announced⟩]).WillAnswer partition := by
  obtain ⟨backlog, isBacklog⟩ := Option.isSome_iff_exists.1 isSubscribed
  rw [outlook, isBacklog] at held
  refine ⟨backlog, announced, [], ?_, ?_⟩
  · rw [hear, if_pos rfl, isBacklog]
    rfl
  · rw [hear, if_pos rfl]
    exact held

/-- Two workers that have just heard an announcement agree about everything. -/
theorem agree_of_online {first second : View} (sameTopic : second.topic = first.topic)
    (firstSubscribed : first.backlog.isSome) (secondSubscribed : second.backlog.isSome)
    (announced : PositionTable) (partition : Partition) :
    Agree (first.hear first.topic [⟨.online, announced⟩])
      (second.hear first.topic [⟨.online, announced⟩]) partition := by
  rw [← sameTopic]
  by_cases firstHolds : (first.outlook.get? partition).isSome
  · rw [sameTopic]
    exact .inr (.inl (.inr (willAnswer_hear_online firstSubscribed firstHolds announced)))
  · by_cases secondHolds : (second.outlook.get? partition).isSome
    · exact .inr (.inr (.inr (willAnswer_hear_online secondSubscribed secondHolds announced)))
    · left
      rw [get?_outlook_hear secondSubscribed, sameTopic, get?_outlook_hear firstSubscribed,
        Option.not_isSome_iff_eq_none.1 firstHolds, Option.not_isSome_iff_eq_none.1 secondHolds]

/-- How a worker stands to a partition after a change in which messages were sent: they said something
about the partition, or the worker will still tell, or nothing has changed. -/
inductive Stands (partition : Partition) (sent : List PositionMessage) (view next : View) :
    Prop where
  | said (isSaid : (lastSaid? (sent.map .ok) partition).isSome)
  | willTell (willTell : next.WillTell partition)
  | asBefore (silent : lastSaid? (sent.map .ok) partition = none)
      (sameOutlook : next.outlook.get? partition = view.outlook.get? partition)
      (toldBefore : ¬ view.WillTell partition)

/-- A worker that has not changed stands where it stood. -/
theorem stands_self (view : View) (sent : List PositionMessage) (partition : Partition) :
    Stands partition sent view view := by
  by_cases isSaid : (lastSaid? (sent.map .ok) partition).isSome
  · exact .said isSaid
  · by_cases willTell : view.WillTell partition
    · exact .willTell willTell
    · exact .asBefore (Option.not_isSome_iff_eq_none.1 isSaid) rfl willTell

/-- A worker that has sent nothing, has nothing more to handle and holds what it held for a partition
stands as it stood. -/
theorem stands_of_same (sameBacklog : next.backlog = view.backlog)
    (sameEntry : next.table.get? partition = view.table.get? partition)
    (stillPending : view.pending.contains partition = true →
      next.pending.contains partition = true) : Stands partition [] view next := by
  by_cases willTell : view.WillTell partition
  · apply Stands.willTell
    rcases willTell with ⟨isPending, held⟩ | ⟨before, announced, after, backlog, held⟩
    · exact .inl ⟨stillPending isPending, sameEntry ▸ held⟩
    · refine .inr ⟨before, announced, after, sameBacklog.trans backlog, ?_⟩
      rw [get?_foldl_absorb, sameEntry, ← get?_foldl_absorb]
      exact held
  · refine .asBefore rfl ?_ willTell
    rw [outlook, outlook, sameBacklog, get?_foldl_absorb, sameEntry, ← get?_foldl_absorb]

private theorem stands_put (view : View) (written : Partition) (offset : Offset)
    (partition : Partition) :
    Stands partition [] view
      { view with
        table := view.table.insert written offset
        pending := view.pending.insert written } := by
  by_cases same : partition = written
  · refine .willTell (.inl ⟨?_, ?_⟩)
    · exact (PendingSet.contains_insert _ _ _).2 (.inl same)
    · rw [same, SortedMap.get?_insert_self]
      rfl
  · refine stands_of_same rfl (SortedMap.get?_insert_of_ne _ _ same) ?_
    intro isPending
    exact (PendingSet.contains_insert _ _ _).2 (.inr isPending)

private theorem stands_putMany (view : View) (positions : PositionTable)
    (partition : Partition) :
    Stands partition [] view
      { view with
        table := view.table.insertAll positions.toList
        pending := view.pending.insertAll positions.keys } := by
  by_cases isWritten : (positions.get? partition).isSome
  · refine .willTell (.inl ⟨?_, ?_⟩)
    · exact (PendingSet.contains_insertAll _ _ _).2 (.inl (SortedMap.mem_keys_iff.2 isWritten))
    · rw [SortedMap.get?_insertAll_toList, Option.isSome_or, isWritten, Bool.true_or]
  · refine stands_of_same rfl ?_ ?_
    · rw [SortedMap.get?_insertAll_toList, Option.not_isSome_iff_eq_none.1 isWritten,
        Option.none_or]
    · intro isPending
      exact (PendingSet.contains_insertAll _ _ _).2 (.inr isPending)

private theorem stands_synchronize (view : View) (partition : Partition) :
    Stands partition [⟨.positionChange, view.pendingPositions⟩] view
      { view with pending := .empty } := by
  have isSaid : lastSaid? ([⟨.positionChange, view.pendingPositions⟩].map .ok) partition =
      if view.pending.contains partition then view.table.get? partition else none := by
    rw [lastSaid?_singleton, ← get?_pendingPositions]
    rfl
  by_cases willSynchronize : view.WillSynchronize partition
  · obtain ⟨isPending, held⟩ := willSynchronize
    apply Stands.said
    rw [isSaid, if_pos isPending]
    exact held
  · by_cases willAnswer : view.WillAnswer partition
    · exact .willTell (.inr willAnswer)
    · refine .asBefore ?_ rfl ?_
      · rw [isSaid]
        by_cases isPending : view.pending.contains partition = true
        · rw [if_pos isPending, ← Option.not_isSome_iff_eq_none]
          exact fun held => willSynchronize ⟨isPending, held⟩
        · rw [if_neg isPending]
      · rintro (synchronizes | answers)
        · exact willSynchronize synchronizes
        · exact willAnswer answers

private theorem stands_handle {delivery : Delivery} {rest : List Delivery}
    (next : view.backlog = some (delivery :: rest)) (partition : Partition) :
    Stands partition (view.table.answer delivery) view
      { view with table := view.table.absorb delivery, backlog := some rest } := by
  by_cases isSaid : (lastSaid? ((view.table.answer delivery).map .ok) partition).isSome
  · exact .said isSaid
  · by_cases willTell : view.WillTell partition
    · apply Stands.willTell
      rcases willTell with ⟨isPending, held⟩ | ⟨before, announced, after, backlog, held⟩
      · exact .inl ⟨isPending, isSome_get?_absorb held delivery⟩
      · rw [next] at backlog
        injection backlog with backlog
        cases before with
        | nil =>
            injection backlog with isOnline _
            rw [isOnline, PositionTable.answer, lastSaid?_singleton] at isSaid
            exact absurd held isSaid
        | cons first before =>
            injection backlog with isFirst isLater
            rw [← isFirst] at held
            exact .inr ⟨before, announced, after, congrArg some isLater, held⟩
    · refine .asBefore (Option.not_isSome_iff_eq_none.1 isSaid) ?_ willTell
      rw [outlook, outlook, next]
      rfl

/-- Whatever a running worker does that makes it forget nothing, it tells what it has to tell, or will
still do so. -/
theorem Acts.stands (acts : view.Acts action next sent) (keeps : action.forgets = false)
    (wasRunning : view.IsRunning) (isRunning : next.IsRunning) (partition : Partition) :
    Stands partition sent view next := by
  obtain ⟨tasksBefore, stageBefore⟩ := wasRunning
  obtain ⟨tasksAfter, stageAfter⟩ := isRunning
  cases acts with
  | rest => exact stands_self view [] partition
  | put written offset => exact stands_put view written offset partition
  | putMany positions => exact stands_putMany view positions partition
  | remove | load => nomatch keeps
  | synchronize => exact stands_synchronize view partition
  | handle delivery rest backlog => exact stands_handle backlog partition
  | beginStart | joinLog | beginStop | endTasks | finishStop => nomatch stageAfter
  | finishStart tasks joined =>
      rw [joined] at stageBefore
      nomatch stageBefore

/-- Two workers that agree still agree when both have heard the messages of a change. -/
theorem Agree.hear {first firstNext second secondNext : View}
    (agree : Agree first second partition) (firstStands : Stands partition sent first firstNext)
    (secondStands : Stands partition sent second secondNext)
    (firstSubscribed : firstNext.backlog.isSome) (secondSubscribed : secondNext.backlog.isSome)
    (sameTopic : secondNext.topic = firstNext.topic) :
    Agree (firstNext.hear firstNext.topic sent) (secondNext.hear firstNext.topic sent)
      partition := by
  have firstOutlook := get?_outlook_hear firstSubscribed sent partition
  have secondOutlook := get?_outlook_hear secondSubscribed sent partition
  rw [sameTopic] at secondOutlook
  rcases firstStands with isSaid | willTell | ⟨silent, firstSame, firstTold⟩
  · left
    obtain ⟨offset, said⟩ := Option.isSome_iff_exists.1 isSaid
    rw [firstOutlook, secondOutlook, said, Option.some_or, Option.some_or]
  · exact .inr (.inl (willTell.hear _ _))
  · rcases secondStands with isSaid | willTell | ⟨_, secondSame, secondTold⟩
    · rw [silent] at isSaid
      nomatch isSaid
    · exact .inr (.inr (willTell.hear _ _))
    · rcases agree with sameOutlook | willTell | willTell
      · left
        rw [firstOutlook, secondOutlook, firstSame, secondSame, sameOutlook]
      · exact absurd willTell firstTold
      · exact absurd willTell secondTold

end View

namespace Cluster

open View

/-- Running workers on one topic agree about everything. -/
structure IsConcordant (cluster : Cluster) : Prop where
  subscribed : cluster.IsSubscribed
  agree : ∀ {first second : Nat} {one other : View}, cluster.view? first = some one →
    cluster.view? second = some other → one.IsRunning → other.IsRunning →
    other.topic = one.topic → ∀ partition, Agree one other partition

/-- A worker that begins to run announces itself; else it was running before. -/
private theorem online_or_wasRunning {view next : View} {action : Action}
    {sent : List PositionMessage} (acts : view.Acts action next sent)
    (isRunning : next.IsRunning) :
    (∃ announced, sent = [⟨.online, announced⟩]) ∨ view.IsRunning := by
  obtain ⟨tasks, stage⟩ := isRunning
  cases acts with
  | rest | put | putMany | remove | synchronize | load | handle => exact .inr ⟨tasks, stage⟩
  | finishStart => exact .inl ⟨view.table, rfl⟩
  | beginStart | joinLog | beginStop | endTasks | finishStop => nomatch stage

private theorem exists_stood {before : Cluster} {index : Nat} {action : Action}
    {view next : View} {sent : List PositionMessage} (keeps : action.forgets = false)
    (viewed : before.view? index = some view) (acts : view.Acts action next sent)
    (wasRunning : next.IsRunning → view.IsRunning) {other : Nat} {standing : View}
    (isStanding : other = index ∧ standing = next ∨
      other ≠ index ∧ before.view? other = some standing)
    (isRunning : standing.IsRunning) (partition : Partition) :
    ∃ prior, before.view? other = some prior ∧ prior.IsRunning ∧
      prior.topic = standing.topic ∧ Stands partition sent prior standing := by
  rcases isStanding with ⟨sameIndex, isNext⟩ | ⟨_, stays⟩
  · subst sameIndex isNext
    exact ⟨view, viewed, wasRunning isRunning, acts.topic_eq.symm,
      acts.stands keeps (wasRunning isRunning) isRunning partition⟩
  · exact ⟨standing, stays, isRunning, rfl, stands_self standing sent partition⟩

/-- Concordance survives every change in which nothing is forgotten. -/
theorem IsConcordant.becomes {before after : Cluster} {index : Nat} {action : Action}
    {view next : View} {sent : List PositionMessage} (concordant : before.IsConcordant)
    (keeps : action.forgets = false) (viewed : before.view? index = some view)
    (acts : view.Acts action next sent) (becomes : before.Becomes after index next sent) :
    after.IsConcordant := by
  refine ⟨becomes.isSubscribed concordant.subscribed viewed acts, ?_⟩
  intro first second one other isOne isOther oneRuns otherRuns sameTopic partition
  obtain ⟨oneStanding, oneHeard, isOneStanding⟩ := becomes.view_cases isOne
  obtain ⟨otherStanding, otherHeard, isOtherStanding⟩ := becomes.view_cases isOther
  subst oneHeard otherHeard
  rw [hear_topic, hear_topic] at sameTopic
  have oneRan : oneStanding.IsRunning := isRunning_of_hear oneRuns
  have otherRan : otherStanding.IsRunning := isRunning_of_hear otherRuns
  have isSubscribed {number : Nat} {standing : View}
      (isStanding : number = index ∧ standing = next ∨
        number ≠ index ∧ before.view? number = some standing)
      (runs : standing.IsRunning) : standing.backlog.isSome := by
    rcases isStanding with ⟨_, isNext⟩ | ⟨_, stays⟩
    · rw [isNext] at runs ⊢
      exact backlog_isSome (acts.isSubscribed (concordant.subscribed index view viewed)) runs
    · exact backlog_isSome (concordant.subscribed number standing stays) runs
  by_cases hears : oneStanding.topic = next.topic
  · rw [← hears]
    by_cases online : ∃ announced, sent = [⟨.online, announced⟩]
    · obtain ⟨announced, isOnline⟩ := online
      rw [isOnline]
      exact agree_of_online sameTopic (isSubscribed isOneStanding oneRan)
        (isSubscribed isOtherStanding otherRan) announced partition
    · have wasRunning : next.IsRunning → view.IsRunning := fun isRunning =>
        (online_or_wasRunning acts isRunning).resolve_left online
      obtain ⟨onePrior, isOnePrior, onePriorRuns, oneTopic, oneStands⟩ :=
        exists_stood keeps viewed acts wasRunning isOneStanding oneRan partition
      obtain ⟨otherPrior, isOtherPrior, otherPriorRuns, otherTopic, otherStands⟩ :=
        exists_stood keeps viewed acts wasRunning isOtherStanding otherRan partition
      have agreed : Agree onePrior otherPrior partition :=
        concordant.agree isOnePrior isOtherPrior onePriorRuns otherPriorRuns
          (otherTopic.trans (sameTopic.trans oneTopic.symm)) partition
      exact agreed.hear oneStands otherStands (isSubscribed isOneStanding oneRan)
        (isSubscribed isOtherStanding otherRan) sameTopic
  · have otherDoesNotHear : otherStanding.topic ≠ next.topic := by
      rw [sameTopic]
      exact hears
    rw [hear_of_ne hears, hear_of_ne otherDoesNotHear]
    have oneStays : before.view? first = some oneStanding :=
      (isOneStanding.resolve_left fun isNext => hears (congrArg View.topic isNext.2)).2
    have otherStays : before.view? second = some otherStanding :=
      (isOtherStanding.resolve_left fun isNext =>
        otherDoesNotHear (congrArg View.topic isNext.2)).2
    exact concordant.agree oneStays otherStays oneRan otherRan sameTopic partition

/-- When all workers are stopped, nothing has to agree. -/
theorem isConcordant_of_isResting {cluster : Cluster}
    (resting : ∀ member ∈ cluster.members, member.isResting) : cluster.IsConcordant := by
  refine ⟨(isSound_of_isResting resting).subscribed, ?_⟩
  rintro first second one other isOne isOther ⟨tasks, running⟩
  rw [(view_of_isResting resting isOne).1] at running
  nomatch running

/-- A settled worker holds what it will hold, and has nothing to tell. -/
private theorem view_of_isSettled {member : Member} {network : Network}
    (settled : member.isSettled network) :
    (member.view network).IsRunning ∧
      (member.view network).outlook = member.service.table ∧
      ∀ partition, ¬ (member.view network).WillTell partition := by
  simp only [Member.isSettled, Bool.and_eq_true, decide_eq_true_iff] at settled
  obtain ⟨⟨running, handledAll⟩, nothingPending⟩ := settled
  have noBacklog := Member.view_backlog_of_hasHandledAll handledAll
  have noPending : (member.view network).pending = .empty := by
    have noMembers : member.service.pending.members = .empty :=
      SortedMap.ext (List.length_eq_zero_iff.1 nothingPending)
    exact congrArg PendingSet.mk noMembers
  refine ⟨Lifecycle.isRunning_iff.1 running, ?_, ?_⟩
  · rw [outlook, noBacklog]
    rfl
  · rintro partition (⟨isPending, _⟩ | ⟨before, announced, after, backlog, _⟩)
    · rw [noPending] at isPending
      cases isPending
    · rw [noBacklog] at backlog
      injection backlog with backlog
      exact List.append_ne_nil_of_right_ne_nil before (List.cons_ne_nil _ after) backlog.symm

/-- From stopped workers, any run in which nothing is removed, loaded again or lost ends in equal tables:
whenever two running workers on one topic have handled everything and have nothing pending, they hold
the same table. -/
theorem table_eq_of_isSettled {cluster : Cluster}
    (resting : ∀ member ∈ cluster.members, member.isResting) {moves : List (Nat × Action)}
    (keeps : ∀ move ∈ moves, move.2.forgets = false) (lagFree : cluster.isLagFree moves)
    {first second : Nat} {one other : Member}
    (isOne : (cluster.run moves).member? first = some one)
    (isOther : (cluster.run moves).member? second = some other)
    (oneSettled : one.isSettled (cluster.run moves).network)
    (otherSettled : other.isSettled (cluster.run moves).network)
    (sameTopic : other.log.topic = one.log.topic) : other.service.table = one.service.table := by
  have concordant : (cluster.run moves).IsConcordant :=
    (run_invariant (fun move => move.2.forgets = false) IsConcordant
      (fun concordant keeps viewed acts becomes => concordant.becomes keeps viewed acts becomes)
      (isSound_of_isResting resting).within (isConcordant_of_isResting resting) keeps lagFree).2
  obtain ⟨oneRuns, oneOutlook, oneSilent⟩ := view_of_isSettled oneSettled
  obtain ⟨otherRuns, otherOutlook, otherSilent⟩ := view_of_isSettled otherSettled
  apply SortedMap.ext_get?
  intro partition
  rcases concordant.agree (view?_of_member? isOne) (view?_of_member? isOther) oneRuns otherRuns
    sameTopic partition with same | willTell | willTell
  · rw [← oneOutlook, ← otherOutlook, same]
  · exact absurd willTell (oneSilent partition)
  · exact absurd willTell (otherSilent partition)

/-- The moves of two workers that write the same partition, the second one after a late start. -/
private def contestedMoves (partition : Partition) : List (Nat × Action) :=
  startMoves 0 ++ [(0, .put partition (fileOffset 1)), (0, .synchronize)] ++
    startMoves 1 ++ [(1, .put partition (fileOffset 2)), (1, .synchronize),
      (0, .fetch), (0, .handle), (1, .fetch), (1, .handle), (0, .handle), (0, .handle),
      (1, .handle), (0, .fetch), (0, .handle), (0, .handle), (0, .handle), (0, .handle),
      (1, .fetch), (1, .handle), (1, .handle), (1, .handle)]

/-- Two workers write the same partition, and agree in the end. -/
theorem table_eq_of_contested :
    let cluster := sample .empty [.inMemory, .inMemory]
    let moves := contestedMoves (filePartition (.ofText "log"))
    ∃ one other, (cluster.run moves).members = [one, other] ∧ one.service.table.size = 1 ∧
      other.service.table = one.service.table := by
  intro cluster moves
  have conditions : ((∀ member ∈ cluster.members, member.isResting) ∧
        (∀ move ∈ moves, move.2.forgets = false) ∧ cluster.isLagFree moves) ∧
      (cluster.run moves).members.length = 2 ∧
      ∀ member ∈ (cluster.run moves).members, member.isSettled (cluster.run moves).network ∧
        member.log.topic = "positions" ∧ member.service.table.size = 1 := by
    decide +kernel
  obtain ⟨⟨resting, keeps, lagFree⟩, two, settled⟩ := conditions
  obtain ⟨one, other, both⟩ := List.length_eq_two.1 two
  have isOne : (cluster.run moves).member? 0 = some one := by
    rw [member?, both]
    rfl
  have isOther : (cluster.run moves).member? 1 = some other := by
    rw [member?, both]
    rfl
  obtain ⟨oneSettled, oneTopic, oneSize⟩ := settled one (by rw [both]; simp)
  obtain ⟨otherSettled, otherTopic, _⟩ := settled other (by rw [both]; simp)
  exact ⟨one, other, both, oneSize, table_eq_of_isSettled resting keeps lagFree isOne isOther
    oneSettled otherSettled (otherTopic.trans oneTopic.symm)⟩

end Cluster

end PositionSync
