import PositionSync.Proofs.Cluster.Transitions
import PositionSync.Proofs.Service.Deliveries

/-!
# Outlooks

The outlook of a worker is the table that it will have when it has handled what is still to come. It is
what the last message that carries a partition says, and else what the table holds; when everything has
been handled it is the table itself. A run that begins with stopped workers keeps what is still to come
in the order of the topic.
-/

namespace PositionSync

namespace View

open PositionTable

def outlook (view : View) : PositionTable := (view.backlog.getD []).foldl absorb view.table

variable {view : View} {partition : Partition}

/-- What is heard comes on top of the outlook. -/
theorem get?_outlook_hear (isSubscribed : view.backlog.isSome)
    (sent : List PositionMessage) (partition : Partition) :
    (view.hear view.topic sent).outlook.get? partition =
      (lastSaid? (sent.map .ok) partition).or (view.outlook.get? partition) := by
  obtain ⟨backlog, isBacklog⟩ := Option.isSome_iff_exists.1 isSubscribed
  rw [hear, if_pos rfl, outlook, outlook, isBacklog]
  rw [Option.map_some, Option.getD_some, Option.getD_some, List.foldl_append, get?_foldl_absorb]

theorem get?_pendingPositions (view : View) (partition : Partition) :
    view.pendingPositions.get? partition =
      if view.pending.contains partition then view.table.get? partition else none := by
  rw [pendingPositions, PositionTable.get?_restrict]
  simp only [PendingSet.mem_toList_iff]

def IsRunning (view : View) : Prop := ∃ tasks, view.lifecycle = .running tasks

theorem isRunning_of_hear {view : View} {topic : String}
    {messages : List PositionMessage} (isRunning : (view.hear topic messages).IsRunning) :
    view.IsRunning := by
  obtain ⟨tasks, stage⟩ := isRunning
  exact ⟨tasks, (view.hear_lifecycle topic messages).symm.trans stage⟩

theorem backlog_isSome {view : View} (subscribed : view.IsSubscribed)
    (isRunning : view.IsRunning) : view.backlog.isSome := by
  obtain ⟨tasks, stage⟩ := isRunning
  rw [subscribed, stage]
  rfl

end View

/-- A worker rests when it is stopped and not subscribed. -/
def Member.isResting (member : Member) : Bool :=
  member.service.lifecycle = .stopped && member.log.subscription.isNone

/-- Whether a worker has handled everything published since it subscribed. -/
def Member.hasHandledAll (member : Member) (network : Network) : Bool :=
  member.log.subscription.any fun subscription =>
    subscription.inbox.isEmpty && subscription.isUpToDate network member.log.topic

/-- A worker is settled when it runs, has handled everything, and has nothing pending. -/
def Member.isSettled (member : Member) (network : Network) : Bool :=
  member.service.lifecycle.isRunning && member.hasHandledAll network &&
    member.service.pendingCount = 0

theorem Member.view_backlog_of_hasHandledAll {member : Member} {network : Network}
    (handledAll : member.hasHandledAll network) : (member.view network).backlog = some [] := by
  obtain ⟨subscription, subscribed, atEnd⟩ := Option.any_eq_true _ _ |>.mp handledAll
  obtain ⟨emptied, upToDate⟩ := (Bool.and_eq_true _ _).mp atEnd
  have allBefore : (network.published member.log.topic).drop subscription.cursor = [] := by
    rw [List.drop_eq_nil_iff, Network.length_published]
    exact of_decide_eq_true upToDate
  rw [Member.view, subscribed, Option.map_some, Subscription.backlog,
    List.isEmpty_iff.1 emptied, allBefore]
  rfl

namespace Cluster

theorem view?_of_member? {cluster : Cluster} {index : Nat} {member : Member}
    (present : cluster.member? index = some member) :
    cluster.view? index = some (member.view cluster.network) := by
  rw [view?, present, Option.map_some]

/-- What a worker has still to handle. -/
def undelivered (cluster : Cluster) (index : Nat) : List Delivery :=
  ((cluster.view? index).bind View.backlog).getD []

/-- What holds in a cluster whose workers have behaved: nobody is beyond the end of a topic, those
are subscribed that should be, and what is still to come is the end of the topic. -/
structure IsSound (cluster : Cluster) : Prop where
  within : cluster.IsWithin
  subscribed : cluster.IsSubscribed
  inOrder : cluster.IsInOrder

theorem view_of_isResting {cluster : Cluster}
    (resting : ∀ member ∈ cluster.members, member.isResting) {index : Nat} {view : View}
    (viewed : cluster.view? index = some view) :
    view.lifecycle = .stopped ∧ view.backlog = none := by
  obtain ⟨member, present, same⟩ := Option.map_eq_some_iff.1 viewed
  have rests := resting member (List.mem_of_getElem? present)
  rw [Member.isResting, Bool.and_eq_true, decide_eq_true_iff, Option.isNone_iff_eq_none] at rests
  rw [← same]
  refine ⟨rests.1, ?_⟩
  rw [Member.view, rests.2, Option.map_none]

/-- Stopped workers have behaved. -/
theorem isSound_of_isResting {cluster : Cluster}
    (resting : ∀ member ∈ cluster.members, member.isResting) : cluster.IsSound := by
  refine ⟨?_, ?_, ?_⟩
  · intro member isMember subscription subscribed
    have rests := resting member isMember
    rw [Member.isResting, Bool.and_eq_true, subscribed] at rests
    nomatch rests.2
  · intro index view viewed
    obtain ⟨stopped, unsubscribed⟩ := view_of_isResting resting viewed
    rw [View.IsSubscribed, stopped, unsubscribed]
    rfl
  · intro index view backlog viewed isBacklog
    rw [(view_of_isResting resting viewed).2] at isBacklog
    nomatch isBacklog

/-- Workers go on behaving as long as nothing is lost. -/
theorem IsSound.run {cluster : Cluster} (sound : cluster.IsSound) {moves : List (Nat × Action)}
    (lagFree : cluster.isLagFree moves) : (cluster.run moves).IsSound := by
  have goesOn : (cluster.run moves).IsWithin ∧
      (cluster.run moves).IsSubscribed ∧ (cluster.run moves).IsInOrder := by
    refine run_invariant (fun _ => True)
      (fun cluster => cluster.IsSubscribed ∧ cluster.IsInOrder) ?_ sound.within
      ⟨sound.subscribed, sound.inOrder⟩ (fun _ _ => trivial) lagFree
    intro before after index action view next sent held _ viewed acts becomes
    exact ⟨becomes.isSubscribed held.1 viewed acts, becomes.isInOrder held.2 viewed acts⟩
  exact ⟨goesOn.1, goesOn.2.1, goesOn.2.2⟩

end Cluster

end PositionSync
