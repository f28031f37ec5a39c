import Mathlib.Algebra.BigOperators.Group.List.Basic
import Mathlib.Algebra.GroupWithZero.Nat
import PositionSync.Proofs.Cluster.Joining

/-!
# Gossip dies out

Handling an announcement sends an answer to everybody on the topic, the worker itself included, and
handling anything else sends nothing.  So if an announcement counts for one delivery more than there
are workers, and everything else for one, then each delivery that is handled takes exactly one off the
total of what is still to come, whichever worker handles it.
-/

namespace PositionSync

/-- What may happen to a cluster: a worker acts, or somebody publishes octets of any kind. -/
inductive Event where
  | act (index : Nat) (action : Action)
  | publish (topic : String) (payload : Payload)

/-- What a delivery counts for among some number of workers. -/
def Delivery.weight (workers : Nat) (delivery : Delivery) : Nat :=
  if delivery.isOnline then workers + 1 else 1

theorem PositionTable.answer_eq (table : PositionTable) (delivery : Delivery) :
    table.answer delivery =
      if delivery.isOnline then [⟨.positionChange, table⟩] else [] := by
  rcases delivery with error | ⟨kind | kind, positions⟩
  · rfl
  · rfl
  · rfl

namespace Member

/-- Whether a worker receives from a topic: it runs, or it is just starting or stopping and has its
background tasks. -/
def receivesFrom (topic : String) (member : Member) : Bool :=
  member.log.topic = topic && member.service.lifecycle.tasks?.isSome

/-- A worker with background tasks is subscribed and handles what is delivered. -/
def IsAttentive (member : Member) : Prop :=
  ∀ tasks, member.service.lifecycle.tasks? = some tasks →
    tasks.consuming = true ∧ member.log.subscription.isSome

theorem IsAttentive.isConsuming {member : Member} (attentive : member.IsAttentive)
    (hasTasks : member.service.lifecycle.tasks?.isSome) : member.service.isConsuming := by
  obtain ⟨tasks, isTasks⟩ := Option.isSome_iff_exists.1 hasTasks
  simp [Service.isConsuming, isTasks, (attentive tasks isTasks).1]

/-- What a worker would handle next, if it has its tasks and has fetched something. -/
def nextDelivery? (member : Member) : Option Delivery :=
  if member.service.isConsuming then
    (member.log.subscription.bind Subscription.next?).map Prod.fst
  else none

end Member

namespace Cluster

variable {cluster : Cluster} {index : Nat} {member : Member} {topic : String}

def undergo (cluster : Cluster) : Event → Cluster
  | .act index action => cluster.act index action
  | .publish topic payload => cluster.publish topic payload

def history (cluster : Cluster) (events : List Event) : Cluster := events.foldl undergo cluster

/-- The workers that receive from a topic. -/
def receivers (cluster : Cluster) (topic : String) : List Member :=
  cluster.members.filter (Member.receivesFrom topic)

/-- What the receivers of a topic have still to handle, each one for itself. -/
def outstandingOn (cluster : Cluster) (topic : String) : List Delivery :=
  (cluster.receivers topic).flatMap fun member =>
    (member.view cluster.network).backlog.getD []

/-- What a worker on a topic handles when it acts. -/
def handledBy (cluster : Cluster) (topic : String) (index : Nat) : Action → Option Delivery
  | .handle => (cluster.member? index).bind fun member =>
      if member.log.topic = topic then member.nextDelivery? else none
  | _ => none

/-- What the workers on a topic handle in a run. -/
def handledOn (topic : String) : Cluster → List (Nat × Action) → List Delivery
  | _, [] => []
  | cluster, (index, action) :: later =>
    (cluster.handledBy topic index action).toList ++
      handledOn topic (cluster.act index action) later

/-- What holds in a cluster whatever has happened to it. -/
structure IsOrderly (cluster : Cluster) : Prop where
  within : cluster.IsWithin
  attentive : ∀ member ∈ cluster.members, member.IsAttentive

theorem IsOrderly.of_members (orderly : cluster.IsOrderly) {after : Cluster}
    (sameNetwork : after.network = cluster.network) (sameMembers : after.members = cluster.members) :
    after.IsOrderly := by
  constructor
  · intro member isMember
    rw [sameNetwork]
    rw [sameMembers] at isMember
    exact orderly.within member isMember
  · rw [sameMembers]
    exact orderly.attentive

theorem IsOrderly.update (orderly : cluster.IsOrderly) {next : Member}
    (within : next.IsWithin cluster.network) (attentive : next.IsAttentive) (topic : String)
    (sent : List PositionMessage) :
    (cluster.update index next (cluster.network.sendAll topic sent)).IsOrderly := by
  constructor
  · intro other isMember
    rw [update_members] at isMember
    rw [update_network]
    rcases List.mem_or_eq_of_mem_set isMember with before | rfl
    · exact (orderly.within other before).sendAll topic sent
    · exact within.sendAll topic sent
  · intro other isMember
    rw [update_members] at isMember
    rcases List.mem_or_eq_of_mem_set isMember with before | rfl
    · exact orderly.attentive other before
    · exact attentive

theorem IsOrderly.setMember (orderly : cluster.IsOrderly) {next : Member}
    (within : next.IsWithin cluster.network) (attentive : next.IsAttentive) :
    (cluster.setMember index next).IsOrderly := by
  rw [← update_same_network]
  exact orderly.update within attentive next.log.topic []

theorem IsOrderly.withLog (orderly : cluster.IsOrderly) (within : member.IsWithin cluster.network)
    {service : Service} (attentive : Member.IsAttentive { member with service })
    (sent : List PositionMessage) :
    (cluster.withLog index member
      (service, cluster.network.sendAll member.log.topic sent, member.log)).IsOrderly := by
  have nextWithin : Member.IsWithin { member with service } cluster.network := within
  exact orderly.update nextWithin attentive member.log.topic sent

theorem IsOrderly.fetch (orderly : cluster.IsOrderly) (present : cluster.member? index = some member) :
    (cluster.fetch index).IsOrderly := by
  have within := orderly.within member (List.mem_of_getElem? present)
  have attentive := orderly.attentive member (List.mem_of_getElem? present)
  rw [Cluster.fetch, mapMember_eq_setMember present]
  apply orderly.setMember
  · intro subscription subscribed
    obtain ⟨before, subscribedBefore, rfl⟩ := Option.map_eq_some_iff.1 subscribed
    exact Subscription.cursor_fetch_le (within before subscribedBefore)
  · intro tasks isTasks
    simpa [LocalLog.fetch] using attentive tasks isTasks

theorem IsOrderly.handleNext (orderly : cluster.IsOrderly)
    (present : cluster.member? index = some member) : (cluster.handleNext index).IsOrderly := by
  have within := orderly.within member (List.mem_of_getElem? present)
  have attentive := orderly.attentive member (List.mem_of_getElem? present)
  cases taken : member.log.subscription.bind Subscription.next? with
  | none => simpa only [Cluster.handleNext, present, taken] using orderly
  | some result =>
      obtain ⟨delivery, later⟩ := result
      obtain ⟨listeners, notified, updated⟩ := handleNext_eq present taken
      obtain ⟨subscription, subscribed, next⟩ := Option.bind_eq_some_iff.1 taken
      rw [updated]
      apply orderly.update
      · intro remaining same
        cases same
        rw [(Subscription.backlog_next? next cluster.network member.log.topic).2]
        exact within subscription subscribed
      · intro tasks isTasks
        exact ⟨(attentive tasks isTasks).1, rfl⟩

/-- Whatever a worker does, also when payloads are lost to it, the cluster stays orderly. -/
theorem IsOrderly.actMember (orderly : cluster.IsOrderly)
    (present : cluster.member? index = some member) (action : Action) :
    (cluster.actMember index member action).IsOrderly := by
  have within : member.IsWithin cluster.network :=
    orderly.within member (List.mem_of_getElem? present)
  have attentive : member.IsAttentive :=
    orderly.attentive member (List.mem_of_getElem? present)
  cases action with
  | put | putMany | remove => exact orderly.setMember within attentive
  | synchronize =>
      let swept : Service := { member.service with pending := .empty }
      have stillAttentive : Member.IsAttentive { member with service := swept } := attentive
      exact orderly.withLog within stillAttentive
        [⟨.positionChange, member.service.pendingPositions⟩]
  | persist | changeFiles => exact orderly.of_members rfl rfl
  | load =>
      rcases member.service.load_cases cluster.files with ⟨error, failed⟩ | ⟨table, loaded⟩
      · simpa only [Cluster.actMember, failed] using orderly
      · simp only [Cluster.actMember, loaded]
        exact orderly.setMember within attentive
  | beginStart =>
      rcases member.service.load_cases cluster.files with ⟨error, failed⟩ | ⟨table, loaded⟩
      · cases stage : member.service.lifecycle <;>
          simpa only [Cluster.actMember, Service.beginStart, stage, failed, Except.map] using orderly
      · cases stage : member.service.lifecycle with
        | stopped =>
            simp only [Cluster.actMember, Service.beginStart, stage, loaded, Except.map]
            refine orderly.setMember within fun tasks noTasks => ?_
            cases noTasks
        | starting | running | stopping =>
            simpa only [Cluster.actMember, Service.beginStart, stage] using orderly
  | joinLog =>
      simp only [Cluster.actMember]
      split
      · refine orderly.update (Member.isWithin_of_subscribe _ _ rfl) ?_ member.log.topic []
        intro tasks isTasks
        cases isTasks
        exact ⟨rfl, rfl⟩
      · exact orderly
  | finishStart =>
      cases stage : member.service.lifecycle with
      | starting tasks? =>
          cases tasks? with
          | none => simpa only [Cluster.actMember, stage] using orderly
          | some tasks =>
              simp only [Cluster.actMember, stage, Service.finishStart]
              refine orderly.withLog within ?_ [⟨.online, member.service.table⟩]
              simpa only [Member.IsAttentive, stage, Lifecycle.tasks?] using attentive
      | stopped | running | stopping => simpa only [Cluster.actMember, stage] using orderly
  | beginStop =>
      cases stage : member.service.lifecycle with
      | running tasks =>
          simp only [Cluster.actMember, stage, Service.beginStop]
          refine orderly.withLog within ?_ [⟨.positionChange, member.service.pendingPositions⟩]
          simpa only [Member.IsAttentive, stage, Lifecycle.tasks?] using attentive
      | stopped | starting | stopping =>
          simpa only [Cluster.actMember, stage, Service.beginStop] using orderly
  | endTasks =>
      cases stage : member.service.lifecycle with
      | stopping tasks? =>
          cases tasks? with
          | none => simpa only [Cluster.actMember, stage] using orderly
          | some tasks =>
              simp only [Cluster.actMember, stage]
              refine orderly.setMember within fun tasks noTasks => ?_
              cases noTasks
      | stopped | starting | running => simpa only [Cluster.actMember, stage] using orderly
  | finishStop =>
      simp only [Cluster.actMember]
      split
      · refine orderly.update ?_ ?_ member.log.topic []
        · intro subscription subscribed
          cases subscribed
        · intro tasks noTasks
          cases noTasks
      · exact orderly
  | fetch => exact orderly.fetch present
  | handle =>
      rw [Cluster.actMember]
      split
      · exact orderly.handleNext present
      · exact orderly

theorem IsOrderly.act (orderly : cluster.IsOrderly) (index : Nat) (action : Action) :
    (cluster.act index action).IsOrderly := by
  rw [Cluster.act]
  split
  · next member present => exact orderly.actMember present action
  · exact orderly

theorem IsOrderly.publish (orderly : cluster.IsOrderly) (topic : String) (payload : Payload) :
    (cluster.publish topic payload).IsOrderly := by
  refine ⟨?_, orderly.attentive⟩
  intro member isMember subscription subscribed
  have before := orderly.within member isMember subscription subscribed
  change subscription.cursor ≤ (cluster.network.publish topic payload).publishedCount member.log.topic
  rw [← Network.length_published] at before ⊢
  rw [Network.published_publish]
  split
  · next same =>
    subst same
    simp only [List.length_append]
    omega
  · exact before

theorem IsOrderly.history (orderly : cluster.IsOrderly) (events : List Event) :
    (cluster.history events).IsOrderly := by
  induction events generalizing cluster with
  | nil => exact orderly
  | cons event later ih =>
      cases event with
      | act index action => exact ih (orderly.act index action)
      | publish topic payload => exact ih (orderly.publish topic payload)

theorem IsOrderly.run (orderly : cluster.IsOrderly) (moves : List (Nat × Action)) :
    (cluster.run moves).IsOrderly := by
  induction moves generalizing cluster with
  | nil => exact orderly
  | cons move later ih => exact ih (orderly.act move.1 move.2)

theorem isOrderly_of_isResting (resting : ∀ member ∈ cluster.members, member.isResting) :
    cluster.IsOrderly := by
  refine ⟨(isSound_of_isResting resting).within, ?_⟩
  intro member isMember tasks isTasks
  have rests := resting member isMember
  rw [Member.isResting, Bool.and_eq_true, decide_eq_true_iff] at rests
  rw [rests.1] at isTasks
  cases isTasks

end Cluster

namespace View

variable {workers : Nat} {topic : String} {view : View}

def receivesFrom (topic : String) (view : View) : Bool :=
  view.topic = topic && view.lifecycle.tasks?.isSome

/-- What a worker has still to handle of a topic counts for. -/
def weight (workers : Nat) (topic : String) (view : View) : Nat :=
  if view.receivesFrom topic then
    ((view.backlog.getD []).map (Delivery.weight workers)).sum
  else 0

theorem receivesFrom_hear (view : View) (other : String) (sent : List PositionMessage) :
    (view.hear other sent).receivesFrom topic = view.receivesFrom topic := by
  simp only [receivesFrom, hear_topic, hear_lifecycle]

/-- Answers count for one delivery each, and only to who receives from their topic. -/
theorem weight_hear (subscribed : view.lifecycle.tasks?.isSome → view.backlog.isSome)
    {sent : List PositionMessage} (answers : ∀ message ∈ sent, message.kind = .positionChange)
    (other : String) :
    (view.hear other sent).weight workers topic = view.weight workers topic +
      if view.receivesFrom topic ∧ other = topic then sent.length else 0 := by
  have weights : (sent.map (Delivery.weight workers ∘ Except.ok)).sum = sent.length := by
    induction sent with
    | nil => rfl
    | cons message rest ih =>
        obtain ⟨kind, positions⟩ := message
        have isAnswer : kind = .positionChange := answers _ List.mem_cons_self
        subst isAnswer
        have later := ih fun message isLater => answers message (List.mem_cons_of_mem _ isLater)
        rw [List.map_cons, List.sum_cons, later, List.length_cons, Nat.add_comm]
        rfl
  simp only [weight, receivesFrom_hear]
  by_cases receives : view.receivesFrom topic = true
  · obtain ⟨onTopic, hasTasks⟩ := (Bool.and_eq_true _ _).mp receives
    obtain ⟨backlog, isBacklog⟩ := Option.isSome_iff_exists.1 (subscribed hasTasks)
    by_cases same : other = topic
    · have hears : view.topic = other := (of_decide_eq_true onTopic).trans same.symm
      simp [receives, same, hear, hears, isBacklog, weights]
    · have deaf : view.topic ≠ other := fun hears =>
        same (hears.symm.trans (of_decide_eq_true onTopic))
      simp [receives, same, hear_of_ne deaf]
  · simp [receives]

end View

namespace Cluster

variable {cluster before after : Cluster} {index workers : Nat} {topic : String} {view next : View}
  {sent : List PositionMessage}

def views (cluster : Cluster) : List View := cluster.members.map (Member.view · cluster.network)

theorem getElem?_views (cluster : Cluster) (index : Nat) :
    cluster.views[index]? = cluster.view? index := by
  rw [views, List.getElem?_map]
  rfl

/-- What everybody on a topic has still to handle counts for. -/
def weight (cluster : Cluster) (workers : Nat) (topic : String) : Nat :=
  (cluster.views.map (View.weight workers topic)).sum

theorem Becomes.views_eq (becomes : before.Becomes after index next sent)
    (viewed : before.view? index = some view) :
    after.views = (before.views.set index next).map fun view => view.hear next.topic sent := by
  have inRange : index < before.views.length := by
    rw [← getElem?_views] at viewed
    exact (List.getElem?_eq_some_iff.1 viewed).1
  apply List.ext_getElem?
  intro other
  rw [getElem?_views, becomes.views, List.getElem?_map, List.getElem?_set]
  by_cases same : other = index
  · subst same
    simp [inRange]
  · simp [same, Ne.symm same, getElem?_views]

private theorem sum_set {loads : List Nat} {place load : Nat} (isLoad : loads[place]? = some load)
    (changed : Nat) : (loads.set place changed).sum + load = loads.sum + changed := by
  induction loads generalizing place with
  | nil => simp at isLoad
  | cons first rest ih =>
      cases place with
      | zero =>
          simp only [List.getElem?_cons_zero, Option.some.injEq] at isLoad
          simp only [List.set_cons_zero, List.sum_cons]
          omega
      | succ place =>
          rw [List.getElem?_cons_succ] at isLoad
          have later := ih isLoad
          simp only [List.set_cons_succ, List.sum_cons]
          omega

private theorem sum_of_test {α : Type} (test : α → Bool) (each : Nat) (list : List α) :
    (list.map fun item => if test item then each else 0).sum = each * list.countP test := by
  induction list with
  | nil => rfl
  | cons item rest ih =>
      rw [List.map_cons, List.sum_cons, ih, List.countP_cons]
      split
      · rw [Nat.mul_add, Nat.mul_one, Nat.add_comm]
      · rw [Nat.zero_add, Nat.add_zero]

theorem countP_views (cluster : Cluster) (topic : String) :
    cluster.views.countP (View.receivesFrom topic) = (cluster.receivers topic).length := by
  rw [views, List.countP_map, receivers, ← List.countP_eq_length_filter]
  rfl

private theorem countP_set_views (viewed : before.view? index = some view)
    (sameTopic : next.topic = view.topic) (sameStage : next.lifecycle = view.lifecycle) :
    (before.views.set index next).countP (View.receivesFrom topic) =
      (before.receivers topic).length := by
  have sameReceives : next.receivesFrom topic = view.receivesFrom topic := by
    simp only [View.receivesFrom, sameTopic, sameStage]
  rw [← getElem?_views] at viewed
  obtain ⟨inRange, isView⟩ := List.getElem?_eq_some_iff.1 viewed
  rw [← countP_views, List.countP_set inRange, isView, sameReceives]
  have atLeast : (if view.receivesFrom topic then 1 else 0) ≤
      before.views.countP (View.receivesFrom topic) := by
    split
    · next receives =>
      exact List.countP_pos_iff.2 ⟨view, isView ▸ List.getElem_mem inRange, receives⟩
    · exact Nat.zero_le _
  omega

/-- A change that sends answers adds one delivery for each receiver of the topic and each answer. -/
theorem Becomes.weight_add (becomes : before.Becomes after index next sent) (workers : Nat)
    (topic : String) (viewed : before.view? index = some view) (sameTopic : next.topic = view.topic)
    (sameStage : next.lifecycle = view.lifecycle)
    (attends : ∀ standing ∈ before.views.set index next,
      standing.lifecycle.tasks?.isSome → standing.backlog.isSome)
    (answers : ∀ message ∈ sent, message.kind = .positionChange) :
    after.weight workers topic + view.weight workers topic =
      before.weight workers topic + next.weight workers topic +
        if next.topic = topic then sent.length * (before.receivers topic).length else 0 := by
  have heard : after.views.map (View.weight workers topic) =
      (before.views.set index next).map fun standing => standing.weight workers topic +
        if standing.receivesFrom topic ∧ next.topic = topic then sent.length else 0 := by
    rw [becomes.views_eq viewed, List.map_map]
    apply List.map_congr_left
    intro standing isStanding
    exact View.weight_hear (attends standing isStanding) answers next.topic
  have moved : ((before.views.set index next).map (View.weight workers topic)).sum +
      view.weight workers topic = before.weight workers topic + next.weight workers topic := by
    rw [List.map_set]
    apply sum_set
    rw [List.getElem?_map, getElem?_views, viewed]
    rfl
  rw [weight, heard, List.sum_map_add, Nat.add_right_comm, moved]
  congr 1
  by_cases onTopic : next.topic = topic
  · simp only [onTopic, and_true, if_true]
    rw [sum_of_test, countP_set_views viewed sameTopic sameStage]
  · simp [onTopic]

theorem Becomes.length_receivers (becomes : before.Becomes after index next sent)
    (viewed : before.view? index = some view) (sameTopic : next.topic = view.topic)
    (sameStage : next.lifecycle = view.lifecycle) :
    (after.receivers topic).length = (before.receivers topic).length := by
  rw [← countP_views, becomes.views_eq viewed, List.countP_map,
    ← countP_set_views viewed sameTopic sameStage]
  congr 1
  funext standing
  exact standing.receivesFrom_hear next.topic sent

theorem backlog_isSome_of_isAttentive {member : Member} (attentive : member.IsAttentive)
    (network : Network) (hasTasks : member.service.lifecycle.tasks?.isSome) :
    (member.view network).backlog.isSome := by
  obtain ⟨tasks, isTasks⟩ := Option.isSome_iff_exists.1 hasTasks
  simpa [Member.view] using (attentive tasks isTasks).2

theorem IsOrderly.attends (orderly : cluster.IsOrderly) (index : Nat) (next : View)
    (attentive : next.lifecycle.tasks?.isSome → next.backlog.isSome) :
    ∀ standing ∈ cluster.views.set index next,
      standing.lifecycle.tasks?.isSome → standing.backlog.isSome := by
  intro standing isStanding hasTasks
  rcases List.mem_or_eq_of_mem_set isStanding with before | rfl
  · obtain ⟨member, isMember, rfl⟩ := List.mem_map.1 before
    exact backlog_isSome_of_isAttentive (orderly.attentive member isMember) _ hasTasks
  · exact attentive hasTasks

private theorem act_of_nothing {member : Member} (present : cluster.member? index = some member)
    (nothing : member.nextDelivery? = none) : cluster.act index .handle = cluster := by
  rw [Cluster.act, present]
  simp only [actMember]
  by_cases consuming : member.service.isConsuming = true
  · rw [if_pos consuming]
    rw [Member.nextDelivery?, if_pos consuming, Option.map_eq_none_iff] at nothing
    simp only [handleNext, present, nothing]
  · rw [if_neg consuming]

private theorem hasTasks_of_isConsuming {service : Service} (consuming : service.isConsuming) :
    service.lifecycle.tasks?.isSome := by
  rw [Service.isConsuming] at consuming
  cases tasks : service.lifecycle.tasks? with
  | none => simp [tasks] at consuming
  | some => rfl

/-- A worker that has something to handle takes it out of its backlog, and sends the answer. -/
theorem becomes_of_nextDelivery? {member : Member} (within : cluster.IsWithin)
    (present : cluster.member? index = some member) {delivery : Delivery}
    (isNext : member.nextDelivery? = some delivery) :
    member.service.lifecycle.tasks?.isSome ∧
      ∃ rest, (member.view cluster.network).backlog = some (delivery :: rest) ∧
        cluster.Becomes (cluster.act index .handle) index
          { member.view cluster.network with
            table := member.service.table.absorb delivery, backlog := some rest }
          (member.service.table.answer delivery) := by
  rw [Member.nextDelivery?, Option.ite_none_right_eq_some, Option.map_eq_some_iff] at isNext
  obtain ⟨consuming, ⟨_, later⟩, taken, rfl⟩ := isNext
  refine ⟨hasTasks_of_isConsuming consuming, ?_⟩
  have acted : cluster.act index .handle = cluster.handleNext index := by
    rw [Cluster.act, present]
    exact if_pos consuming
  rw [acted]
  exact becomes_handleNext within present taken

/-- Fetching loses nothing of what was kept, so it leaves what is outstanding as it is. -/
theorem IsOrderly.weight_fetch (orderly : cluster.IsOrderly) {member : Member}
    (present : cluster.member? index = some member)
    (kept : (!Action.fetch.fetches || cluster.hasKept index) = true) (workers : Nat)
    (topic : String) :
    ((cluster.act index .fetch).receivers topic).length = (cluster.receivers topic).length ∧
      (cluster.act index .fetch).weight workers topic = cluster.weight workers topic := by
  have viewed := view?_of_member? present
  have attentive := orderly.attentive member (List.mem_of_getElem? present)
  have acted : cluster.act index .fetch = cluster.actMember index member .fetch := by
    rw [Cluster.act, present]
  obtain ⟨next, sent, acts, becomes⟩ := actsOn orderly.within present .fetch kept
  cases acts
  have attends := orderly.attends index (member.view cluster.network)
    (backlog_isSome_of_isAttentive attentive cluster.network)
  have weights := becomes.weight_add workers topic viewed rfl rfl attends (by simp)
  simp only [List.length_nil, Nat.zero_mul, ite_self] at weights
  rw [acted]
  refine ⟨becomes.length_receivers viewed rfl rfl, ?_⟩
  omega

/-- Handling a delivery takes one off, since an announcement counts for its answers too. -/
theorem IsOrderly.weight_handle (orderly : cluster.IsOrderly) {member : Member}
    (present : cluster.member? index = some member) {delivery : Delivery}
    (isNext : member.nextDelivery? = some delivery) (topic : String) :
    ((cluster.act index .handle).receivers topic).length = (cluster.receivers topic).length ∧
      (cluster.act index .handle).weight (cluster.receivers topic).length topic +
          (if member.log.topic = topic then 1 else 0) =
        cluster.weight (cluster.receivers topic).length topic := by
  have viewed := view?_of_member? present
  obtain ⟨hasTasks, rest, backlog, becomes⟩ :=
    becomes_of_nextDelivery? orderly.within present isNext
  have attends := orderly.attends index
    { member.view cluster.network with
      table := member.service.table.absorb delivery, backlog := some rest } fun _ => rfl
  have answers : ∀ message ∈ member.service.table.answer delivery,
      message.kind = .positionChange := by
    rw [PositionTable.answer_eq]
    split <;> simp
  have weights := becomes.weight_add (cluster.receivers topic).length topic viewed rfl rfl
    attends answers
  refine ⟨becomes.length_receivers viewed rfl rfl, ?_⟩
  have onTopic : (member.view cluster.network).topic = member.log.topic := rfl
  have hasTasksThen : (member.view cluster.network).lifecycle.tasks?.isSome := hasTasks
  by_cases same : member.log.topic = topic
  · simp only [View.weight, View.receivesFrom, onTopic, same, decide_true, hasTasksThen,
      Bool.and_self, if_true, backlog, Option.getD_some, List.map_cons, List.sum_cons,
      PositionTable.answer_eq, Delivery.weight] at weights
    rw [if_pos same]
    split at weights
    · simp only [List.length_singleton] at weights
      omega
    · simp only [List.length_nil] at weights
      omega
  · simp only [View.weight, View.receivesFrom, onTopic, same, decide_false, Bool.false_and,
      if_false, Bool.false_eq_true] at weights
    rw [if_neg same]
    omega

/-- What is handled on a topic is exactly what the weight of the topic goes down by. -/
theorem IsOrderly.weight_act (orderly : cluster.IsOrderly) (topic : String) {action : Action}
    (receives : action.receives) (kept : (!action.fetches || cluster.hasKept index) = true) :
    ((cluster.act index action).receivers topic).length = (cluster.receivers topic).length ∧
      (cluster.act index action).weight (cluster.receivers topic).length topic +
          (cluster.handledBy topic index action).toList.length =
        cluster.weight (cluster.receivers topic).length topic := by
  cases present : cluster.member? index with
  | none =>
      have same : cluster.act index action = cluster := by
        rw [Cluster.act, present]
      have nothing : cluster.handledBy topic index action = none := by
        cases action <;> simp [handledBy, present]
      simp [same, nothing]
  | some member =>
      cases action with
      | fetch => exact orderly.weight_fetch present kept _ topic
      | handle =>
          cases isNext : member.nextDelivery? with
          | none =>
              have nothing : cluster.handledBy topic index .handle = none := by
                simp [handledBy, present, isNext]
              rw [act_of_nothing present isNext, nothing]
              exact ⟨rfl, rfl⟩
          | some delivery =>
              have handled : (cluster.handledBy topic index .handle).toList.length =
                  if member.log.topic = topic then 1 else 0 := by
                rw [handledBy, present, Option.bind_some, isNext]
                split <;> rfl
              rw [handled]
              exact orderly.weight_handle present isNext topic
      | put | putMany | remove | synchronize | persist | load | beginStart | joinLog | finishStart
      | beginStop | endTasks | finishStop | changeFiles => cases receives

theorem IsOrderly.weight_run (orderly : cluster.IsOrderly) {moves : List (Nat × Action)}
    (receiving : ∀ move ∈ moves, move.2.receives) (lagFree : cluster.isLagFree moves) :
    ((cluster.run moves).receivers topic).length = (cluster.receivers topic).length ∧
      (cluster.run moves).weight (cluster.receivers topic).length topic +
          (handledOn topic cluster moves).length =
        cluster.weight (cluster.receivers topic).length topic := by
  induction moves generalizing cluster with
  | nil => exact ⟨rfl, rfl⟩
  | cons move later ih =>
      obtain ⟨index, action⟩ := move
      rw [isLagFree, Bool.and_eq_true] at lagFree
      obtain ⟨sameReceivers, taken⟩ := orderly.weight_act topic
        (receiving _ List.mem_cons_self) lagFree.1
      obtain ⟨sameLater, takenLater⟩ := ih (orderly.act index action)
        (fun move isLater => receiving move (List.mem_cons_of_mem _ isLater)) lagFree.2
      rw [sameReceivers] at sameLater takenLater
      refine ⟨sameLater, ?_⟩
      rw [handledOn, List.length_append]
      have run_eq : cluster.run ((index, action) :: later) = (cluster.act index action).run later := rfl
      rw [run_eq]
      dsimp only at taken
      omega

private theorem sum_weight (workers : Nat) (deliveries : List Delivery) :
    (deliveries.map (Delivery.weight workers)).sum =
      deliveries.countP (fun delivery => !delivery.isOnline) +
        deliveries.countP Delivery.isOnline * (workers + 1) := by
  induction deliveries with
  | nil => simp
  | cons delivery rest ih =>
      rw [List.map_cons, List.sum_cons, ih, List.countP_cons, List.countP_cons, Delivery.weight,
        Nat.add_mul]
      cases delivery.isOnline
      · simp
        omega
      · simp
        omega

/-- What a topic still counts for is what all that is outstanding on it counts for. -/
theorem weight_eq (cluster : Cluster) (workers : Nat) (topic : String) :
    cluster.weight workers topic = ((cluster.outstandingOn topic).map (Delivery.weight workers)).sum := by
  rw [weight, views, outstandingOn, receivers, List.map_map]
  induction cluster.members with
  | nil => rfl
  | cons member rest ih =>
      rw [List.map_cons, List.sum_cons, ih, List.filter_cons]
      have sameTest : (member.view cluster.network).receivesFrom topic =
          member.receivesFrom topic := rfl
      rw [Function.comp_apply, View.weight, sameTest]
      split
      · rw [List.flatMap_cons, List.map_append, List.sum_append]
      · rw [Nat.zero_add]

theorem weight_eq_zero_iff (workers : Nat) :
    cluster.weight workers topic = 0 ↔ cluster.outstandingOn topic = [] := by
  rw [weight_eq]
  cases cluster.outstandingOn topic with
  | nil => simp
  | cons delivery rest =>
      have counts : 0 < delivery.weight workers := by
        unfold Delivery.weight
        split <;> omega
      simp only [List.map_cons, List.sum_cons, reduceCtorEq, iff_false]
      omega

end Cluster

namespace Subscription

/-- Who has something left to fetch has something to handle after fetching, if only a notice. -/
theorem next?_fetch {subscription : Subscription} {network : Network} {topic : String}
    (outstanding : subscription.backlog network topic ≠ []) :
    ((subscription.fetch network topic).next?).isSome := by
  have fetched : (subscription.fetch network topic).inbox ≠ [] := by
    unfold fetch
    split
    · next full =>
      intro isEmpty
      rw [isEmpty] at full
      nomatch full
    · next room _ =>
      by_cases isEmpty : subscription.inbox = []
      · by_cases lags : subscription.cursor <
            (network.published topic).length - network.capacity
        · simp [notice, lags]
        · have more : subscription.cursor < (network.published topic).length := by
            simpa [backlog, isEmpty] using outstanding
          simp [notice, lags, Nat.max_eq_left (Nat.not_lt.1 lags), more, isEmpty, inboxCapacity]
      · simp [isEmpty]
  unfold next?
  cases inbox : (subscription.fetch network topic).inbox with
  | nil => exact absurd inbox fetched
  | cons delivery rest => rfl

end Subscription

namespace Cluster

variable {cluster : Cluster} {index : Nat} {topic : String}

/-- As long as something is outstanding on a topic, somebody who gets to fetch can handle something. -/
theorem IsOrderly.exists_handledOn (orderly : cluster.IsOrderly)
    (outstanding : cluster.outstandingOn topic ≠ []) :
    ∃ index, (handledOn topic cluster [(index, .fetch), (index, .handle)]).length = 1 := by
  obtain ⟨delivery, isOutstanding⟩ := List.exists_mem_of_ne_nil _ outstanding
  obtain ⟨member, isReceiver, inBacklog⟩ := List.mem_flatMap.1 isOutstanding
  obtain ⟨isMember, receives⟩ := List.mem_filter.1 isReceiver
  obtain ⟨onTopic, hasTasks⟩ := (Bool.and_eq_true _ _).mp receives
  obtain ⟨index, present⟩ : ∃ index, cluster.member? index = some member :=
    List.mem_iff_getElem?.1 isMember
  have attentive : member.IsAttentive := orderly.attentive member isMember
  obtain ⟨tasks, isTasks⟩ := Option.isSome_iff_exists.1 hasTasks
  obtain ⟨subscription, subscribed⟩ :=
    Option.isSome_iff_exists.1 (attentive tasks isTasks).2
  have more : subscription.backlog cluster.network member.log.topic ≠ [] := by
    intro nothing
    simp [Member.view, subscribed, nothing] at inBacklog
  let fetched : Member := { member with log := member.log.fetch cluster.network }
  have acted : cluster.act index .fetch = cluster.setMember index fetched := by
    rw [Cluster.act, present]
    exact mapMember_eq_setMember present _
  have inRange : index < cluster.members.length := (List.getElem?_eq_some_iff.1 present).1
  have presentThen : (cluster.setMember index fetched).member? index = some fetched := by
    rw [Cluster.setMember, member?, List.getElem?_set_self inRange]
  obtain ⟨delivery, isNext⟩ : ∃ delivery, fetched.nextDelivery? = some delivery := by
    obtain ⟨⟨delivery, later⟩, taken⟩ :=
      Option.isSome_iff_exists.1 (Subscription.next?_fetch more)
    refine ⟨delivery, ?_⟩
    have consuming : fetched.service.isConsuming := attentive.isConsuming hasTasks
    simp [Member.nextDelivery?, consuming, fetched, LocalLog.fetch, subscribed, taken]
  have onTopicThen : fetched.log.topic = topic := of_decide_eq_true onTopic
  refine ⟨index, ?_⟩
  simp [handledOn, handledBy, acted, presentThen, onTopicThen, isNext]

/-- Who handles an announcement sends its whole table to the topic once, and handling anything else
sends nothing. -/
theorem IsOrderly.published_of_handledBy (orderly : cluster.IsOrderly) {delivery : Delivery}
    (handles : cluster.handledBy topic index .handle = some delivery) :
    ∃ handler, cluster.member? index = some handler ∧ ∀ other,
      (cluster.act index .handle).network.published other = cluster.network.published other ++
        if delivery.isOnline ∧ other = topic then
          [PositionMessage.encode ⟨.positionChange, handler.service.table⟩] else [] := by
  rw [handledBy, Option.bind_eq_some_iff] at handles
  obtain ⟨handler, present, isNext⟩ := handles
  rw [Option.ite_none_right_eq_some] at isNext
  obtain ⟨onTopic, isNext⟩ := isNext
  obtain ⟨_, _, _, becomes⟩ := becomes_of_nextDelivery? orderly.within present isNext
  refine ⟨handler, present, fun other => ?_⟩
  have viewTopic : (handler.view cluster.network).topic = topic := onTopic
  rw [becomes.published other, PositionTable.answer_eq]
  by_cases online : delivery.isOnline = true
  · simp [online, viewTopic]
  · simp [online]

/-- Whatever workers have done and others have published, and however late some have fetched it: when
nobody does anything but handle what is on a topic, and nothing is lost from now on, the number of
deliveries that are handled until nothing is outstanding does not depend on who handles what when. -/
theorem gossip_dies_out {start reached : Cluster}
    (resting : ∀ member ∈ start.members, member.isResting) {events : List Event}
    (isReached : start.history events = reached) (topic : String) {moves : List (Nat × Action)}
    (receiving : ∀ move ∈ moves, move.2.receives) (lagFree : reached.isLagFree moves) :
    let outstanding := reached.outstandingOn topic
    let workers := (reached.receivers topic).length
    let total := outstanding.countP (fun delivery => !delivery.isOnline) +
      outstanding.countP Delivery.isOnline * (workers + 1)
    let final := reached.run moves
    let handled := handledOn topic reached moves
    handled.length ≤ total ∧
      (final.outstandingOn topic = [] ↔ handled.length = total) ∧
      (handled.length < total →
        ∃ index, (handledOn topic final [(index, .fetch), (index, .handle)]).length = 1) ∧
      ∀ index delivery, final.handledBy topic index .handle = some delivery →
        ∃ handler, final.member? index = some handler ∧ ∀ other,
          (final.act index .handle).network.published other = final.network.published other ++
            if delivery.isOnline ∧ other = topic then
              [PositionMessage.encode ⟨.positionChange, handler.service.table⟩] else [] := by
  intro outstanding workers total final handled
  have orderly : reached.IsOrderly := by
    rw [← isReached]
    exact (isOrderly_of_isResting resting).history events
  have orderlyThen : final.IsOrderly := orderly.run moves
  have counted : final.weight workers topic + handled.length = total := by
    rw [(orderly.weight_run receiving lagFree).2, weight_eq, sum_weight]
  have nothingLeft : final.outstandingOn topic = [] ↔ handled.length = total := by
    rw [← weight_eq_zero_iff workers]
    omega
  refine ⟨by omega, nothingLeft, ?_, ?_⟩
  · intro notAll
    apply orderlyThen.exists_handledOn
    rw [Ne, nothingLeft]
    omega
  · intro index delivery handles
    exact orderlyThen.published_of_handledBy handles

/-- Two workers whose starts overlap hear two announcements each, and something that nobody can read. -/
theorem gossip_of_overlapping_starts :
    let start := sample .empty [.inMemory, .inMemory]
    let events : List Event := [.act 0 .beginStart, .act 1 .beginStart, .act 0 .joinLog,
      .act 1 .joinLog, .act 0 .finishStart, .act 1 .finishStart, .publish "positions" [0]]
    let reached := start.history events
    let moves : List (Nat × Action) := [(0, .fetch)] ++ List.replicate 3 (0, .handle) ++
      [(1, .fetch)] ++ List.replicate 5 (1, .handle) ++ [(0, .fetch)] ++
      List.replicate 4 (0, .handle) ++ [(1, .fetch)] ++ List.replicate 2 (1, .handle)
    (handledOn "positions" reached moves).length = 2 + 4 * (2 + 1) := by
  intro start events reached moves
  have conditions : (∀ member ∈ start.members, member.isResting) ∧
      (∀ move ∈ moves, move.2.receives) ∧ reached.isLagFree moves ∧
      (reached.outstandingOn "positions").countP (fun delivery => !delivery.isOnline) = 2 ∧
      (reached.outstandingOn "positions").countP Delivery.isOnline = 4 ∧
      (reached.receivers "positions").length = 2 ∧
      ((reached.run moves).outstandingOn "positions").length = 0 := by
    decide +kernel
  obtain ⟨resting, receiving, lagFree, others, online, workers, nothingLeft⟩ := conditions
  obtain ⟨_, ends, _⟩ := gossip_dies_out resting rfl "positions" receiving lagFree
  rw [ends.1 (List.eq_nil_of_length_eq_zero nothingLeft), others, online, workers]

end Cluster

end PositionSync
