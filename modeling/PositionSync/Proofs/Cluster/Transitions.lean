import PositionSync.Proofs.Cluster.Views

/-!
# Every action is a change of one view

An action of a worker changes the worker's own view in one of a few ways, and what it sends is heard on
its topic. Whatever holds along a run can therefore be shown on views, one way at a time.
-/

namespace PositionSync

namespace View

theorem hear_nil (view : View) (topic : String) : view.hear topic [] = view := by
  rw [hear]
  split
  · cases view with
    | mk topic lifecycle table pending backlog =>
        cases backlog with
        | none => rfl
        | some backlog =>
            simp only [List.map_nil, List.append_nil, Option.map_some]
  · rfl

end View

namespace Cluster

variable {cluster : Cluster} {index : Nat} {member : Member}

private theorem map_hear_nil (view? : Option View) (topic : String) :
    (view?.map fun view => view.hear topic []) = view? := by
  cases view? with
  | none => rfl
  | some view => exact congrArg some (view.hear_nil topic)

private theorem becomes_rest (within : cluster.IsWithin)
    (present : cluster.member? index = some member) {after : Cluster}
    (sameNetwork : after.network = cluster.network)
    (sameMembers : after.members = cluster.members) :
    cluster.Becomes after index (member.view cluster.network) [] := by
  refine ⟨?_, ?_, ?_⟩
  · intro other isMember
    rw [sameMembers] at isMember
    rw [sameNetwork]
    exact within other isMember
  · intro other
    rw [map_hear_nil, view?, member?, sameMembers, sameNetwork]
    by_cases same : other = index
    · rw [if_pos same, same, ← member?, present, Option.map_some]
    · rw [if_neg same]
      rfl
  · intro topic
    rw [sameNetwork]
    simp

private theorem isWithin_of_sameLog (within : cluster.IsWithin)
    (present : cluster.member? index = some member) {next : Member}
    (sameLog : next.log = member.log) : next.IsWithin cluster.network := by
  have memberWithin : member.IsWithin cluster.network :=
    within member (List.mem_of_getElem? present)
  rw [Member.IsWithin, sameLog]
  exact memberWithin

private theorem becomes_setMember (within : cluster.IsWithin)
    (present : cluster.member? index = some member) {next : Member}
    (sameLog : next.log = member.log) :
    cluster.Becomes (cluster.setMember index next) index (next.view cluster.network) [] := by
  rw [← update_same_network]
  exact becomes_update within present (isWithin_of_sameLog within present sameLog) []

private theorem becomes_withLog (within : cluster.IsWithin)
    (present : cluster.member? index = some member) (service : Service)
    (sent : List PositionMessage) :
    cluster.Becomes
      (cluster.withLog index member
        (service, cluster.network.sendAll member.log.topic sent, member.log))
      index (Member.view { member with service } cluster.network) sent := by
  let next : Member := { member with service }
  have nextWithin : next.IsWithin cluster.network := isWithin_of_sameLog within present rfl
  exact becomes_update within present nextWithin sent

/-- What an action leads to, whatever the action is. -/
def ActsOn (cluster : Cluster) (index : Nat) (member : Member) (action : Action) : Prop :=
  ∃ next sent, (member.view cluster.network).Acts action next sent ∧
    cluster.Becomes (cluster.actMember index member action) index next sent

private theorem actsOn_rest (within : cluster.IsWithin)
    (present : cluster.member? index = some member) {action : Action}
    (mayRest : action.mayRest)
    (sameNetwork : (cluster.actMember index member action).network = cluster.network)
    (sameMembers : (cluster.actMember index member action).members = cluster.members) :
    cluster.ActsOn index member action :=
  ⟨_, _, .rest action mayRest, becomes_rest within present sameNetwork sameMembers⟩

private theorem actsOn_same (within : cluster.IsWithin)
    (present : cluster.member? index = some member) {action : Action}
    (mayRest : action.mayRest) (same : cluster.actMember index member action = cluster) :
    cluster.ActsOn index member action :=
  actsOn_rest within present mayRest (by rw [same]) (by rw [same])

private theorem actsOn_load (within : cluster.IsWithin)
    (present : cluster.member? index = some member) :
    cluster.ActsOn index member .load := by
  rcases member.service.load_cases cluster.files with ⟨error, failed⟩ | ⟨table, loaded⟩
  · apply actsOn_same within present rfl
    rw [actMember, failed]
  · refine ⟨_, _, .load table, ?_⟩
    rw [actMember, loaded]
    exact becomes_setMember within present rfl

private theorem actsOn_beginStart (within : cluster.IsWithin)
    (present : cluster.member? index = some member) :
    cluster.ActsOn index member .beginStart := by
  cases stage : member.service.lifecycle with
  | stopped =>
      rcases member.service.load_cases cluster.files with ⟨error, failed⟩ | ⟨table, loaded⟩
      · apply actsOn_same within present rfl
        simp only [actMember, Service.beginStart, stage, failed, Except.map]
      · refine ⟨_, _, .beginStart stage table, ?_⟩
        simp only [actMember, Service.beginStart, stage, loaded, Except.map]
        exact becomes_setMember within present rfl
  | starting | running | stopping =>
      apply actsOn_same within present rfl
      simp only [actMember, Service.beginStart, stage]

private theorem actsOn_joinLog (within : cluster.IsWithin)
    (present : cluster.member? index = some member) :
    cluster.ActsOn index member .joinLog := by
  by_cases starting : member.service.lifecycle = .starting none
  · let tasks : Tasks := ⟨true, .start member.service.settings cluster.now⟩
    let next : Member :=
      { member with
        service := { member.service with lifecycle := .starting (some tasks) }
        log := member.log.subscribe cluster.network }
    have nextView : next.view cluster.network =
        { member.view cluster.network with
          lifecycle := .starting (some tasks), backlog := some [] } :=
      next.view_of_subscribe cluster.network rfl
    refine ⟨_, _, .joinLog starting tasks, ?_⟩
    rw [← nextView, actMember, if_pos starting]
    exact becomes_update within present (next.isWithin_of_subscribe cluster.network rfl) []
  · exact actsOn_same within present rfl (if_neg starting)

private theorem actsOn_finishStart (within : cluster.IsWithin)
    (present : cluster.member? index = some member) :
    cluster.ActsOn index member .finishStart := by
  cases stage : member.service.lifecycle with
  | starting tasks? =>
      cases tasks? with
      | some tasks =>
          refine ⟨_, _, .finishStart tasks stage, ?_⟩
          simp only [actMember, Service.finishStart, stage]
          exact becomes_withLog within present _ [⟨.online, member.service.table⟩]
      | none =>
          apply actsOn_same within present rfl
          simp only [actMember, stage]
  | stopped | running | stopping =>
      apply actsOn_same within present rfl
      simp only [actMember, stage]

private theorem actsOn_beginStop (within : cluster.IsWithin)
    (present : cluster.member? index = some member) :
    cluster.ActsOn index member .beginStop := by
  cases stage : member.service.lifecycle with
  | running tasks =>
      refine ⟨_, _, .beginStop tasks stage, ?_⟩
      simp only [actMember, Service.beginStop, stage]
      exact becomes_withLog within present _
        [⟨.positionChange, member.service.pendingPositions⟩]
  | stopped | starting | stopping =>
      apply actsOn_same within present rfl
      simp only [actMember, Service.beginStop, stage]

private theorem actsOn_finishStop (within : cluster.IsWithin)
    (present : cluster.member? index = some member) :
    cluster.ActsOn index member .finishStop := by
  by_cases stopping : member.service.lifecycle = .stopping none
  · refine ⟨_, _, .finishStop stopping, ?_⟩
    rw [actMember, if_pos stopping]
    have nextWithin : Member.IsWithin
        { member with
          service := { member.service with lifecycle := .stopped }
          log := member.log.unsubscribe } cluster.network := by
      intro subscription subscribed
      nomatch subscribed
    exact becomes_update within present nextWithin []
  · exact actsOn_same within present rfl (if_neg stopping)

private theorem actsOn_endTasks (within : cluster.IsWithin)
    (present : cluster.member? index = some member) :
    cluster.ActsOn index member .endTasks := by
  cases stage : member.service.lifecycle with
  | stopping tasks? =>
      cases tasks? with
      | some tasks =>
          refine ⟨_, _, .endTasks tasks stage, ?_⟩
          simp only [actMember, stage]
          exact becomes_setMember within present rfl
      | none =>
          apply actsOn_same within present rfl
          simp only [actMember, stage]
  | stopped | starting | running =>
      apply actsOn_same within present rfl
      simp only [actMember, stage]

theorem mapMember_eq_setMember (present : cluster.member? index = some member)
    (change : Member → Member) :
    cluster.mapMember index change = cluster.setMember index (change member) := by
  have sameMembers : cluster.members.modify index change =
      cluster.members.set index (change member) := by
    apply List.ext_getElem?
    intro other
    rw [List.getElem?_modify, List.getElem?_set]
    by_cases same : index = other
    · obtain ⟨inRange, isMember⟩ := List.getElem?_eq_some_iff.1 present
      subst same
      simp [inRange, isMember]
    · simp [same]
  rw [mapMember, setMember, sameMembers]

/-- Fetching shows nothing new: what is fetched was already to be handled. -/
private theorem view_fetch (present : cluster.member? index = some member)
    (kept : cluster.hasKept index) :
    Member.view { member with log := member.log.fetch cluster.network } cluster.network =
      member.view cluster.network := by
  unfold Member.view LocalLog.fetch
  cases subscribed : member.log.subscription with
  | none => rfl
  | some subscription =>
      have keptAll : cluster.network.publishedCount member.log.topic ≤
          subscription.cursor + cluster.network.capacity := by
        rw [hasKept, present, Option.all_some, subscribed, Option.all_some] at kept
        exact of_decide_eq_true kept
      simp only [Option.map_some, Subscription.backlog_fetch keptAll]

private theorem actsOn_fetch (within : cluster.IsWithin)
    (present : cluster.member? index = some member) (kept : cluster.hasKept index) :
    cluster.ActsOn index member .fetch := by
  let next : Member := { member with log := member.log.fetch cluster.network }
  have fetched : cluster.actMember index member .fetch = cluster.setMember index next :=
    mapMember_eq_setMember present _
  have memberWithin : member.IsWithin cluster.network :=
    within member (List.mem_of_getElem? present)
  have nextWithin : next.IsWithin cluster.network := by
    intro subscription subscribed
    obtain ⟨before, subscribedBefore, same⟩ := Option.map_eq_some_iff.1 subscribed
    rw [← same]
    exact Subscription.cursor_fetch_le (memberWithin before subscribedBefore)
  refine ⟨_, _, .rest .fetch rfl, ?_⟩
  rw [fetched, ← view_fetch present kept, ← update_same_network]
  exact becomes_update within present nextWithin []

theorem update_setMember (first second : Member) (network : Network) :
    (cluster.setMember index first).update index second network =
      cluster.update index second network := by
  simp only [update, setMember, List.set_set]

/-- Handling a delivery that has been taken out of the inbox. -/
theorem handleNext_eq (present : cluster.member? index = some member)
    {delivery : Delivery} {later : Subscription}
    (taken : member.log.subscription.bind Subscription.next? = some (delivery, later)) :
    ∃ listeners notified, cluster.handleNext index = cluster.update index
      { member with
        log := { member.log with subscription := some later }
        service :=
          { member.service with
            store := { member.service.store with table := member.service.table.absorb delivery }
            listeners }
        notified }
      (cluster.network.sendAll member.log.topic (member.service.table.answer delivery)) := by
  let log : LocalLog := { member.log with subscription := some later }
  obtain ⟨inRange, _⟩ := List.getElem?_eq_some_iff.1 present
  have presentTaken :
      (cluster.setMember index { member with log }).member? index = some { member with log } := by
    rw [member?, setMember, List.getElem?_set, if_pos rfl, if_pos inRange]
  obtain ⟨listeners, sameService, sameWorld⟩ :=
    member.service.handleDelivery_spec LocalLog.replicated (cluster.network, log) delivery
  rw [LocalLog.sendAll_replicated] at sameWorld
  refine ⟨listeners, member.notified + (member.service.handleDelivery LocalLog.replicated delivery
    (cluster.network, log)).called.length, ?_⟩
  rw [handleNext, present]
  simp only [taken]
  rw [handle, presentTaken]
  change ((cluster.setMember index _).update index _ _) = _
  rw [update_setMember]
  change cluster.update index
    { member with
      log := (member.service.handleDelivery LocalLog.replicated delivery
        (cluster.network, log)).world.2
      service := (member.service.handleDelivery LocalLog.replicated delivery
        (cluster.network, log)).service
      notified := _ }
    (member.service.handleDelivery LocalLog.replicated delivery
      (cluster.network, log)).world.1 = _
  rw [sameService, sameWorld]
  rfl

/-- A worker that handles its next delivery absorbs it, and sends the answer. -/
theorem becomes_handleNext (within : cluster.IsWithin)
    (present : cluster.member? index = some member) {delivery : Delivery} {later : Subscription}
    (taken : member.log.subscription.bind Subscription.next? = some (delivery, later)) :
    ∃ rest, (member.view cluster.network).backlog = some (delivery :: rest) ∧
      cluster.Becomes (cluster.handleNext index) index
        { member.view cluster.network with
          table := member.service.table.absorb delivery, backlog := some rest }
        (member.service.table.answer delivery) := by
  obtain ⟨subscription, subscribed, next⟩ := Option.bind_eq_some_iff.1 taken
  obtain ⟨splits, sameCursor⟩ :=
    Subscription.backlog_next? next cluster.network member.log.topic
  have backlog : (member.view cluster.network).backlog =
      some (delivery :: later.backlog cluster.network member.log.topic) := by
    rw [Member.view, subscribed, Option.map_some, splits]
  obtain ⟨listeners, notified, updated⟩ := handleNext_eq present taken
  have laterWithin : later.cursor ≤ cluster.network.publishedCount member.log.topic := by
    rw [sameCursor]
    exact within member (List.mem_of_getElem? present) subscription subscribed
  refine ⟨_, backlog, ?_⟩
  rw [updated]
  refine becomes_update within present ?_ (member.service.table.answer delivery)
  intro remaining same
  injection same with same
  rw [← same]
  exact laterWithin

private theorem actsOn_handle (within : cluster.IsWithin)
    (present : cluster.member? index = some member) :
    cluster.ActsOn index member .handle := by
  by_cases consuming : member.service.isConsuming = true
  · have handled : cluster.actMember index member .handle = cluster.handleNext index :=
      if_pos consuming
    cases taken : member.log.subscription.bind Subscription.next? with
    | none =>
        apply actsOn_same within present rfl
        rw [handled]
        simp only [handleNext, present, taken]
    | some result =>
        obtain ⟨rest, backlog, becomes⟩ := becomes_handleNext within present taken
        refine ⟨_, _, .handle result.1 rest backlog, ?_⟩
        rw [handled]
        exact becomes
  · exact actsOn_same within present rfl (if_neg consuming)

/-- Every action changes the view of its worker in one of the ways, as long as nothing is lost. -/
theorem actsOn (within : cluster.IsWithin) (present : cluster.member? index = some member)
    (action : Action) (kept : (!action.fetches || cluster.hasKept index) = true) :
    cluster.ActsOn index member action := by
  cases action with
  | put partition offset =>
      exact ⟨_, _, .put partition offset, becomes_setMember within present rfl⟩
  | putMany positions =>
      exact ⟨_, _, .putMany positions, becomes_setMember within present rfl⟩
  | remove partitions =>
      exact ⟨_, _, .remove partitions, becomes_setMember within present rfl⟩
  | synchronize =>
      exact ⟨_, _, .synchronize, becomes_withLog within present _
        [⟨.positionChange, member.service.pendingPositions⟩]⟩
  | persist moment => exact actsOn_rest within present rfl rfl rfl
  | load => exact actsOn_load within present
  | beginStart => exact actsOn_beginStart within present
  | joinLog => exact actsOn_joinLog within present
  | finishStart => exact actsOn_finishStart within present
  | beginStop => exact actsOn_beginStop within present
  | endTasks => exact actsOn_endTasks within present
  | finishStop => exact actsOn_finishStop within present
  | fetch => exact actsOn_fetch within present kept
  | handle => exact actsOn_handle within present
  | changeFiles files => exact actsOn_rest within present rfl rfl rfl

/-- What every allowed change of one view preserves holds after every run of allowed moves. -/
theorem run_invariant (allowed : Nat × Action → Prop) (holds : Cluster → Prop)
    (preserved : ∀ {before after : Cluster} {index : Nat} {action : Action} {view next : View}
      {sent : List PositionMessage}, holds before → allowed (index, action) →
      before.view? index = some view → view.Acts action next sent →
      before.Becomes after index next sent → holds after)
    (within : cluster.IsWithin) (starts : holds cluster) {moves : List (Nat × Action)}
    (areAllowed : ∀ move ∈ moves, allowed move) (lagFree : cluster.isLagFree moves) :
    (cluster.run moves).IsWithin ∧ holds (cluster.run moves) := by
  induction moves generalizing cluster with
  | nil => exact ⟨within, starts⟩
  | cons move later ih =>
      obtain ⟨index, action⟩ := move
      obtain ⟨kept, lagFreeLater⟩ := (Bool.and_eq_true _ _).mp lagFree
      have allowedLater : ∀ move ∈ later, allowed move := fun move isLater =>
        areAllowed move (List.mem_cons_of_mem _ isLater)
      have movesOn : (cluster.act index action).IsWithin ∧ holds (cluster.act index action) := by
        cases present : cluster.member? index with
        | none =>
            have same : cluster.act index action = cluster := by
              rw [act, present]
            rw [same]
            exact ⟨within, starts⟩
        | some member =>
            have acted : cluster.act index action = cluster.actMember index member action := by
              rw [act, present]
            obtain ⟨next, sent, acts, becomes⟩ := actsOn within present action kept
            have viewed : cluster.view? index = some (member.view cluster.network) := by
              rw [view?, present, Option.map_some]
            rw [acted]
            exact ⟨becomes.within,
              preserved starts (areAllowed _ List.mem_cons_self) viewed acts becomes⟩
      exact ih movesOn.1 movesOn.2 allowedLater lagFreeLater

end Cluster

/-- Whether a worker at some stage is subscribed to its topic. -/
def Lifecycle.isJoined : Lifecycle → Bool
  | .stopped | .starting none => false
  | .starting (some _) | .running _ | .stopping _ => true

namespace View

variable {view next : View} {action : Action} {sent : List PositionMessage}

/-- A worker is subscribed if and only if it should be. -/
def IsSubscribed (view : View) : Prop := view.backlog.isSome = view.lifecycle.isJoined

theorem Acts.topic_eq (acts : view.Acts action next sent) : next.topic = view.topic := by
  cases acts with
  | _ => rfl

theorem Acts.isSubscribed (acts : view.Acts action next sent)
    (subscribed : view.IsSubscribed) : next.IsSubscribed := by
  unfold IsSubscribed at subscribed ⊢
  cases acts with
  | rest | put | putMany | remove | synchronize | load => exact subscribed
  | joinLog | finishStop => rfl
  | beginStart stage | finishStart tasks stage | beginStop tasks stage | endTasks tasks stage =>
      rw [stage] at subscribed
      exact subscribed
  | handle delivery rest isNext =>
      rw [isNext] at subscribed
      exact subscribed

theorem hear_topic (view : View) (topic : String) (messages : List PositionMessage) :
    (view.hear topic messages).topic = view.topic := by
  rw [hear]
  split
  · rfl
  · rfl

theorem hear_lifecycle (view : View) (topic : String) (messages : List PositionMessage) :
    (view.hear topic messages).lifecycle = view.lifecycle := by
  rw [hear]
  split
  · rfl
  · rfl

theorem hear_table (view : View) (topic : String) (messages : List PositionMessage) :
    (view.hear topic messages).table = view.table := by
  rw [hear]
  split
  · rfl
  · rfl

theorem backlog_hear_self (view : View) (messages : List PositionMessage) :
    (view.hear view.topic messages).backlog =
      view.backlog.map fun backlog => backlog ++ messages.map .ok := by
  rw [hear, if_pos rfl]

theorem hear_of_ne {view : View} {topic : String} (differs : view.topic ≠ topic)
    (messages : List PositionMessage) : view.hear topic messages = view :=
  if_neg differs

theorem isSubscribed_hear (subscribed : view.IsSubscribed) (topic : String)
    (messages : List PositionMessage) : (view.hear topic messages).IsSubscribed := by
  unfold IsSubscribed at subscribed ⊢
  rw [hear_lifecycle, hear]
  split
  · rw [Option.isSome_map]
    exact subscribed
  · exact subscribed

end View

namespace Cluster

variable {cluster : Cluster} {index : Nat}

/-- Whether exactly those workers are subscribed that should be. -/
def IsSubscribed (cluster : Cluster) : Prop :=
  ∀ index view, cluster.view? index = some view → view.IsSubscribed

/-- After a change, a worker has heard what was sent. It is the worker that has changed, or it stands
where it was. -/
theorem Becomes.view_cases {before after : Cluster} {next : View} {sent : List PositionMessage}
    (becomes : before.Becomes after index next sent) {other : Nat} {final : View}
    (viewed : after.view? other = some final) :
    ∃ standing : View, final = standing.hear next.topic sent ∧
      (other = index ∧ standing = next ∨
        other ≠ index ∧ before.view? other = some standing) := by
  rw [becomes.views] at viewed
  obtain ⟨standing, isStanding, heard⟩ := Option.map_eq_some_iff.1 viewed
  refine ⟨standing, heard.symm, ?_⟩
  by_cases same : other = index
  · rw [if_pos same] at isStanding
    injection isStanding with isNext
    exact .inl ⟨same, isNext.symm⟩
  · rw [if_neg same] at isStanding
    exact .inr ⟨same, isStanding⟩

theorem Becomes.isSubscribed {before after : Cluster} {action : Action} {view next : View}
    {sent : List PositionMessage} (subscribed : before.IsSubscribed)
    (viewed : before.view? index = some view) (acts : view.Acts action next sent)
    (becomes : before.Becomes after index next sent) : after.IsSubscribed := by
  intro other final viewedAfter
  obtain ⟨standing, heard, ⟨_, isNext⟩ | ⟨_, isStanding⟩⟩ := becomes.view_cases viewedAfter
  · rw [heard, isNext]
    exact View.isSubscribed_hear (acts.isSubscribed (subscribed index view viewed)) _ _
  · rw [heard]
    exact View.isSubscribed_hear (subscribed other standing isStanding) _ _

theorem Becomes.deliveries {before after : Cluster} {next : View}
    {sent : List PositionMessage} (becomes : before.Becomes after index next sent)
    (topic : String) :
    after.network.deliveries topic = before.network.deliveries topic ++
      if topic = next.topic then sent.map .ok else [] := by
  rw [Network.deliveries, becomes.published, List.map_append]
  by_cases same : topic = next.topic
  · simp only [same, if_true, PositionMessage.map_decode_map_encode]
    rfl
  · simp only [same, if_false, List.map_nil]
    rfl

/-- Whether every worker has still to handle the end of its topic. -/
def IsInOrder (cluster : Cluster) : Prop :=
  ∀ index view backlog, cluster.view? index = some view → view.backlog = some backlog →
    backlog <:+ cluster.network.deliveries view.topic

private theorem isSuffix_of_acts {view next : View} {action : Action}
    {sent : List PositionMessage} {deliveries : List Delivery}
    (acts : view.Acts action next sent)
    (inOrder : ∀ backlog, view.backlog = some backlog → backlog <:+ deliveries)
    {backlog : List Delivery} (isBacklog : next.backlog = some backlog) :
    backlog <:+ deliveries := by
  cases acts with
  | rest | put | putMany | remove | synchronize | load | beginStart | finishStart | beginStop
  | endTasks => exact inOrder backlog isBacklog
  | joinLog =>
      injection isBacklog with isEmpty
      rw [← isEmpty]
      exact List.nil_suffix
  | finishStop => nomatch isBacklog
  | handle delivery rest isNext =>
      injection isBacklog with isRest
      rw [← isRest]
      exact (List.suffix_cons delivery rest).trans (inOrder _ isNext)

theorem Becomes.isInOrder {before after : Cluster} {action : Action} {view next : View}
    {sent : List PositionMessage} (inOrder : before.IsInOrder)
    (viewed : before.view? index = some view) (acts : view.Acts action next sent)
    (becomes : before.Becomes after index next sent) : after.IsInOrder := by
  intro other final backlog viewedAfter isBacklog
  obtain ⟨standing, heard, isStanding⟩ := becomes.view_cases viewedAfter
  have standsInOrder {remaining : List Delivery}
      (isRemaining : standing.backlog = some remaining) :
      remaining <:+ before.network.deliveries standing.topic := by
    rcases isStanding with ⟨_, isNext⟩ | ⟨_, stays⟩
    · rw [isNext] at isRemaining ⊢
      rw [acts.topic_eq]
      exact isSuffix_of_acts acts (fun backlog => inOrder index view backlog viewed) isRemaining
    · exact inOrder other standing remaining stays isRemaining
  rw [heard, View.hear_topic, becomes.deliveries]
  rw [heard, View.hear] at isBacklog
  by_cases same : standing.topic = next.topic
  · rw [if_pos same] at isBacklog ⊢
    obtain ⟨remaining, isRemaining, together⟩ := Option.map_eq_some_iff.1 isBacklog
    obtain ⟨handled, isLog⟩ := standsInOrder isRemaining
    rw [← together, ← isLog]
    exact ⟨handled, (List.append_assoc _ _ _).symm⟩
  · rw [if_neg same] at isBacklog ⊢
    rw [List.append_nil]
    exact standsInOrder isBacklog

end Cluster

end PositionSync
