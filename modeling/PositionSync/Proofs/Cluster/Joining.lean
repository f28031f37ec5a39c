import PositionSync.Proofs.Cluster.Outlook
import PositionSync.Source.Position

/-!
# A worker joins

When a worker joins workers that agree and have nothing pending, everyone hears its announcement before
anything else, and answers it with the table that it had: the others with the table that they share, the
newcomer with the one that it has read from its file. All of them merge all answers in the order in which
the announcement was handled. So the shared table prevails over what the newcomer has read, unless the
newcomer is the last to answer.
-/

namespace PositionSync

def Action.receives : Action → Bool
  | .fetch | .handle => true
  | _ => false

namespace PositionTable

/-- Where all deliveries that say something about a partition say the same, it is what is said last. -/
theorem lastSaid?_of_unanimous {deliveries : List Delivery} {partition : Partition}
    {entry : Option Offset}
    (unanimous : ∀ delivery ∈ deliveries, told? partition delivery = none ∨
      told? partition delivery = entry)
    (someone : ∃ delivery ∈ deliveries, told? partition delivery = entry) :
    lastSaid? deliveries partition = entry := by
  induction deliveries with
  | nil =>
      obtain ⟨delivery, isMember, _⟩ := someone
      nomatch isMember
  | cons first rest ih =>
      have restUnanimous : ∀ delivery ∈ rest, told? partition delivery = none ∨
          told? partition delivery = entry := fun delivery isMember =>
        unanimous delivery (List.mem_cons_of_mem first isMember)
      rw [lastSaid?_cons]
      by_cases later : ∃ delivery ∈ rest, told? partition delivery = entry
      · rw [ih restUnanimous later]
        rcases unanimous first List.mem_cons_self with silent | same
        · rw [silent, Option.or_none]
        · rw [same, Option.or_self]
      · have restSilent : lastSaid? rest partition = none :=
          lastSaid?_eq_none_iff.2 fun delivery isMember =>
            (restUnanimous delivery isMember).resolve_right fun told =>
              later ⟨delivery, isMember, told⟩
        obtain ⟨delivery, isMember, told⟩ := someone
        rcases List.mem_cons.1 isMember with isFirst | isLater
        · rw [restSilent, ← isFirst, told, Option.none_or]
        · exact absurd ⟨delivery, isLater, told⟩ later

end PositionTable

namespace View

open PositionTable

variable {view : View} {log : List Delivery} {start : PositionTable} {count : Nat}

/-- A worker that began with a table has handled the first deliveries of a log, and has still to handle
the others. -/
structure HasHandled (view : View) (log : List Delivery) (start : PositionTable) (count : Nat) :
    Prop where
  within : count ≤ log.length
  backlog_eq : view.backlog = some (log.drop count)
  table_eq : view.table = (log.take count).foldl absorb start

theorem HasHandled.hear (handled : view.HasHandled log start count)
    (sent : List PositionMessage) :
    (view.hear view.topic sent).HasHandled (log ++ sent.map .ok) start count := by
  refine ⟨?_, ?_, ?_⟩
  · rw [List.length_append]
    exact Nat.le_add_right_of_le handled.within
  · rw [backlog_hear_self, handled.backlog_eq, Option.map_some,
      List.drop_append_of_le_length handled.within]
  · rw [hear_table, List.take_append_of_le_length handled.within, handled.table_eq]

theorem HasHandled.handle (handled : view.HasHandled log start count) {delivery : Delivery}
    {rest : List Delivery} (next : view.backlog = some (delivery :: rest)) :
    log[count]? = some delivery ∧
      HasHandled { view with table := view.table.absorb delivery, backlog := some rest } log
        start (count + 1) := by
  rw [handled.backlog_eq] at next
  injection next with splits
  have isNext : log[count]? = some delivery := by
    rw [← List.head?_drop, splits]
    rfl
  obtain ⟨inRange, isDelivery⟩ := List.getElem?_eq_some_iff.1 isNext
  refine ⟨isNext, inRange, ?_, ?_⟩
  · rw [← List.tail_drop, splits]
    rfl
  · rw [List.take_add_one, isNext, List.foldl_append, ← handled.table_eq]
    rfl

end View

/-- What a worker joins: its topic, its number, the table that the others share, and the one that it has
read. -/
structure Joining where
  topic : String
  joiner : Nat
  shared : PositionTable
  loaded : PositionTable

namespace Joining

/-- The table that a worker has when the newcomer announces itself. -/
def table (joining : Joining) (index : Nat) : PositionTable :=
  if index = joining.joiner then joining.loaded else joining.shared

/-- The announcement, and the answers of workers in some order. -/
def messages (joining : Joining) (order : List Nat) : List PositionMessage :=
  ⟨.online, joining.loaded⟩ :: order.map fun index => ⟨.positionChange, joining.table index⟩

theorem messages_concat (joining : Joining) (order : List Nat) (index : Nat) :
    joining.messages (order ++ [index]) =
      joining.messages order ++ [⟨.positionChange, joining.table index⟩] := by
  rw [messages, List.map_append]
  rfl

def Runs (joining : Joining) (cluster : Cluster) (index : Nat) : Prop :=
  ∃ view, cluster.view? index = some view ∧ view.topic = joining.topic ∧ view.IsRunning

/-- What has happened when the workers of an order have answered, on top of an earlier log. -/
structure Answered (joining : Joining) (runs : Nat → Prop) (earlier : List Payload)
    (order : List Nat) (cluster : Cluster) : Prop where
  subscribed : cluster.IsSubscribed
  nodup : order.Nodup
  published : cluster.network.published joining.topic =
    earlier ++ (joining.messages order).map PositionMessage.encode
  running : ∀ index, joining.Runs cluster index ↔ runs index
  answering : ∀ index ∈ order, runs index
  stage : ∀ index view, cluster.view? index = some view → view.topic = joining.topic →
    view.lifecycle = .stopped ∨ view.IsRunning
  handled : ∀ index view, cluster.view? index = some view → view.topic = joining.topic →
    view.IsRunning → ∃ count,
      view.HasHandled ((joining.messages order).map .ok) (joining.table index) count ∧
        (index ∈ order ↔ 0 < count)

/-- A delivery in the log is the announcement if and only if it is the first one. -/
private theorem answer_of_getElem? {joining : Joining} {order : List Nat} {count : Nat}
    {delivery : Delivery}
    (isNext : ((joining.messages order).map Except.ok)[count]? = some delivery)
    (table : PositionTable) :
    table.answer delivery = if count = 0 then [⟨.positionChange, table⟩] else [] := by
  cases count with
  | zero =>
      injection isNext with isOnline
      rw [← isOnline]
      rfl
  | succ count =>
      rw [messages, List.map_cons, List.getElem?_cons_succ, List.getElem?_map] at isNext
      obtain ⟨message, isMessage, same⟩ := Option.map_eq_some_iff.1 isNext
      rw [List.getElem?_map] at isMessage
      obtain ⟨index, _, isChange⟩ := Option.map_eq_some_iff.1 isMessage
      rw [← same, ← isChange]
      rfl

section Step

variable {joining : Joining} {runs : Nat → Prop} {earlier : List Payload} {order : List Nat}
  {before after : Cluster} {index : Nat} {action : Action} {view next : View}
  {sent : List PositionMessage}

private theorem runs_iff (viewed : before.view? index = some view)
    (acts : view.Acts action next sent) (sameStage : next.lifecycle = view.lifecycle)
    (becomes : before.Becomes after index next sent) (other : Nat) :
    joining.Runs after other ↔ joining.Runs before other := by
  have sameRuns (standing : View) (topic : String) :
      (standing.hear topic sent).IsRunning ↔ standing.IsRunning := by
    rw [View.IsRunning, View.hear_lifecycle, View.IsRunning]
  have nextRuns : next.IsRunning ↔ view.IsRunning := by
    rw [View.IsRunning, sameStage, View.IsRunning]
  unfold Runs
  rw [becomes.views]
  by_cases same : other = index
  · rw [if_pos same, same, viewed]
    simp [sameRuns, nextRuns, View.hear_topic, acts.topic_eq]
  · rw [if_neg same]
    cases before.view? other with
    | none => simp
    | some standing => simp [sameRuns, View.hear_topic]

/-- What has happened after one more action, in which some worker may have answered. -/
private theorem Answered.extend (answered : joining.Answered runs earlier order before)
    (viewed : before.view? index = some view) (acts : view.Acts action next sent)
    (sameStage : next.lifecycle = view.lifecycle)
    (becomes : before.Becomes after index next sent) {longer : List Nat}
    (nodup : longer.Nodup) (answering : ∀ other ∈ longer, runs other)
    (sameOthers : ∀ other, other ≠ index → (other ∈ longer ↔ other ∈ order))
    (messages_eq : joining.messages longer = joining.messages order ++
      if joining.topic = next.topic then sent else [])
    (moverHandled : next.topic = joining.topic → next.IsRunning → ∃ count,
      next.HasHandled ((joining.messages order).map .ok) (joining.table index) count ∧
        (index ∈ longer ↔ 0 < count)) :
    joining.Answered runs earlier longer after := by
  refine ⟨becomes.isSubscribed answered.subscribed viewed acts, nodup, ?_, ?_, answering, ?_,
    ?_⟩
  · rw [becomes.published, answered.published, messages_eq, List.map_append, List.append_assoc]
    split
    · rfl
    · rfl
  · intro other
    rw [runs_iff viewed acts sameStage becomes, answered.running]
  · intro other final viewedAfter onTopic
    obtain ⟨standing, heard, isStanding⟩ := becomes.view_cases viewedAfter
    subst heard
    rw [View.hear_topic] at onTopic
    rw [View.IsRunning, View.hear_lifecycle]
    rcases isStanding with ⟨_, isNext⟩ | ⟨_, stays⟩
    · rw [isNext, sameStage]
      rw [isNext, acts.topic_eq] at onTopic
      exact answered.stage index view viewed onTopic
    · exact answered.stage other standing stays onTopic
  · intro other final viewedAfter onTopic runsAfter
    obtain ⟨standing, heard, isStanding⟩ := becomes.view_cases viewedAfter
    subst heard
    rw [View.hear_topic] at onTopic
    have standingRuns : standing.IsRunning := View.isRunning_of_hear runsAfter
    have standingHandled : ∃ count,
        standing.HasHandled ((joining.messages order).map .ok) (joining.table other) count ∧
          (other ∈ longer ↔ 0 < count) := by
      rcases isStanding with ⟨same, isNext⟩ | ⟨differs, stays⟩
      · subst same isNext
        exact moverHandled onTopic standingRuns
      · rw [sameOthers other differs]
        exact answered.handled other standing stays onTopic standingRuns
    obtain ⟨count, handled, answeredIff⟩ := standingHandled
    refine ⟨count, ?_, answeredIff⟩
    rw [messages_eq]
    by_cases hears : standing.topic = next.topic
    · rw [if_pos (onTopic.symm.trans hears), List.map_append, ← hears]
      exact handled.hear sent
    · rw [View.hear_of_ne hears, if_neg fun same => hears (onTopic.trans same), List.append_nil]
      exact handled

/-- Handling the announcement is answering, and handling an answer is not. -/
private theorem Answered.handle (answered : joining.Answered runs earlier order before)
    (viewed : before.view? index = some view) {delivery : Delivery} {rest : List Delivery}
    (isNext : view.backlog = some (delivery :: rest))
    (becomes : before.Becomes after index
      { view with table := view.table.absorb delivery, backlog := some rest }
      (view.table.answer delivery)) :
    ∃ longer, joining.Answered runs earlier longer after := by
  have acts := View.Acts.handle delivery rest isNext
  by_cases onTopic : view.topic = joining.topic
  · have running : view.IsRunning := by
      refine (answered.stage index view viewed onTopic).resolve_left fun stopped => ?_
      have unsubscribed := answered.subscribed index view viewed
      rw [View.IsSubscribed, isNext, stopped] at unsubscribed
      cases unsubscribed
    obtain ⟨count, handled, answeredIff⟩ :=
      answered.handled index view viewed onTopic running
    obtain ⟨isDelivery, handledNext⟩ := handled.handle isNext
    have answer := answer_of_getElem? isDelivery view.table
    -- Only the announcement is answered, and it is what comes first in the log.
    cases count with
    | zero =>
        have notYet : index ∉ order := fun isMember =>
          Nat.lt_irrefl 0 (answeredIff.1 isMember)
        have ownTable : view.table = joining.table index := handled.table_eq
        refine ⟨order ++ [index], answered.extend viewed acts rfl becomes ?_ ?_ ?_ ?_ ?_⟩
        · refine List.nodup_append.2 ⟨answered.nodup, List.pairwise_singleton _ index, ?_⟩
          intro other isMember last isLast same
          rw [same, List.mem_singleton.1 isLast] at isMember
          exact notYet isMember
        · intro other isMember
          rcases List.mem_append.1 isMember with before | isIndex
          · exact answered.answering other before
          · rw [List.mem_singleton.1 isIndex]
            exact (answered.running index).1 ⟨view, viewed, onTopic, running⟩
        · intro other differs
          simp [differs]
        · rw [joining.messages_concat, if_pos onTopic.symm, answer, if_pos rfl, ownTable]
        · intro _ _
          exact ⟨1, handledNext, by simp⟩
    | succ count =>
        refine ⟨order, answered.extend viewed acts rfl becomes answered.nodup answered.answering
          (fun _ _ => Iff.rfl) ?_ ?_⟩
        · rw [answer, if_neg (Nat.succ_ne_zero count), ite_self, List.append_nil]
        · intro _ _
          refine ⟨count + 1 + 1, handledNext, ?_⟩
          rw [answeredIff]
          omega
  · refine ⟨order, answered.extend viewed acts rfl becomes answered.nodup answered.answering
      (fun _ _ => Iff.rfl) ?_ fun same => absurd same onTopic⟩
    rw [if_neg (Ne.symm onTopic), List.append_nil]

/-- Receiving makes at most one more worker answer. -/
theorem Answered.becomes (answered : joining.Answered runs earlier order before)
    (receives : action.receives) (viewed : before.view? index = some view)
    (acts : view.Acts action next sent) (becomes : before.Becomes after index next sent) :
    ∃ longer, joining.Answered runs earlier longer after := by
  cases acts with
  | rest action mayRest =>
      refine ⟨order, answered.extend viewed (.rest action mayRest) rfl becomes answered.nodup
        answered.answering (fun _ _ => Iff.rfl) ?_ (answered.handled index view viewed)⟩
      rw [ite_self, List.append_nil]
  | handle delivery rest isNext => exact answered.handle viewed isNext becomes
  | put | putMany | remove | synchronize | load | beginStart | joinLog | finishStart | beginStop
  | endTasks | finishStop => nomatch receives

end Step

end Joining

namespace Cluster

variable {cluster : Cluster} {index : Nat} {member : Member}

private theorem member?_setMember (present : cluster.member? index = some member)
    (next : Member) : (cluster.setMember index next).member? index = some next := by
  obtain ⟨inRange, _⟩ := List.getElem?_eq_some_iff.1 present
  rw [member?, setMember, List.getElem?_set, if_pos rfl, if_pos inRange]

private theorem setMember_setMember (first second : Member) :
    (cluster.setMember index first).setMember index second = cluster.setMember index second := by
  simp only [setMember, List.set_set]

private theorem act_beginStart (present : cluster.member? index = some member)
    (stopped : member.service.lifecycle = .stopped) {table : PositionTable}
    (loaded : (member.service.load cluster.files).map Service.table = .ok table) :
    cluster.act index .beginStart = cluster.setMember index
      { member with
        service :=
          { member.service with
            store := { member.service.store with table }, lifecycle := .starting none } } := by
  rcases member.service.load_cases cluster.files with ⟨error, failed⟩ | ⟨read, found⟩
  · rw [failed] at loaded
    nomatch loaded
  · rw [found] at loaded
    injection loaded with same
    rw [act, present, ← same]
    simp only [actMember, Service.beginStart, stopped, found, Except.map]
    rfl

private theorem act_joinLog (present : cluster.member? index = some member)
    (starting : member.service.lifecycle = .starting none) :
    cluster.act index .joinLog = cluster.setMember index
      { member with
        service :=
          { member.service with
            lifecycle := .starting (some ⟨true, .start member.service.settings cluster.now⟩) }
        log := member.log.subscribe cluster.network } := by
  rw [act, present]
  change (if _ then _ else _) = _
  rw [if_pos starting, ← update_same_network]
  rfl

private theorem act_finishStart (present : cluster.member? index = some member) {tasks : Tasks}
    (starting : member.service.lifecycle = .starting (some tasks)) :
    cluster.act index .finishStart = cluster.update index
      { member with service := { member.service with lifecycle := .running tasks } }
      (cluster.network.sendAll member.log.topic [⟨.online, member.service.table⟩]) := by
  rw [act, present]
  simp only [actMember, Service.finishStart, starting]
  rfl

/-- A start that nothing interrupts. -/
theorem becomes_start (within : cluster.IsWithin)
    (present : cluster.member? index = some member) (stopped : member.service.lifecycle = .stopped)
    {table : PositionTable}
    (loaded : (member.service.load cluster.files).map Service.table = .ok table) :
    ∃ tasks, cluster.Becomes (cluster.run (startMoves index)) index
      { member.view cluster.network with
        table, lifecycle := .running tasks, backlog := some [] }
      [⟨.online, table⟩] := by
  let tasks : Tasks := ⟨true, .start member.service.settings cluster.now⟩
  let store : Store := { member.service.store with table }
  let started : Member :=
    { member with
      service := { member.service with store, lifecycle := .running tasks }
      log := member.log.subscribe cluster.network }
  have reached : cluster.run (startMoves index) = cluster.update index started
      (cluster.network.sendAll started.log.topic [⟨.online, table⟩]) := by
    change ((cluster.act index .beginStart).act index .joinLog).act index .finishStart = _
    rw [act_beginStart present stopped loaded,
      act_joinLog (member?_setMember present _) rfl, setMember_setMember,
      act_finishStart (member?_setMember present _) rfl, update_setMember]
    rfl
  have startedView : started.view cluster.network =
      { member.view cluster.network with
        table, lifecycle := .running tasks, backlog := some [] } :=
    started.view_of_subscribe cluster.network rfl
  refine ⟨tasks, ?_⟩
  rw [reached, ← startedView]
  exact becomes_update within present (started.isWithin_of_subscribe cluster.network rfl)
    [⟨.online, table⟩]

end Cluster

namespace Joining

open Cluster PositionTable

variable {joining : Joining} {order : List Nat} {partition : Partition}

private theorem lastSaid?_answers {entry : Option Offset}
    (entries : ∀ index ∈ order, (joining.table index).get? partition = none ∨
      (joining.table index).get? partition = entry)
    {index : Nat} (isMember : index ∈ order)
    (isEntry : (joining.table index).get? partition = entry) :
    lastSaid? ((order.map fun index => (⟨.positionChange, joining.table index⟩ :
      PositionMessage)).map .ok) partition = entry := by
  rw [List.map_map]
  apply lastSaid?_of_unanimous
  · intro delivery isAnswer
    obtain ⟨other, isOther, same⟩ := List.mem_map.1 isAnswer
    rw [← same]
    exact entries other isOther
  · exact ⟨_, List.mem_map.2 ⟨index, isMember, rfl⟩, isEntry⟩

/-- What all answers together say about a partition, when the newcomer and somebody else have answered:
the last one to answer has the last word. -/
private theorem lastSaid?_messages (nodup : order.Nodup) (joinerAnswers : joining.joiner ∈ order)
    {other : Nat} (differs : other ≠ joining.joiner) (otherAnswers : other ∈ order) :
    lastSaid? ((joining.messages order).map .ok) partition =
      if order.getLast? = some joining.joiner then
        (joining.loaded.get? partition).or (joining.shared.get? partition)
      else (joining.shared.get? partition).or (joining.loaded.get? partition) := by
  have isLoaded : joining.table joining.joiner = joining.loaded := if_pos rfl
  have isShared {index : Nat} (differs : index ≠ joining.joiner) :
      joining.table index = joining.shared := if_neg differs
  have someAnswer : order ≠ [] := List.ne_nil_of_mem joinerAnswers
  obtain ⟨before, last, splits⟩ : ∃ before last, order = before ++ [last] :=
    ⟨_, _, (List.dropLast_concat_getLast someAnswer).symm⟩
  subst splits
  have isBefore {index : Nat} (answers : index ∈ before ++ [last]) (notLast : index ≠ last) :
      index ∈ before :=
    (List.mem_append.1 answers).resolve_right fun isLast => notLast (List.mem_singleton.1 isLast)
  rw [joining.messages_concat, List.map_append, lastSaid?_append, lastSaid?_singleton,
    List.getLast?_concat, messages, List.map_cons, lastSaid?_cons]
  change ((joining.table last).get? partition).or ((lastSaid? _ partition).or none) = _
  rw [Option.or_none]
  by_cases isLast : last = joining.joiner
  · have notJoiner : ∀ index ∈ before, index ≠ joining.joiner := by
      intro index isMember
      rw [← isLast]
      exact (List.nodup_append.1 nodup).2.2 index isMember last (List.mem_singleton_self last)
    have otherBefore : other ∈ before := isBefore otherAnswers (isLast ▸ differs)
    rw [if_pos (congrArg some isLast), isLast, isLoaded]
    congr 1
    refine lastSaid?_answers ?_ otherBefore (by rw [isShared differs])
    intro index isMember
    rw [isShared (notJoiner index isMember)]
    exact .inr rfl
  · have joinerBefore : joining.joiner ∈ before := isBefore joinerAnswers (Ne.symm isLast)
    rw [if_neg fun same => isLast (Option.some.inj same), isShared isLast]
    cases shared : joining.shared.get? partition with
    | some offset => rw [Option.some_or, Option.some_or]
    | none =>
        rw [Option.none_or, Option.none_or]
        refine lastSaid?_answers ?_ joinerBefore (by rw [isLoaded])
        intro index _
        by_cases isJoiner : index = joining.joiner
        · rw [isJoiner, isLoaded]
          exact .inr rfl
        · rw [isShared isJoiner]
          exact .inl shared

/-- When everybody has answered and handled all answers, the last one to answer has had the last word
everywhere. -/
private theorem get?_table_of_answered (nodup : order.Nodup)
    (joinerAnswers : joining.joiner ∈ order) {other : Nat} (differs : other ≠ joining.joiner)
    (otherAnswers : other ∈ order) (index : Nat) :
    ((((joining.messages order).map .ok).foldl absorb (joining.table index)).get? partition) =
      if order.getLast? = some joining.joiner then
        (joining.loaded.get? partition).or (joining.shared.get? partition)
      else (joining.shared.get? partition).or (joining.loaded.get? partition) := by
  rw [get?_foldl_absorb, lastSaid?_messages nodup joinerAnswers differs otherAnswers, table]
  split
  · split
    · cases joining.loaded.get? partition <;> simp
    · cases joining.loaded.get? partition <;> simp
  · split
    · cases joining.shared.get? partition <;> simp
    · cases joining.shared.get? partition <;> simp

private theorem hasHandled_of_hear {view : View} (noBacklog : view.backlog = some [])
    {index : Nat} (ownTable : view.table = joining.table index) :
    (view.hear view.topic [⟨.online, joining.loaded⟩]).HasHandled
      ((joining.messages []).map .ok) (joining.table index) 0 := by
  refine ⟨Nat.zero_le _, ?_, ?_⟩
  · rw [View.backlog_hear_self, noBacklog]
    rfl
  · rw [View.hear_table, ownTable]
    rfl

/-- A start among workers that agree and have nothing pending: nobody has answered yet. -/
private theorem answered_start {cluster : Cluster} (sound : cluster.IsSound)
    (quiescent : ∀ other member, cluster.member? other = some member →
      member.log.topic = joining.topic → member.service.lifecycle = .stopped ∨
        member.isSettled cluster.network ∧ member.service.table = joining.shared)
    {newcomer : Member} (isNewcomer : cluster.member? joining.joiner = some newcomer)
    (onTopic : newcomer.log.topic = joining.topic)
    (stopped : newcomer.service.lifecycle = .stopped)
    (loaded : (newcomer.service.load cluster.files).map Service.table = .ok joining.loaded) :
    joining.Answered (joining.Runs (cluster.run (startMoves joining.joiner)))
      (cluster.network.published joining.topic) []
      (cluster.run (startMoves joining.joiner)) := by
  obtain ⟨tasks, becomes⟩ := becomes_start sound.within isNewcomer stopped loaded
  have soundThen : (cluster.run (startMoves joining.joiner)).IsSound := sound.run rfl
  have standingCases {index : Nat} {standing : View}
      (stays : cluster.view? index = some standing) (standingTopic : standing.topic = joining.topic) :
      standing.lifecycle = .stopped ∨ standing.IsRunning ∧ standing.backlog = some [] ∧
        standing.table = joining.shared := by
    obtain ⟨member, present, isView⟩ := Option.map_eq_some_iff.1 stays
    rw [← isView] at standingTopic ⊢
    refine (quiescent index member present standingTopic).imp_right ?_
    rintro ⟨settled, agrees⟩
    simp only [Member.isSettled, Bool.and_eq_true] at settled
    exact ⟨Lifecycle.isRunning_iff.1 settled.1.1,
      Member.view_backlog_of_hasHandledAll settled.1.2, agrees⟩
  refine ⟨soundThen.subscribed, .nil, ?_, fun _ => Iff.rfl,
    fun _ isMember => absurd isMember List.not_mem_nil, ?_, ?_⟩
  · rw [becomes.published]
    change _ ++ (if joining.topic = newcomer.log.topic then _ else _) = _
    rw [if_pos onTopic.symm]
    rfl
  · intro index view viewed viewTopic
    obtain ⟨standing, heard, ⟨_, isNext⟩ | ⟨_, stays⟩⟩ := becomes.view_cases viewed
    · rw [heard, isNext, View.IsRunning, View.hear_lifecycle]
      exact .inr ⟨tasks, rfl⟩
    · rw [heard, View.hear_topic] at viewTopic
      rw [heard, View.IsRunning, View.hear_lifecycle]
      exact (standingCases stays viewTopic).imp_right fun settled => settled.1
  · intro index view viewed viewTopic running
    refine ⟨0, ?_, by simp⟩
    obtain ⟨standing, heard, ⟨same, isNext⟩ | ⟨differs, stays⟩⟩ := becomes.view_cases viewed
    · rw [heard, isNext, same]
      exact hasHandled_of_hear rfl (if_pos rfl).symm
    · rw [heard, View.hear_topic] at viewTopic
      rw [heard] at running
      rcases standingCases stays viewTopic with rests | ⟨_, noBacklog, agrees⟩
      · obtain ⟨_, runs⟩ := View.isRunning_of_hear running
        rw [rests] at runs
        nomatch runs
      · have sameTopic : standing.topic = newcomer.log.topic := viewTopic.trans onTopic.symm
        rw [heard]
        change (standing.hear newcomer.log.topic _).HasHandled _ _ _
        rw [← sameTopic]
        exact hasHandled_of_hear noBacklog (agrees.trans (if_neg differs).symm)

private theorem runs_start {cluster : Cluster} (within : cluster.IsWithin) {newcomer : Member}
    (isNewcomer : cluster.member? joining.joiner = some newcomer)
    (onTopic : newcomer.log.topic = joining.topic)
    (stopped : newcomer.service.lifecycle = .stopped)
    (loaded : (newcomer.service.load cluster.files).map Service.table = .ok joining.loaded)
    {index : Nat} (runs : index = joining.joiner ∨ joining.Runs cluster index) :
    joining.Runs (cluster.run (startMoves joining.joiner)) index := by
  obtain ⟨tasks, becomes⟩ := becomes_start within isNewcomer stopped loaded
  have viewedAfter := becomes.views index
  by_cases isJoiner : index = joining.joiner
  · rw [if_pos isJoiner, Option.map_some] at viewedAfter
    refine ⟨_, viewedAfter, ?_, ?_⟩
    · rw [View.hear_topic]
      exact onTopic
    · rw [View.IsRunning, View.hear_lifecycle]
      exact ⟨tasks, rfl⟩
  · obtain ⟨view, viewed, viewTopic, running⟩ := runs.resolve_left isJoiner
    rw [if_neg isJoiner, viewed, Option.map_some] at viewedAfter
    refine ⟨_, viewedAfter, ?_, ?_⟩
    · rw [View.hear_topic]
      exact viewTopic
    · rw [View.IsRunning, View.hear_lifecycle]
      exact running

/-- However deliveries are handled after the start, workers answer in some order. -/
private theorem exists_answered {cluster : Cluster} (sound : cluster.IsSound)
    (quiescent : ∀ other member, cluster.member? other = some member →
      member.log.topic = joining.topic → member.service.lifecycle = .stopped ∨
        member.isSettled cluster.network ∧ member.service.table = joining.shared)
    {newcomer : Member} (isNewcomer : cluster.member? joining.joiner = some newcomer)
    (onTopic : newcomer.log.topic = joining.topic)
    (stopped : newcomer.service.lifecycle = .stopped)
    (loaded : (newcomer.service.load cluster.files).map Service.table = .ok joining.loaded)
    {handling : List (Nat × Action)} (receiving : ∀ move ∈ handling, move.2.receives)
    (lagFree : cluster.isLagFree (startMoves joining.joiner ++ handling)) :
    ∃ order, joining.Answered (joining.Runs (cluster.run (startMoves joining.joiner)))
      (cluster.network.published joining.topic) order
      (cluster.run (startMoves joining.joiner ++ handling)) := by
  rw [isLagFree_append, Bool.and_eq_true] at lagFree
  have soundThen : (cluster.run (startMoves joining.joiner)).IsSound := sound.run lagFree.1
  have nobody := answered_start sound quiescent isNewcomer onTopic stopped loaded
  rw [run_append]
  exact (run_invariant (fun move => move.2.receives = true)
    (fun reached => ∃ order, joining.Answered
      (joining.Runs (cluster.run (startMoves joining.joiner)))
      (cluster.network.published joining.topic) order reached)
    (fun ⟨_, answered⟩ receives viewed acts becomes =>
      answered.becomes receives viewed acts becomes)
    soundThen.within ⟨[], nobody⟩ receiving lagFree.2).2

/-- Whoever has handled everything has answered, and has merged the announcement and all answers. -/
private theorem Answered.of_hasHandledAll {runs : Nat → Prop} {earlier : List Payload}
    {cluster : Cluster} (answered : joining.Answered runs earlier order cluster) {index : Nat}
    {member : Member} (present : cluster.member? index = some member)
    (onTopic : member.log.topic = joining.topic) (running : member.service.lifecycle.isRunning)
    (handledAll : member.hasHandledAll cluster.network) :
    index ∈ order ∧ member.service.table =
      ((joining.messages order).map .ok).foldl absorb (joining.table index) := by
  obtain ⟨count, handled, answeredIff⟩ := answered.handled index _ (view?_of_member? present)
    onTopic (Lifecycle.isRunning_iff.1 running)
  have nothingLeft := handled.backlog_eq
  rw [Member.view_backlog_of_hasHandledAll handledAll] at nothingLeft
  have allHandled : ((joining.messages order).map Except.ok).length ≤ count :=
    List.drop_eq_nil_iff.1 (Option.some.inj nothingLeft).symm
  constructor
  · rw [answeredIff]
    simp only [messages, List.map_cons, List.length_cons] at allHandled
    omega
  · rw [← List.take_of_length_le allHandled]
    exact handled.table_eq

/-- What becomes of workers that share a table and of a newcomer with a table from its file, when nothing
but the announcement and the answers to it is handled: in the end everybody who runs has answered once,
in some order, and everybody holds what the shared table and the one that was read say together, where
the shared table prevails unless the newcomer was the last to answer. -/
theorem joining_ends_with_last_answer (joining : Joining) {start before final : Cluster}
    (resting : ∀ member ∈ start.members, member.isResting)
    {earlier handling : List (Nat × Action)} (reached : start.run earlier = before)
    (lagFreeBefore : start.isLagFree earlier)
    (quiescent : ∀ other member, before.member? other = some member →
      member.log.topic = joining.topic → member.service.lifecycle = .stopped ∨
        member.isSettled before.network ∧ member.service.table = joining.shared)
    (someone : ∃ other member, before.member? other = some member ∧
      member.log.topic = joining.topic ∧ member.service.lifecycle.isRunning)
    {newcomer : Member} (isNewcomer : before.member? joining.joiner = some newcomer)
    (onTopic : newcomer.log.topic = joining.topic)
    (stopped : newcomer.service.lifecycle = .stopped)
    (loaded : (newcomer.service.load before.files).map Service.table = .ok joining.loaded)
    (receiving : ∀ move ∈ handling, move.2.receives)
    (ends : before.run (startMoves joining.joiner ++ handling) = final)
    (lagFree : before.isLagFree (startMoves joining.joiner ++ handling))
    (handledAll : ∀ index member, final.member? index = some member →
      member.log.topic = joining.topic → member.service.lifecycle.isRunning →
        member.hasHandledAll final.network) :
    ∃ order : List Nat, order.Nodup ∧ (∀ index, index ∈ order ↔ joining.Runs final index) ∧
      final.network.published joining.topic = before.network.published joining.topic ++
        (joining.messages order).map PositionMessage.encode ∧
      ∀ index member, final.member? index = some member → member.log.topic = joining.topic →
        member.service.lifecycle.isRunning → ∀ partition,
          member.service.table.get? partition =
            if order.getLast? = some joining.joiner then
              (joining.loaded.get? partition).or (joining.shared.get? partition)
            else (joining.shared.get? partition).or (joining.loaded.get? partition) := by
  subst reached
  have sound : (start.run earlier).IsSound := (isSound_of_isResting resting).run lagFreeBefore
  obtain ⟨order, answered⟩ := exists_answered sound quiescent isNewcomer onTopic stopped loaded
    receiving lagFree
  rw [ends] at answered
  have answers {index : Nat} (runs : joining.Runs final index) : index ∈ order := by
    obtain ⟨view, viewed, viewTopic, running⟩ := runs
    obtain ⟨member, present, isView⟩ := Option.map_eq_some_iff.1 viewed
    subst isView
    have isRunning : member.service.lifecycle.isRunning := Lifecycle.isRunning_iff.2 running
    exact (answered.of_hasHandledAll present viewTopic isRunning
      (handledAll index member present viewTopic isRunning)).1
  have answersFromStart {index : Nat}
      (runs : index = joining.joiner ∨ joining.Runs (start.run earlier) index) : index ∈ order :=
    answers ((answered.running index).2
      (runs_start sound.within isNewcomer onTopic stopped loaded runs))
  obtain ⟨other, otherMember, isOther, otherTopic, otherRuns⟩ := someone
  have differs : other ≠ joining.joiner := by
    intro same
    rw [same, isNewcomer] at isOther
    injection isOther with same
    rw [← same, stopped] at otherRuns
    nomatch otherRuns
  refine ⟨order, answered.nodup, ?_, answered.published, ?_⟩
  · intro index
    exact ⟨fun isMember => (answered.running index).2 (answered.answering index isMember), answers⟩
  · intro index member present memberTopic running partition
    have table_eq := (answered.of_hasHandledAll present memberTopic running
      (handledAll index member present memberTopic running)).2
    rw [table_eq]
    exact get?_table_of_answered answered.nodup (answersFromStart (.inl rfl)) differs
      (answersFromStart (.inr ⟨_, view?_of_member? isOther, otherTopic,
        Lifecycle.isRunning_iff.1 otherRuns⟩)) index

/-- A worker that is there and one that has been away, with a table in its file. -/
private def reunion (table : PositionTable) : Cluster :=
  let path := Path.ofText "worker"
  sample (Store.persist ⟨path, table⟩ (Timestamp.ofEpoch 0 0) .empty).1 [.inMemory, .new path]

/-- The moves of a worker that starts, writes a partition, broadcasts it and handles everything. -/
private def presentMoves (partition : Partition) : List (Nat × Action) :=
  startMoves 0 ++ [(0, .put partition (fileOffset 2)), (0, .synchronize), (0, .fetch),
    (0, .handle), (0, .handle), (0, .fetch), (0, .handle)]

private theorem map_table_of_toOption {loading : Except Error Service} {table : PositionTable}
    (loaded : loading.toOption.map Service.table = some table) :
    loading.map Service.table = .ok table := by
  cases loading with
  | error error => nomatch loaded
  | ok service => exact congrArg Except.ok (Option.some.inj loaded)

/-- A newcomer with an older offset that answers first takes over what the others share. -/
theorem joining_ends_with_shared :
    let partition := filePartition (.ofText "log")
    let shared : PositionTable := SortedMap.empty.insert partition (fileOffset 2)
    let loaded : PositionTable := SortedMap.empty.insert partition (fileOffset 1)
    let before := (reunion loaded).run (presentMoves partition)
    let handling : List (Nat × Action) := [(1, .fetch), (1, .handle), (0, .fetch), (0, .handle),
      (0, .handle), (1, .fetch), (1, .handle), (1, .handle), (0, .fetch), (0, .handle)]
    let final := before.run (startMoves 1 ++ handling)
    ∃ order : List Nat, order.Nodup ∧ order.getLast? ≠ some 1 ∧
      ∀ member ∈ final.members, ∀ partition, member.service.table.get? partition =
        (shared.get? partition).or (loaded.get? partition) := by
  intro partition shared loaded before handling final
  have conditions :
      ((∀ member ∈ (reunion loaded).members, member.isResting) ∧
        (reunion loaded).isLagFree (presentMoves partition)) ∧
      (∀ member ∈ before.members, member.log.topic = "positions" ∧
        (member.service.lifecycle = .stopped ∨
          member.isSettled before.network ∧ member.service.table = shared)) ∧
      ((before.member? 0).isSome ∧
        ∀ member ∈ before.member? 0, member.service.lifecycle.isRunning) ∧
      ((before.member? 1).isSome ∧
        ∀ newcomer ∈ before.member? 1, newcomer.service.lifecycle = .stopped ∧
          (newcomer.service.load before.files).toOption.map Service.table = some loaded) ∧
      ((∀ move ∈ handling, move.2.receives) ∧
        before.isLagFree (startMoves 1 ++ handling)) ∧
      final.members.length = 2 ∧
      ∀ member ∈ final.members, member.log.topic = "positions" ∧
        member.service.lifecycle.isRunning ∧ member.hasHandledAll final.network ∧
        member.service.table.get? partition = some (fileOffset 2) := by
    decide +kernel
  obtain ⟨⟨resting, lagFreeBefore⟩, quiescent, ⟨someone, runs⟩, ⟨somebody, stopped⟩,
    ⟨receiving, lagFree⟩, two, settled⟩ := conditions
  obtain ⟨other, isOther⟩ := Option.isSome_iff_exists.1 someone
  obtain ⟨newcomer, isNewcomer⟩ := Option.isSome_iff_exists.1 somebody
  have onTopic {index : Nat} {member : Member} (present : before.member? index = some member) :
      member.log.topic = "positions" :=
    (quiescent member (List.mem_of_getElem? present)).1
  obtain ⟨order, nodup, _, _, tables⟩ := joining_ends_with_last_answer
    ⟨"positions", 1, shared, loaded⟩ resting rfl lagFreeBefore
    (fun _ member present _ => (quiescent member (List.mem_of_getElem? present)).2)
    ⟨0, other, isOther, onTopic isOther, runs other isOther⟩ isNewcomer (onTopic isNewcomer)
    (stopped newcomer isNewcomer).1 (map_table_of_toOption (stopped newcomer isNewcomer).2)
    receiving rfl lagFree
    (fun _ member present _ _ => (settled member (List.mem_of_getElem? present)).2.2.1)
  have ends {member : Member} (isMember : member ∈ final.members) (partition : Partition) :
      member.service.table.get? partition =
        if order.getLast? = some 1 then (loaded.get? partition).or (shared.get? partition)
        else (shared.get? partition).or (loaded.get? partition) := by
    obtain ⟨index, present⟩ := List.mem_iff_getElem?.1 isMember
    obtain ⟨memberTopic, running, _, _⟩ := settled member isMember
    exact tables index member present memberTopic running partition
  have notLast : order.getLast? ≠ some 1 := by
    intro isLast
    obtain ⟨one, isMember⟩ : ∃ one, one ∈ final.members :=
      List.exists_mem_of_length_pos (two ▸ Nat.two_pos)
    have older := ends isMember partition
    rw [if_pos isLast, (settled one isMember).2.2.2] at older
    exact absurd older (by decide +kernel)
  refine ⟨order, nodup, notLast, fun member isMember partition => ?_⟩
  rw [ends isMember, if_neg notLast]

/-- A newcomer with an older offset that answers last makes everybody go back to it. -/
theorem joining_brings_back_older :
    let partition := filePartition (.ofText "log")
    let shared : PositionTable := SortedMap.empty.insert partition (fileOffset 2)
    let loaded : PositionTable := SortedMap.empty.insert partition (fileOffset 1)
    let cluster := reunion loaded
    let before := cluster.run (presentMoves partition)
    let handling : List (Nat × Action) := [(0, .fetch), (0, .handle), (1, .fetch), (1, .handle),
      (1, .handle), (0, .fetch), (0, .handle), (0, .handle), (1, .fetch), (1, .handle)]
    let final := before.run (startMoves 1 ++ handling)
    (∀ member ∈ cluster.members, member.isResting) ∧
      cluster.isLagFree (presentMoves partition) ∧
      (∀ member ∈ before.member? 0, member.isSettled before.network ∧
        member.service.table = shared) ∧
      (∀ member ∈ before.member? 1, member.service.lifecycle = .stopped) ∧
      (∀ member ∈ (before.run (startMoves 1)).member? 1, member.service.table = loaded) ∧
      (∀ move ∈ handling, move.2.receives) ∧ before.isLagFree (startMoves 1 ++ handling) ∧
      final.members.length = 2 ∧
      (∀ member ∈ final.members, member.service.lifecycle.isRunning ∧
        member.hasHandledAll final.network ∧ member.service.table = loaded) ∧
      loaded.get? partition ≠ shared.get? partition := by
  decide +kernel

end Joining

end PositionSync
