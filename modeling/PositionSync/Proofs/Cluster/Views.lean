import PositionSync.Proofs.Cluster.Actions
import PositionSync.Proofs.Message.RoundTrip
import PositionSync.Proofs.Service.Steps

/-!
# Views of workers

What a worker will do depends on a few things only: its stage, its table, what is pending, and what it
has still to handle. Where nothing is lost, it makes no difference whether a delivery has been fetched
already. So a run of a cluster can be followed on the views of its workers: the worker that acts changes
its own view, and what it sends comes behind everything that the others on its topic have still to
handle.
-/

namespace PositionSync

/-- What is received of messages is the messages. -/
theorem PositionMessage.map_decode_map_encode (messages : List PositionMessage) :
    (messages.map encode).map decode = messages.map Except.ok := by
  have decoded : decode ∘ encode = Except.ok := by
    funext message
    rw [Function.comp_apply, decode_encode_self]
  rw [List.map_map, decoded]

namespace Network

def sendAll (network : Network) (topic : String) (messages : List PositionMessage) : Network :=
  messages.foldl (fun network message => network.publish topic message.encode) network

theorem length_published (network : Network) (topic : String) :
    (network.published topic).length = network.publishedCount topic :=
  List.length_reverse

theorem published_sendAll (network : Network) (topic other : String)
    (messages : List PositionMessage) :
    (network.sendAll topic messages).published other =
      network.published other ++
        if other = topic then messages.map PositionMessage.encode else [] := by
  rw [sendAll]
  induction messages generalizing network with
  | nil => simp
  | cons message rest ih =>
      rw [List.foldl_cons, ih, published_publish]
      by_cases same : other = topic
      · simp [same]
      · simp [same]

/-- All deliveries of a topic, in their order. -/
def deliveries (network : Network) (topic : String) : List Delivery :=
  (network.published topic).map PositionMessage.decode

theorem publishedCount_le_sendAll (network : Network) (topic other : String)
    (messages : List PositionMessage) :
    network.publishedCount other ≤ (network.sendAll topic messages).publishedCount other := by
  rw [← length_published, ← length_published, published_sendAll, List.length_append]
  omega

end Network

theorem LocalLog.sendAll_replicated (network : Network) (log : LocalLog)
    (messages : List PositionMessage) :
    replicated.sendAll messages (network, log) = (network.sendAll log.topic messages, log) := by
  rw [ReplicatedLog.sendAll, Network.sendAll]
  induction messages generalizing network with
  | nil => rfl
  | cons message rest ih =>
      rw [List.foldl_cons, List.foldl_cons]
      exact ih (network.publish log.topic message.encode)

namespace Subscription

/-- What a subscription has still to deliver, fetched or not, as long as nothing is lost to it. -/
def backlog (subscription : Subscription) (network : Network) (topic : String) : List Delivery :=
  subscription.inbox ++
    ((network.published topic).drop subscription.cursor).map PositionMessage.decode

theorem backlog_start (network : Network) (topic : String) :
    (start network topic).backlog network topic = [] := by
  have allBefore : (network.published topic).drop (network.publishedCount topic) = [] :=
    List.drop_eq_nil_iff.2 (Nat.le_of_eq (network.length_published topic))
  simp only [backlog, start, allBefore, List.map_nil, List.append_nil]

/-- What is sent on the topic comes last. -/
theorem backlog_sendAll {subscription : Subscription} {network : Network} {topic : String}
    (within : subscription.cursor ≤ network.publishedCount topic) (other : String)
    (messages : List PositionMessage) :
    subscription.backlog (network.sendAll other messages) topic =
      subscription.backlog network topic ++ if topic = other then messages.map .ok else [] := by
  have withinAll : subscription.cursor ≤ (network.published topic).length := by
    rw [Network.length_published]
    exact within
  rw [backlog, backlog, Network.published_sendAll, List.drop_append_of_le_length withinAll,
    List.map_append, ← List.append_assoc]
  by_cases same : topic = other
  · simp only [same, if_true, PositionMessage.map_decode_map_encode]
  · simp only [same, if_false, List.map_nil]

/-- Fetching without loss changes nothing about what is still to be delivered. -/
theorem backlog_fetch {subscription : Subscription} {network : Network} {topic : String}
    (kept : network.publishedCount topic ≤ subscription.cursor + network.capacity) :
    (subscription.fetch network topic).backlog network topic =
      subscription.backlog network topic := by
  have notLost : (network.published topic).length - network.capacity ≤ subscription.cursor := by
    rw [Network.length_published]
    omega
  have noNotice : notice topic subscription.cursor
      ((network.published topic).length - network.capacity) = [] := by
    rw [notice, if_neg (Nat.not_lt.2 notLost)]
  rw [fetch]
  split
  · rfl
  · next room hasRoom =>
    simp only [noNotice, Nat.max_eq_left notLost, List.length_nil, Nat.sub_zero,
      List.append_nil]
    have rejoined (room : Nat) (later : List Payload) :
        later.take room ++ later.drop (later.take room).length = later := by
      rw [List.length_take]
      rcases Nat.le_total room later.length with short | long
      · rw [Nat.min_eq_left short, List.take_append_drop]
      · rw [Nat.min_eq_right long, List.drop_length, List.append_nil, List.take_of_length_le long]
    rw [backlog, backlog, List.append_assoc, ← List.map_append, ← List.drop_drop, rejoined]

theorem cursor_fetch_le {subscription : Subscription} {network : Network} {topic : String}
    (within : subscription.cursor ≤ network.publishedCount topic) :
    (subscription.fetch network topic).cursor ≤ network.publishedCount topic := by
  rw [← Network.length_published] at within ⊢
  rw [fetch]
  split
  · exact within
  · simp only [List.length_take, List.length_drop]
    omega

theorem backlog_next? {subscription rest : Subscription} {delivery : Delivery}
    (taken : subscription.next? = some (delivery, rest)) (network : Network) (topic : String) :
    subscription.backlog network topic = delivery :: rest.backlog network topic ∧
      rest.cursor = subscription.cursor := by
  rw [next?] at taken
  split at taken
  · nomatch taken
  · next first later inbox =>
    injection taken with taken
    injection taken with same rest
    rw [← same, ← rest, backlog, backlog, inbox]
    exact ⟨rfl, rfl⟩

end Subscription

/-- What a worker is to those who follow a run. -/
structure View where
  topic : String
  lifecycle : Lifecycle
  table : PositionTable
  pending : PendingSet
  /-- What is still to be handled, if there is a subscription. -/
  backlog : Option (List Delivery)

namespace View

/-- Messages sent on a topic come behind what is still to be handled. -/
def hear (view : View) (topic : String) (messages : List PositionMessage) : View :=
  if view.topic = topic then
    { view with backlog := view.backlog.map fun backlog => backlog ++ messages.map .ok }
  else view

/-- What a worker broadcasts of its pending positions. -/
def pendingPositions (view : View) : PositionTable := view.table.restrict view.pending.toList

/-- What an action makes of the view of the worker that takes it, and what the worker sends. -/
inductive Acts (view : View) : Action → View → List PositionMessage → Prop where
  | rest (action : Action) (mayRest : action.mayRest) : Acts view action view []
  | put (partition : Partition) (offset : Offset) :
      Acts view (.put partition offset)
        { view with
          table := view.table.insert partition offset
          pending := view.pending.insert partition } []
  | putMany (positions : PositionTable) :
      Acts view (.putMany positions)
        { view with
          table := view.table.insertAll positions.toList
          pending := view.pending.insertAll positions.keys } []
  | remove (partitions : List Partition) :
      Acts view (.remove partitions)
        { view with
          table := view.table.eraseAll partitions
          pending := view.pending.eraseAll partitions } []
  | synchronize :
      Acts view .synchronize { view with pending := .empty }
        [⟨.positionChange, view.pendingPositions⟩]
  | load (table : PositionTable) : Acts view .load { view with table } []
  | beginStart (stopped : view.lifecycle = .stopped) (table : PositionTable) :
      Acts view .beginStart { view with table, lifecycle := .starting none } []
  | joinLog (starting : view.lifecycle = .starting none) (tasks : Tasks) :
      Acts view .joinLog
        { view with lifecycle := .starting (some tasks), backlog := some [] } []
  | finishStart (tasks : Tasks) (joined : view.lifecycle = .starting (some tasks)) :
      Acts view .finishStart { view with lifecycle := .running tasks } [⟨.online, view.table⟩]
  | beginStop (tasks : Tasks) (running : view.lifecycle = .running tasks) :
      Acts view .beginStop
        { view with pending := .empty, lifecycle := .stopping (some tasks) }
        [⟨.positionChange, view.pendingPositions⟩]
  | endTasks (tasks : Tasks) (stopping : view.lifecycle = .stopping (some tasks)) :
      Acts view .endTasks { view with lifecycle := .stopping none } []
  | finishStop (stopping : view.lifecycle = .stopping none) :
      Acts view .finishStop { view with lifecycle := .stopped, backlog := none } []
  | handle (delivery : Delivery) (rest : List Delivery)
      (next : view.backlog = some (delivery :: rest)) :
      Acts view .handle
        { view with table := view.table.absorb delivery, backlog := some rest }
        (view.table.answer delivery)

end View

/-- The view of a worker on a network. -/
def Member.view (member : Member) (network : Network) : View where
  topic := member.log.topic
  lifecycle := member.service.lifecycle
  table := member.service.table
  pending := member.service.pending
  backlog := member.log.subscription.map fun subscription =>
    subscription.backlog network member.log.topic

/-- Whether a worker has not gone beyond the end of its topic. -/
def Member.IsWithin (member : Member) (network : Network) : Prop :=
  ∀ subscription, member.log.subscription = some subscription →
    subscription.cursor ≤ network.publishedCount member.log.topic

theorem Member.IsWithin.sendAll {member : Member} {network : Network}
    (within : member.IsWithin network) (topic : String) (messages : List PositionMessage) :
    member.IsWithin (network.sendAll topic messages) := by
  intro subscription subscribed
  exact Nat.le_trans (within subscription subscribed)
    (network.publishedCount_le_sendAll topic member.log.topic messages)

/-- When messages are sent, a worker hears them if they are sent on its topic. -/
theorem Member.view_sendAll {member : Member} {network : Network}
    (within : member.IsWithin network) (topic : String) (messages : List PositionMessage) :
    member.view (network.sendAll topic messages) = (member.view network).hear topic messages := by
  unfold Member.view View.hear
  cases subscribed : member.log.subscription with
  | none => simp
  | some subscription =>
      simp only [Option.map_some]
      rw [Subscription.backlog_sendAll (within subscription subscribed)]
      by_cases same : member.log.topic = topic
      · simp only [same, if_true]
      · simp only [same, if_false, List.append_nil]

/-- Who has just subscribed has nothing to handle. -/
theorem Member.view_of_subscribe (member : Member) (network : Network) {log : LocalLog}
    (subscribed : member.log = log.subscribe network) :
    member.view network =
      { topic := log.topic, lifecycle := member.service.lifecycle, table := member.service.table
        pending := member.service.pending, backlog := some [] } := by
  have noBacklog := Subscription.backlog_start network log.topic
  simp only [view, subscribed, LocalLog.subscribe, Option.map_some, noBacklog]

theorem Member.isWithin_of_subscribe (member : Member) (network : Network) {log : LocalLog}
    (subscribed : member.log = log.subscribe network) : member.IsWithin network := by
  intro subscription isSubscription
  rw [subscribed] at isSubscription ⊢
  injection isSubscription with isStart
  rw [← isStart]
  exact Nat.le_refl _

namespace Cluster

def view? (cluster : Cluster) (index : Nat) : Option View :=
  (cluster.member? index).map fun member => member.view cluster.network

/-- Whether no worker has gone beyond the end of its topic. -/
def IsWithin (cluster : Cluster) : Prop :=
  ∀ member ∈ cluster.members, member.IsWithin cluster.network

/-- A cluster becomes another one when the worker with a number changes its view and sends messages. -/
structure Becomes (before after : Cluster) (index : Nat) (next : View)
    (sent : List PositionMessage) : Prop where
  within : after.IsWithin
  views : ∀ other, after.view? other =
    (if other = index then some next else before.view? other).map fun view =>
      view.hear next.topic sent
  published : ∀ topic, after.network.published topic =
    before.network.published topic ++
      if topic = next.topic then sent.map PositionMessage.encode else []

theorem update_members (cluster : Cluster) (index : Nat) (member : Member) (network : Network) :
    (cluster.update index member network).members = cluster.members.set index member := by
  rw [update]
  split
  · rfl
  · rfl

theorem update_network (cluster : Cluster) (index : Nat) (member : Member) (network : Network) :
    (cluster.update index member network).network = network := by
  rw [update]
  split
  · rfl
  · rfl

/-- Without a change of the network, an update replaces the worker. -/
theorem update_same_network (cluster : Cluster) (index : Nat) (member : Member) :
    cluster.update index member cluster.network = cluster.setMember index member :=
  if_pos rfl

/-- Replacing a worker and sending messages is what a change of its view means. -/
theorem becomes_update {cluster : Cluster} (within : cluster.IsWithin) {index : Nat}
    {member next : Member} (present : cluster.member? index = some member)
    (nextWithin : next.IsWithin cluster.network) (sent : List PositionMessage) :
    cluster.Becomes
      (cluster.update index next (cluster.network.sendAll next.log.topic sent))
      index (next.view cluster.network) sent := by
  obtain ⟨inRange, _⟩ := List.getElem?_eq_some_iff.1 present
  refine ⟨?_, ?_, ?_⟩
  · intro other isMember
    rw [update_members] at isMember
    rw [update_network]
    rcases List.mem_or_eq_of_mem_set isMember with before | same
    · exact (within other before).sendAll next.log.topic sent
    · rw [same]
      exact nextWithin.sendAll next.log.topic sent
  · intro other
    rw [view?, member?, update_members, update_network, List.getElem?_set]
    by_cases same : index = other
    · rw [if_pos same, if_pos same.symm, if_pos (same ▸ inRange), Option.map_some, Option.map_some,
        Member.view_sendAll nextWithin]
      rfl
    · rw [if_neg same, if_neg (Ne.symm same), view?, Option.map_map]
      cases found : cluster.members[other]? with
      | none =>
          rw [member?, found]
          rfl
      | some standing =>
          have standingWithin : standing.IsWithin cluster.network :=
            within standing (List.mem_of_getElem? found)
          rw [member?, found, Option.map_some, Option.map_some, Function.comp_apply,
            Member.view_sendAll standingWithin]
          rfl
  · intro topic
    rw [update_network, Network.published_sendAll]
    rfl

end Cluster

end PositionSync
