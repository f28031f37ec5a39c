import Mathlib.Data.List.Nodup
import PositionSync.Log.Basic
import PositionSync.Proofs.Service.Steps
import PositionSync.Source.Position

/-!
# Sequences of deliveries

Deliveries that are handled one after the other leave the table that the last change to mention each
partition asks for.  Listeners are told exactly when somebody came online or the table became
different, so that a repeated change is told once, and changes of different partitions may be handled
in either order.  Nothing of this depends on the order in which a delivered table is gone over, and the
table that another worker announces is not read at all.
-/

namespace PositionSync

namespace PositionTable

/-- What the last of some deliveries that says anything about a partition says. -/
def lastSaid? (deliveries : List Delivery) (partition : Partition) : Option Offset :=
  deliveries.foldl (fun found delivery => (told? partition delivery).or found) none

private theorem foldl_told? (deliveries : List Delivery) (partition : Partition)
    (found : Option Offset) :
    deliveries.foldl (fun found delivery => (told? partition delivery).or found) found =
      (lastSaid? deliveries partition).or found := by
  rw [lastSaid?]
  induction deliveries generalizing found with
  | nil => rfl
  | cons delivery rest ih =>
      rw [List.foldl_cons, List.foldl_cons, ih ((told? partition delivery).or found),
        ih ((told? partition delivery).or none), Option.or_none, Option.or_assoc]

theorem lastSaid?_append (earlier later : List Delivery) (partition : Partition) :
    lastSaid? (earlier ++ later) partition =
      (lastSaid? later partition).or (lastSaid? earlier partition) := by
  rw [lastSaid?, List.foldl_append, foldl_told?]
  rfl

/-- Deliveries leave a table that holds what was said last, and else what it held before. -/
theorem get?_foldl_absorb (table : PositionTable) (deliveries : List Delivery)
    (partition : Partition) :
    (deliveries.foldl absorb table).get? partition =
      (lastSaid? deliveries partition).or (table.get? partition) := by
  rw [← foldl_told?]
  induction deliveries generalizing table with
  | nil => rfl
  | cons delivery rest ih => rw [List.foldl_cons, List.foldl_cons, ih, get?_absorb]

theorem lastSaid?_singleton (message : PositionMessage) (partition : Partition) :
    lastSaid? ([message].map .ok) partition = told? partition (.ok message) :=
  Option.or_none

theorem lastSaid?_cons (first : Delivery) (rest : List Delivery) (partition : Partition) :
    lastSaid? (first :: rest) partition =
      (lastSaid? rest partition).or (told? partition first) := by
  rw [← List.singleton_append, lastSaid?_append]
  exact congrArg _ Option.or_none

theorem lastSaid?_eq_none_iff {deliveries : List Delivery} {partition : Partition} :
    lastSaid? deliveries partition = none ↔
      ∀ delivery ∈ deliveries, told? partition delivery = none := by
  induction deliveries with
  | nil => exact ⟨fun _ _ isMember => absurd isMember List.not_mem_nil, fun _ => rfl⟩
  | cons first rest ih =>
      rw [lastSaid?_cons, Option.or_eq_none_iff, ih, List.forall_mem_cons, and_comm]

/-- If the end of a log says something about a partition, it is what the whole log says last. -/
theorem lastSaid?_of_isSuffix {later log : List Delivery} (isSuffix : later <:+ log)
    {partition : Partition} (isSaid : (lastSaid? later partition).isSome) :
    lastSaid? log partition = lastSaid? later partition := by
  obtain ⟨earlier, isLog⟩ := isSuffix
  obtain ⟨offset, said⟩ := Option.isSome_iff_exists.1 isSaid
  rw [← isLog, lastSaid?_append, said, Option.some_or]

end PositionTable

namespace Delivery

/-- The table that a delivery carries. -/
def positions : Delivery → PositionTable
  | .ok message => message.positions
  | .error _ => .empty

def isChange : Delivery → Bool
  | .ok ⟨.positionChange, _⟩ => true
  | _ => false

/-- What a worker hears of a delivery: the table that another one announces is not read. -/
def heard : Delivery → Delivery
  | .ok ⟨.online, _⟩ => .ok ⟨.online, .empty⟩
  | delivery => delivery

/-- Deliveries that mention no partition both. -/
def AreDisjoint (first second : Delivery) : Prop :=
  ∀ partition, first.positions.get? partition = none ∨ second.positions.get? partition = none

end Delivery

namespace PositionTable

variable {table : PositionTable} {delivery first second : Delivery}

/-- Listeners are told of a change if and only if it changes the table. -/
theorem isNews_iff : table.isNews delivery = true ↔
    delivery.isOnline = true ∨ delivery.isChange = true ∧ table.absorb delivery ≠ table := by
  rcases delivery with error | ⟨kind | kind, positions⟩
  · simp [isNews, Delivery.isOnline, Delivery.isChange]
  · simp [isNews, Delivery.isOnline]
  · refine (merge_snd_iff_ne table positions).trans ?_
    simp [Delivery.isOnline, Delivery.isChange, absorb]

/-- An announced table is not merged. -/
theorem absorb_of_isOnline (isOnline : delivery.isOnline = true) : table.absorb delivery = table := by
  rcases delivery with error | ⟨kind | kind, positions⟩
  · rfl
  · rfl
  · simp [Delivery.isOnline] at isOnline

theorem absorb_absorb_self (table : PositionTable) (delivery : Delivery) :
    (table.absorb delivery).absorb delivery = table.absorb delivery := by
  apply SortedMap.ext_get?
  intro partition
  rw [get?_absorb, get?_absorb, ← Option.or_assoc, Option.or_self]

theorem isNews_absorb_self (isChange : delivery.isChange = true) :
    (table.absorb delivery).isNews delivery = false := by
  rw [Bool.eq_false_iff, ne_eq, isNews_iff]
  rcases delivery with error | ⟨kind | kind, positions⟩
  · simp [Delivery.isOnline, Delivery.isChange]
  · simp [Delivery.isChange] at isChange
  · simp [Delivery.isOnline, absorb_absorb_self]

/-- Nobody answers a change. -/
theorem answer_of_isChange (isChange : delivery.isChange = true) : table.answer delivery = [] := by
  rcases delivery with error | ⟨kind | kind, positions⟩
  · rfl
  · simp [Delivery.isChange] at isChange
  · rfl

theorem told?_eq_none {partition : Partition} (silent : delivery.positions.get? partition = none) :
    told? partition delivery = none := by
  rcases delivery with error | ⟨kind | kind, positions⟩
  · rfl
  · rfl
  · exact silent

theorem absorb_comm (disjoint : first.AreDisjoint second) :
    (table.absorb first).absorb second = (table.absorb second).absorb first := by
  apply SortedMap.ext_get?
  intro partition
  simp only [get?_absorb]
  rcases disjoint partition with silent | silent
  · simp [told?_eq_none silent]
  · simp [told?_eq_none silent]

/-- What a delivery that mentions no partition of another one leaves behind makes the other one no more
and no less of a news. -/
theorem isNews_absorb (disjoint : first.AreDisjoint second) :
    (table.absorb first).isNews second = table.isNews second := by
  rcases second with error | ⟨kind | kind, positions⟩
  · rfl
  · rfl
  · rw [isNews, isNews, Bool.eq_iff_iff, merge_snd_iff, merge_snd_iff]
    refine exists_congr fun entry => and_congr_right fun listed => ?_
    have mentioned : positions.get? entry.1 = some entry.2 := SortedMap.mem_toList_iff.1 listed
    rcases disjoint entry.1 with silent | silent
    · rw [get?_absorb, told?_eq_none silent, Option.none_or]
    · exact absurd mentioned (by rw [show positions.get? entry.1 = none from silent]; simp)

end PositionTable

namespace Listeners

/-- A notification calls the listeners that are registered when it begins, in their order. -/
theorem notify_snd (listeners : Listeners) :
    listeners.notify.2 = listeners.registry.listeners.map Listener.name := by
  have calls (registered : List Listener) (state : Listeners × List String) :
      (registered.foldl (fun current listener => call listener current) state).2 =
        state.2 ++ registered.map Listener.name := by
    induction registered generalizing state with
    | nil => simp
    | cons listener rest ih =>
        rw [List.foldl_cons, ih, List.map_cons, List.append_cons]
        rfl
  exact (calls listeners.registry.listeners (listeners, [])).trans (List.nil_append _)

end Listeners

namespace Service

variable {ω : Type} (log : ReplicatedLog ω) (service : Service) (world : ω)

theorem notified_handleDelivery (delivery : Delivery) :
    (service.handleDelivery log delivery world).notified = service.table.isNews delivery := by
  rw [handleDelivery_eq]
  split
  · next news => exact news.symm
  · next noNews => exact (Bool.eq_false_iff.2 noNews).symm

theorem called_handleDelivery (delivery : Delivery) :
    (service.handleDelivery log delivery world).called =
      if (service.handleDelivery log delivery world).notified then
        service.listeners.registry.listeners.map Listener.name
      else [] := by
  rw [notified_handleDelivery, handleDelivery_eq]
  split
  · exact service.listeners.notify_snd
  · rfl

theorem handleDelivery_heard (delivery : Delivery) :
    service.handleDelivery log delivery.heard world = service.handleDelivery log delivery world := by
  rcases delivery with error | ⟨kind | kind, positions⟩
  · rfl
  · rfl
  · rfl

theorem absorb_inform (news : Bool) (delivery : Delivery) :
    (service.inform news).absorb delivery = (service.absorb delivery).inform news := by
  cases news with
  | false => rfl
  | true => rfl

theorem inform_comm (first second : Bool) :
    (service.inform first).inform second = (service.inform second).inform first := by
  cases first with
  | false => rfl
  | true =>
      cases second with
      | false => rfl
      | true => rfl

theorem absorb_comm {first second : Delivery} (disjoint : first.AreDisjoint second) :
    (service.absorb first).absorb second = (service.absorb second).absorb first := by
  have sameTable : (service.table.absorb first).absorb second =
      (service.table.absorb second).absorb first := PositionTable.absorb_comm disjoint
  exact congrArg service.withTable sameTable

/-- Two changes that mention no partition both lead to the same in either order, and each is answered
in the same way. -/
theorem handleDelivery_comm {first second : Delivery} (firstChange : first.isChange = true)
    (secondChange : second.isChange = true) (disjoint : first.AreDisjoint second) :
    let one := service.handleDelivery log first world
    let other := service.handleDelivery log second world
    let both := one.service.handleDelivery log second one.world
    let swapped := other.service.handleDelivery log first other.world
    both.service = swapped.service ∧ both.world = swapped.world ∧
      both.notified = other.notified ∧ swapped.notified = one.notified := by
  have disjointToo : second.AreDisjoint first := fun partition => (disjoint partition).symm
  intro one other both swapped
  have bothNews : one.service.table.isNews second = service.table.isNews second := by
    rw [table_handleDelivery, PositionTable.isNews_absorb disjoint]
  have swappedNews : other.service.table.isNews first = service.table.isNews first := by
    rw [table_handleDelivery, PositionTable.isNews_absorb disjointToo]
  have oneService := service.service_handleDelivery log world first
  have otherService := service.service_handleDelivery log world second
  have bothService := one.service.service_handleDelivery log one.world second
  have swappedService := other.service.service_handleDelivery log other.world first
  rw [bothNews] at bothService
  rw [swappedNews] at swappedService
  refine ⟨?_, ?_, ?_, ?_⟩
  · rw [bothService, swappedService, oneService, otherService, absorb_inform, absorb_inform,
      service.absorb_comm disjoint, inform_comm]
  · rw [world_handleDelivery, world_handleDelivery, world_handleDelivery, world_handleDelivery,
      PositionTable.answer_of_isChange firstChange, PositionTable.answer_of_isChange firstChange,
      PositionTable.answer_of_isChange secondChange, PositionTable.answer_of_isChange secondChange]
  · rw [notified_handleDelivery, notified_handleDelivery, bothNews]
  · rw [notified_handleDelivery, notified_handleDelivery, swappedNews]

end Service

/-- A delivery whose table is gone over in some order. -/
structure Reception where
  delivery : Delivery
  listing : List (Partition × Offset)
  isListing : listing.Perm delivery.positions.toList

/-- Fold listed entries in, one after the other. -/
def Store.mergeListed (store : Store) (listing : List (Partition × Offset)) : Store × Bool :=
  let (table, changed) := store.table.merge listing
  ({ store with table }, changed)

namespace Service

variable {ω : Type}

/-- One delivery of a sequence, the service that it found, and what handling it led to. -/
structure Moment (ω : Type) where
  delivery : Delivery
  before : Service
  handled : Handled ω

/-- The registrations that are called, in their order. -/
def Moment.calls (moment : Moment ω) : List (ListenerId × Listener) :=
  if moment.handled.notified then moment.before.listeners.registry.entries else []

variable (log : ReplicatedLog ω)

/-- Handle a delivery whose table is gone over in some order. -/
def handleListed (reception : Reception) (service : Service) (world : ω) : Handled ω :=
  match reception.delivery with
  | .ok ⟨.positionChange, _⟩ =>
    let (store, changed) := service.store.mergeListed reception.listing
    let merged := { service with store }
    if changed then merged.notify world else ⟨false, [], merged, world⟩
  | other => service.handleDelivery log other world

/-- Handle deliveries one after the other, with nothing in between. -/
def receiveAll : List Reception → Service → ω → Service × ω
  | [], service, world => (service, world)
  | reception :: later, service, world =>
    let handled := service.handleListed log reception world
    receiveAll later handled.service handled.world

def moments : List Reception → Service → ω → List (Moment ω)
  | [], _, _ => []
  | reception :: later, service, world =>
    let handled := service.handleListed log reception world
    ⟨reception.delivery, service, handled⟩ :: moments later handled.service handled.world

/-- What handling the deliveries returns. -/
def answers (receptions : List Reception) (service : Service) (world : ω) : List Bool :=
  (moments log receptions service world).map fun moment => moment.handled.notified

variable (service : Service) (world : ω) {log}

/-- In whatever order a delivered table is gone over, handling the delivery leads to the same. -/
theorem handleListed_eq (reception : Reception) :
    service.handleListed log reception world =
      service.handleDelivery log reception.delivery world := by
  obtain ⟨delivery, listing, isListing⟩ := reception
  rcases delivery with error | ⟨kind | kind, positions⟩
  · rfl
  · rfl
  · have sameMerge := service.store.table.merge_of_perm isListing
    have same : service.store.mergeListed listing = service.store.merge positions := by
      rw [Store.mergeListed, sameMerge]
      rfl
    simp only [handleListed, handleDelivery, same]

theorem receiveAll_cons (reception : Reception) (later : List Reception) :
    receiveAll log (reception :: later) service world =
      receiveAll log later (service.handleDelivery log reception.delivery world).service
        (service.handleDelivery log reception.delivery world).world := by
  rw [receiveAll, handleListed_eq]

theorem answers_cons (reception : Reception) (later : List Reception) :
    answers log (reception :: later) service world =
      (service.handleDelivery log reception.delivery world).notified ::
        answers log later (service.handleDelivery log reception.delivery world).service
          (service.handleDelivery log reception.delivery world).world := by
  rw [answers, moments, handleListed_eq]
  rfl

theorem receiveAll_append (earlier later : List Reception) :
    receiveAll log (earlier ++ later) service world =
      receiveAll log later (receiveAll log earlier service world).1
        (receiveAll log earlier service world).2 := by
  induction earlier generalizing service world with
  | nil => rfl
  | cons reception rest ih => exact ih _ _

theorem answers_append (earlier later : List Reception) :
    answers log (earlier ++ later) service world =
      answers log earlier service world ++
        answers log later (receiveAll log earlier service world).1
          (receiveAll log earlier service world).2 := by
  induction earlier generalizing service world with
  | nil => rfl
  | cons reception rest ih =>
      rw [List.cons_append, answers_cons, answers_cons, receiveAll_cons, ih, List.cons_append]

theorem length_answers (receptions : List Reception) :
    (answers log receptions service world).length = receptions.length := by
  induction receptions generalizing service world with
  | nil => rfl
  | cons reception rest ih => rw [answers_cons, List.length_cons, ih, List.length_cons]

theorem exists_handleDelivery_of_mem {receptions : List Reception} {moment : Moment ω}
    (isMoment : moment ∈ moments log receptions service world) :
    ∃ reached, moment.handled = moment.before.handleDelivery log moment.delivery reached := by
  induction receptions generalizing service world with
  | nil => simp [moments] at isMoment
  | cons reception later ih =>
      rcases List.mem_cons.1 isMoment with rfl | isLater
      · exact ⟨world, service.handleListed_eq world reception⟩
      · exact ih _ _ isLater

theorem table_receiveAll (receptions : List Reception) :
    (receiveAll log receptions service world).1.table =
      (receptions.map Reception.delivery).foldl PositionTable.absorb service.table := by
  induction receptions generalizing service world with
  | nil => rfl
  | cons reception later ih =>
      rw [receiveAll_cons, ih, table_handleDelivery, List.map_cons, List.foldl_cons]

/-- Sequences in which the same is heard have the same history. -/
theorem moments_congr {receptions others : List Reception}
    (same : receptions.map (·.delivery.heard) = others.map (·.delivery.heard)) :
    (moments log receptions service world).map Moment.handled =
        (moments log others service world).map Moment.handled ∧
      receiveAll log receptions service world = receiveAll log others service world := by
  induction receptions generalizing others service world with
  | nil =>
      obtain rfl : others = [] := List.map_eq_nil_iff.1 same.symm
      exact ⟨rfl, rfl⟩
  | cons reception later ih =>
      cases others with
      | nil => simp at same
      | cons other rest =>
          obtain ⟨sameFirst, sameLater⟩ :
              reception.delivery.heard = other.delivery.heard ∧ _ := List.cons.inj same
          have handled : service.handleListed log reception world =
              service.handleListed log other world := by
            rw [handleListed_eq, handleListed_eq, ← handleDelivery_heard, sameFirst,
              handleDelivery_heard]
          simp only [moments, receiveAll, List.map_cons, handled]
          obtain ⟨history, reached⟩ := ih _ _ sameLater
          exact ⟨congrArg (_ :: ·) history, reached⟩

theorem answer_of_repeated {earlier later : List Reception} {change again : Reception}
    (isChange : change.delivery.isChange = true) (repeated : again.delivery = change.delivery) :
    (answers log (earlier ++ change :: again :: later) service world)[earlier.length + 1]? =
      some false := by
  rw [answers_append, List.getElem?_append_right (by rw [length_answers]; omega), length_answers,
    Nat.add_sub_cancel_left, answers_cons, answers_cons, List.getElem?_cons_succ,
    List.getElem?_cons_zero, notified_handleDelivery, table_handleDelivery, repeated,
    PositionTable.isNews_absorb_self isChange]

theorem receiveAll_swap {earlier later : List Reception} {first second : Reception}
    (firstChange : first.delivery.isChange = true) (secondChange : second.delivery.isChange = true)
    (disjoint : first.delivery.AreDisjoint second.delivery) :
    receiveAll log (earlier ++ first :: second :: later) service world =
        receiveAll log (earlier ++ second :: first :: later) service world ∧
      ∃ front one other back, front.length = earlier.length ∧
        answers log (earlier ++ first :: second :: later) service world =
          front ++ one :: other :: back ∧
        answers log (earlier ++ second :: first :: later) service world =
          front ++ other :: one :: back := by
  rw [receiveAll_append, receiveAll_append, answers_append, answers_append]
  generalize receiveAll log earlier service world = reached
  obtain ⟨sameService, sameWorld, otherAnswer, oneAnswer⟩ :=
    reached.1.handleDelivery_comm log reached.2 firstChange secondChange disjoint
  simp only [receiveAll_cons, answers_cons, sameService, sameWorld, otherAnswer, oneAnswer]
  exact ⟨trivial, _, _, _, _, length_answers service world earlier, rfl, rfl⟩

theorem count_calls (registration : ListenerId × Listener) {history : List (Moment ω)}
    (throughout : ∀ moment ∈ history,
      registration ∈ moment.before.listeners.registry.entries) :
    (history.flatMap Moment.calls).count registration =
      history.countP fun moment => moment.handled.notified := by
  induction history with
  | nil => rfl
  | cons moment later ih =>
      obtain ⟨registered, throughoutLater⟩ := List.forall_mem_cons.1 throughout
      have once : moment.before.listeners.registry.entries.count registration = 1 := by
        refine List.count_eq_one_of_mem (moment.before.listeners.registry.ascending.imp ?_) registered
        intro first second less same
        rw [same] at less
        exact Nat.lt_irrefl _ less
      rw [List.flatMap_cons, List.count_append, ih throughoutLater, List.countP_cons, Moment.calls]
      split
      · rw [once, Nat.add_comm]
      · simp

/-- Deliveries that are handled one after the other leave what the last change to mention each partition
says, in whatever order their tables are gone over, and whatever another worker announces.  They are
answered truthfully, and each listener that stays registered is called once for every answer of yes.  So
a change that is repeated at once is answered no, and adjacent changes of different partitions may be
swapped. -/
theorem deliveries_fold_to_last_mention (log : ReplicatedLog ω) (service : Service) (world : ω)
    (receptions : List Reception) :
    let reached := receiveAll log receptions service world
    let history := moments log receptions service world
    -- Neither the order of a table nor the table that another worker announces matters.
    (∀ others : List Reception,
        others.map (·.delivery.heard) = receptions.map (·.delivery.heard) →
        (moments log others service world).map Moment.handled = history.map Moment.handled ∧
          receiveAll log others service world = reached) ∧
      (∀ moment ∈ history, moment.delivery.isOnline = true →
        moment.handled.service.table = moment.before.table) ∧
      (∀ partition, reached.1.table.get? partition =
        (PositionTable.lastSaid? (receptions.map Reception.delivery) partition).or
          (service.table.get? partition)) ∧
      (∀ moment ∈ history, moment.handled.notified = true ↔
        moment.delivery.isOnline = true ∨
          moment.delivery.isChange = true ∧
            moment.handled.service.table ≠ moment.before.table) ∧
      (∀ moment ∈ history,
        moment.handled.called = moment.calls.map fun registration => registration.2.name) ∧
      (∀ registration, (∀ moment ∈ history,
          registration ∈ moment.before.listeners.registry.entries) →
        (history.flatMap Moment.calls).count registration =
          (answers log receptions service world).count true) ∧
      (∀ earlier change again later, receptions = earlier ++ change :: again :: later →
        change.delivery.isChange = true → again.delivery = change.delivery →
        (answers log receptions service world)[earlier.length + 1]? = some false) ∧
      ∀ earlier first second later, receptions = earlier ++ first :: second :: later →
        first.delivery.isChange = true → second.delivery.isChange = true →
        first.delivery.AreDisjoint second.delivery →
        receiveAll log (earlier ++ second :: first :: later) service world = reached ∧
          ∃ front one other back, front.length = earlier.length ∧
            answers log receptions service world = front ++ one :: other :: back ∧
            answers log (earlier ++ second :: first :: later) service world =
              front ++ other :: one :: back := by
  intro reached history
  refine ⟨?_, ?_, ?_, ?_, ?_, ?_, ?_, ?_⟩
  · intro others same
    exact moments_congr service world same
  · intro moment isMoment isOnline
    obtain ⟨world, handled⟩ := exists_handleDelivery_of_mem service world isMoment
    rw [handled, table_handleDelivery]
    exact PositionTable.absorb_of_isOnline isOnline
  · intro partition
    rw [table_receiveAll, PositionTable.get?_foldl_absorb]
  · intro moment isMoment
    obtain ⟨world, handled⟩ := exists_handleDelivery_of_mem service world isMoment
    rw [handled, notified_handleDelivery, table_handleDelivery]
    exact PositionTable.isNews_iff
  · intro moment isMoment
    obtain ⟨world, handled⟩ := exists_handleDelivery_of_mem service world isMoment
    rw [Moment.calls, handled, called_handleDelivery]
    split
    · exact List.map_map
    · rfl
  · intro registration throughout
    rw [count_calls registration throughout, answers, List.count, List.countP_map]
    exact List.countP_congr fun moment _ => beq_iff_eq.symm
  · rintro earlier change again later rfl isChange repeated
    exact answer_of_repeated service world isChange repeated
  · rintro earlier first second later rfl firstChange secondChange disjoint
    obtain ⟨same, swapped⟩ := receiveAll_swap service world firstChange secondChange disjoint
    exact ⟨same.symm, swapped⟩

/-- A change, the same again with its table gone over the other way, an announcement, and two changes of
different partitions that may be swapped, while a listener stays registered. -/
theorem deliveries_fold_to_last_mention_of_repeated :
    let first := filePartition (.ofText "first")
    let second := filePartition (.ofText "second")
    let change (positions : PositionTable) : Delivery := .ok ⟨.positionChange, positions⟩
    let inOrder (delivery : Delivery) : Reception := ⟨delivery, delivery.positions.toList, .rfl⟩
    let both := change (.ofList [(first, fileOffset 2), (second, fileOffset 2)])
    let again : Reception := ⟨both, both.positions.toList.reverse, List.reverse_perm _⟩
    let online (announced : PositionTable) := inOrder (.ok ⟨.online, announced⟩)
    let one := inOrder (change (.ofList [(first, fileOffset 3)]))
    let other := inOrder (change (.ofList [(second, fileOffset 4)]))
    let earlier (announced : PositionTable) := [inOrder both, again, online announced]
    let service : Service :=
      { Service.new .inMemory .never with
        listeners := (Listeners.empty.register { name := "watcher" }).2 }
    let receptions := earlier (.ofList [(first, fileOffset 9)]) ++ [one, other]
    let swapped := earlier (.ofList [(first, fileOffset 9)]) ++ [other, one]
    let history := moments Recorder.replicated receptions service .new
    let reached := receiveAll Recorder.replicated receptions service .new
    reached.1.table.get? first = some (fileOffset 3) ∧
      receiveAll Recorder.replicated (earlier .empty ++ [one, other]) service .new = reached ∧
      receiveAll Recorder.replicated swapped service .new = reached ∧
      (answers Recorder.replicated receptions service .new)[1]? = some false ∧
      (history.flatMap Moment.calls).count (⟨0⟩, { name := "watcher" }) = 4 := by
  intro first second change inOrder both again online one other earlier service receptions swapped
    history reached
  obtain ⟨heard, -, folded, -, -, calls, repeated, mayBeSwapped⟩ :=
    deliveries_fold_to_last_mention Recorder.replicated service .new receptions
  have disjoint : one.delivery.AreDisjoint other.delivery := by
    intro partition
    by_cases isFirst : partition = first
    · right
      rw [isFirst]
      decide +kernel
    · left
      exact SortedMap.get?_insert_of_ne .empty (fileOffset 3) isFirst
  have throughout : ∀ moment ∈ history,
      (⟨0⟩, { name := "watcher" }) ∈ moment.before.listeners.registry.entries := by
    decide +kernel
  have splits : receptions =
      [] ++ inOrder both :: again :: [online (.ofList [(first, fileOffset 9)]), one, other] := by
    simp only [receptions, earlier, List.cons_append, List.nil_append]
  have unchanged := repeated _ _ _ _ splits rfl rfl
  rw [List.length_nil, Nat.zero_add] at unchanged
  refine ⟨(folded first).trans (by decide +kernel), (heard _ rfl).2,
    (mayBeSwapped _ one other [] rfl rfl rfl disjoint).1, unchanged, ?_⟩
  exact (calls _ throughout).trans (by decide +kernel)

end Service

end PositionSync
