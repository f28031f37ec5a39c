import Mathlib.Logic.Function.Iterate
import PositionSync.Log.Network

/-!
# A subscription accounts for every message

What a subscription has delivered is an account of its topic: every item stands for one payload, or, if it
tells that messages were skipped, for that many. All payloads since the subscription are accounted for in
the order of their publication, up to those that are still waiting. This holds however the handles of
a network take turns, and however slowly one of them reads.
-/

namespace PositionSync

namespace Subscription

/-- Receive the next payload, or the number of those that were lost before it, unless the inbox is full. -/
def receive (network : Network) (topic : String) (subscription : Subscription) : Subscription :=
  let all := network.published topic
  let oldest := all.length - network.capacity
  if inboxCapacity ≤ subscription.inbox.length then subscription
  else if subscription.cursor < oldest then
    ⟨oldest, subscription.inbox ++ [lagged topic (oldest - subscription.cursor)]⟩
  else
    match all[subscription.cursor]? with
    | some payload =>
      ⟨subscription.cursor + 1, subscription.inbox ++ [PositionMessage.decode payload]⟩
    | none => subscription

variable {network : Network} {topic : String} {subscription : Subscription}

theorem receive_of_kept (hasRoom : subscription.inbox.length < inboxCapacity)
    (kept : (network.published topic).length - network.capacity ≤ subscription.cursor)
    {payload : Payload} (isNext : (network.published topic)[subscription.cursor]? = some payload) :
    receive network topic subscription =
      ⟨subscription.cursor + 1, subscription.inbox ++ [PositionMessage.decode payload]⟩ := by
  rw [receive, if_neg (Nat.not_le.2 hasRoom), if_neg (Nat.not_lt.2 kept)]
  simp only [isNext]

theorem receive_of_last (kept : (network.published topic).length - network.capacity ≤ subscription.cursor)
    (isLast : (network.published topic)[subscription.cursor]? = none) :
    receive network topic subscription = subscription := by
  rw [receive, if_neg (Nat.not_lt.2 kept)]
  simp only [isLast, ite_self]

/-- As long as nothing is lost, receiving goes through what is there. -/
theorem iterate_receive (count : Nat) (hasRoom : subscription.inbox.length + count ≤ inboxCapacity)
    (kept : (network.published topic).length - network.capacity ≤ subscription.cursor) :
    (receive network topic)^[count] subscription =
      let fetched := ((network.published topic).drop subscription.cursor).take count
      ⟨subscription.cursor + fetched.length,
        subscription.inbox ++ fetched.map PositionMessage.decode⟩ := by
  induction count generalizing subscription with
  | zero => simp
  | succ count ih =>
      rw [Function.iterate_succ_apply]
      cases isNext : (network.published topic)[subscription.cursor]? with
      | some payload =>
          rw [receive_of_kept (by omega) kept isNext, ih (by simp; omega) (Nat.le_succ_of_le kept)]
          obtain ⟨inRange, rfl⟩ := List.getElem?_eq_some_iff.1 isNext
          rw [List.drop_eq_getElem_cons inRange, List.take_succ_cons]
          simp [Nat.add_assoc, Nat.add_comm 1]
      | none =>
          have nothing : (network.published topic).drop subscription.cursor = [] :=
            List.drop_eq_nil_iff.2 (List.getElem?_eq_none_iff.1 isNext)
          rw [receive_of_last kept isNext, ih (by omega) kept, nothing, List.take_nil, List.take_nil]

/-- To fetch is to receive until the inbox is full. -/
theorem fetch_eq_iterate_receive (subscription : Subscription) (network : Network) (topic : String) :
    subscription.fetch network topic =
      (receive network topic)^[inboxCapacity - subscription.inbox.length] subscription := by
  unfold fetch
  split
  · next full =>
    rw [full]
    rfl
  · next hasRoom =>
    obtain ⟨room, isRoom⟩ := Nat.exists_eq_succ_of_ne_zero hasRoom
    rw [isRoom]
    by_cases lags : subscription.cursor < (network.published topic).length - network.capacity
    · have received : receive network topic subscription =
          ⟨(network.published topic).length - network.capacity, subscription.inbox ++
            [lagged topic ((network.published topic).length - network.capacity -
              subscription.cursor)]⟩ := by
        rw [receive, if_neg (by omega), if_pos lags]
      rw [Function.iterate_succ_apply, received, iterate_receive room (by simp; omega) (Nat.le_refl _)]
      simp [notice, lags, Nat.max_eq_right (Nat.le_of_lt lags)]
    · rw [iterate_receive (room + 1) (by omega) (Nat.not_lt.1 lags)]
      simp [notice, lags, Nat.max_eq_left (Nat.not_lt.1 lags)]

theorem lagged_injective (topic : String) : Function.Injective (lagged topic) := by
  intro one other same
  have sameNumeral : Nat.repr one = Nat.repr other := by
    simpa [lagged, String.append_assoc] using same
  have sameDigits := congrArg String.toList sameNumeral
  rw [Nat.toList_repr, Nat.toList_repr] at sameDigits
  rw [← @Nat.ofDigitChars_ten_toDigits one, sameDigits, Nat.ofDigitChars_ten_toDigits]

/-- What is received of a payload never reads like a notice of lost payloads. -/
theorem decode_ne_lagged (payload : Payload) (topic : String) (lost : Nat) :
    PositionMessage.decode payload ≠ lagged topic lost := by
  intro same
  rw [PositionMessage.decode] at same
  split at same
  · next fault _ =>
    have sameText : "Failed to decode position message: " ++ fault.message =
        Nat.repr lost ++ " messages skipped on topic '" ++ topic ++ "'" := by
      simpa [lagged] using same
    have sameChars := congrArg String.toList sameText
    simp only [String.toList_append, Nat.toList_repr, List.append_assoc] at sameChars
    cases digits : Nat.toDigits 10 lost with
    | nil => exact Nat.toDigits_ne_nil digits
    | cons first rest =>
        have isDigit : first.isDigit = true :=
          Nat.isDigit_of_mem_toDigits (by decide) (by decide) (digits ▸ List.mem_cons_self)
        rw [digits, List.cons_append] at sameChars
        have sameFirst : 'F' = first := (List.cons.inj sameChars).1
        rw [← sameFirst] at isDigit
        nomatch isDigit
  · next name positions _ =>
    rw [MessageKind.parse] at same
    split at same
    · nomatch same
    · nomatch same

end Subscription

/-- The payloads of a topic that are accounted for by items in their order, and those still waiting. Skipped
payloads have at least as many behind them as a topic keeps. -/
inductive Accounts (capacity : Nat) (topic : String) :
    List Payload → List Delivery → List Payload → Prop where
  | waiting (payloads : List Payload) : Accounts capacity topic payloads [] payloads
  | delivered (payload : Payload) {later waiting : List Payload} {items : List Delivery} :
      Accounts capacity topic later items waiting →
      Accounts capacity topic (payload :: later) (PositionMessage.decode payload :: items) waiting
  | skipped {lost later waiting : List Payload} {items : List Delivery} :
      lost ≠ [] → capacity ≤ later.length → Accounts capacity topic later items waiting →
      Accounts capacity topic (lost ++ later)
        (Subscription.lagged topic lost.length :: items) waiting

namespace Accounts

variable {capacity : Nat} {topic : String} {payloads waiting : List Payload} {items : List Delivery}

/-- What is published later waits. -/
theorem publish (accounts : Accounts capacity topic payloads items waiting) (more : List Payload) :
    Accounts capacity topic (payloads ++ more) items (waiting ++ more) := by
  induction accounts with
  | waiting payloads => exact .waiting _
  | delivered payload _ ih => exact .delivered payload ih
  | @skipped lost later waiting items isLost overwritten _ ih =>
      rw [List.append_assoc]
      apply skipped isLost _ ih
      rw [List.length_append]
      omega

theorem deliver {payload : Payload}
    (accounts : Accounts capacity topic payloads items (payload :: waiting)) :
    Accounts capacity topic payloads (items ++ [PositionMessage.decode payload]) waiting := by
  generalize isWaiting : payload :: waiting = before at accounts
  induction accounts with
  | waiting payloads =>
      subst isWaiting
      exact .delivered payload (.waiting waiting)
  | delivered other _ ih => exact .delivered other (ih isWaiting)
  | skipped isLost overwritten _ ih => exact .skipped isLost overwritten (ih isWaiting)

theorem skip {lost : List Payload} (isLost : lost ≠ []) (overwritten : capacity ≤ waiting.length)
    (accounts : Accounts capacity topic payloads items (lost ++ waiting)) :
    Accounts capacity topic payloads (items ++ [Subscription.lagged topic lost.length]) waiting := by
  generalize isWaiting : lost ++ waiting = before at accounts
  induction accounts with
  | waiting payloads =>
      subst isWaiting
      exact .skipped isLost overwritten (.waiting waiting)
  | delivered other _ ih => exact .delivered other (ih isWaiting)
  | skipped isLostBefore overwrittenBefore _ ih =>
      exact .skipped isLostBefore overwrittenBefore (ih isWaiting)

/-- The items tell which payloads they stand for. -/
theorem unique {others : List Payload} (accounts : Accounts capacity topic payloads items waiting)
    (also : Accounts capacity topic payloads items others) : waiting = others := by
  induction accounts with
  | waiting payloads =>
      cases also
      rfl
  | delivered payload _ ih =>
      generalize isItem : PositionMessage.decode payload = item at also
      generalize isAll : payload :: _ = all at also
      cases also with
      | delivered other rest =>
          cases isAll
          exact ih rest
      | skipped => exact absurd isItem (Subscription.decode_ne_lagged payload topic _)
  | @skipped lost later waiting items _ _ _ ih =>
      generalize isItem : Subscription.lagged topic lost.length = item at also
      generalize isAll : lost ++ later = all at also
      cases also with
      | delivered other rest => exact absurd isItem.symm (Subscription.decode_ne_lagged other topic _)
      | skipped _ _ rest =>
          have sameLength := Subscription.lagged_injective topic isItem
          obtain ⟨_, rfl⟩ := List.append_inj isAll sameLength
          exact ih rest

end Accounts

/-- What a reader may do with a subscription: have one thing received, or as much as the inbox takes, take one
thing out of the inbox, or everything there is. -/
inductive Reading where
  | receive
  | fetch
  | take
  | drain

namespace Subscription

/-- What is taken, and the subscription afterwards. -/
def read (network : Network) (topic : String) (subscription : Subscription) :
    Reading → List Delivery × Subscription
  | .receive => ([], subscription.receive network topic)
  | .fetch => ([], subscription.fetch network topic)
  | .take =>
    match subscription.next? with
    | some (delivery, later) => ([delivery], later)
    | none => ([], subscription)
  | .drain => subscription.drain network topic

/-- What was taken of a subscription and what is in its inbox account for all payloads since it began, up to
those behind its place. -/
structure Accounted (network : Network) (topic : String) (since : List Payload)
    (taken : List Delivery) (subscription : Subscription) : Prop where
  withinInbox : subscription.inbox.length ≤ inboxCapacity
  withinTopic : subscription.cursor ≤ (network.published topic).length
  accounts : Accounts network.capacity topic since (taken ++ subscription.inbox)
    ((network.published topic).drop subscription.cursor)

variable {network : Network} {topic : String} {since : List Payload} {taken : List Delivery}
  {subscription : Subscription}

theorem accounted_start (network : Network) (topic : String) :
    Accounted network topic [] [] (start network topic) := by
  have allBefore : (network.published topic).drop (network.publishedCount topic) = [] := by
    apply List.drop_eq_nil_iff.2
    exact Nat.le_of_eq List.length_reverse
  constructor
  · exact Nat.zero_le _
  · exact Nat.le_of_eq List.length_reverse.symm
  · simp only [start, allBefore, List.append_nil]
    exact .waiting []

namespace Accounted

theorem publish (accounted : Accounted network topic since taken subscription)
    {later : Network} (sameCapacity : later.capacity = network.capacity) {more : List Payload}
    (published : later.published topic = network.published topic ++ more) :
    Accounted later topic (since ++ more) taken subscription := by
  obtain ⟨withinInbox, withinTopic, accounts⟩ := accounted
  refine ⟨withinInbox, ?_, ?_⟩
  · rw [published, List.length_append]
    omega
  · rw [published, List.drop_append_of_le_length withinTopic, sameCapacity]
    exact accounts.publish more

theorem receive (accounted : Accounted network topic since taken subscription) :
    Accounted network topic since taken (subscription.receive network topic) := by
  obtain ⟨withinInbox, withinTopic, accounts⟩ := accounted
  unfold Subscription.receive
  simp only
  split
  · exact ⟨withinInbox, withinTopic, accounts⟩
  · split
    · next hasRoom lags =>
      let oldest := (network.published topic).length - network.capacity
      let behind := (network.published topic).drop subscription.cursor
      let lost := behind.take (oldest - subscription.cursor)
      have lengthLost : lost.length = oldest - subscription.cursor := by
        simp only [lost, behind, List.length_take, List.length_drop]
        omega
      have isLost : lost ≠ [] := by
        intro isNil
        rw [isNil] at lengthLost
        simp only [List.length_nil] at lengthLost
        omega
      have kept : network.capacity ≤ ((network.published topic).drop oldest).length := by
        rw [List.length_drop]
        omega
      have divided : lost ++ (network.published topic).drop oldest = behind := by
        have dropped : (network.published topic).drop oldest =
            behind.drop (oldest - subscription.cursor) := by
          rw [List.drop_drop, Nat.add_sub_of_le (Nat.le_of_lt lags)]
        rw [dropped, List.take_append_drop]
      constructor
      · simp only [List.length_append, List.length_singleton]
        omega
      · exact Nat.sub_le _ _
      · rw [← List.append_assoc, ← lengthLost]
        apply Accounts.skip isLost kept
        rw [divided]
        exact accounts
    · next hasRoom _ =>
      split
      · next payload isNext =>
        obtain ⟨inRange, rfl⟩ := List.getElem?_eq_some_iff.1 isNext
        rw [List.drop_eq_getElem_cons inRange] at accounts
        constructor
        · simp only [List.length_append, List.length_singleton]
          omega
        · exact inRange
        · rw [← List.append_assoc]
          exact accounts.deliver
      · exact ⟨withinInbox, withinTopic, accounts⟩

theorem fetch (accounted : Accounted network topic since taken subscription) :
    Accounted network topic since taken (subscription.fetch network topic) := by
  rw [fetch_eq_iterate_receive]
  exact Function.Iterate.rec (Accounted network topic since taken) accounted
    (fun _ accounted => accounted.receive) _

/-- What is in the inbox can be taken. -/
theorem take (accounted : Accounted network topic since taken subscription)
    {first rest : List Delivery} (isInbox : subscription.inbox = first ++ rest) :
    Accounted network topic since (taken ++ first) { subscription with inbox := rest } := by
  obtain ⟨withinInbox, withinTopic, accounts⟩ := accounted
  refine ⟨?_, withinTopic, ?_⟩
  · rw [isInbox, List.length_append] at withinInbox
    exact Nat.le_trans (Nat.le_add_left _ _) withinInbox
  · rw [List.append_assoc, ← isInbox]
    exact accounts

theorem takeAll (accounted : Accounted network topic since taken subscription) :
    Accounted network topic since (taken ++ subscription.inbox) { subscription with inbox := [] } :=
  accounted.take (List.append_nil _).symm

theorem drainWithin (accounted : Accounted network topic since taken subscription) (fuel : Nat) :
    let drained := subscription.drainWithin network topic fuel
    Accounted network topic since (taken ++ drained.1) drained.2 := by
  induction fuel generalizing taken subscription with
  | zero => exact accounted.takeAll
  | succ fuel ih =>
      rw [Subscription.drainWithin]
      split
      · exact accounted.takeAll
      · simp only [← List.append_assoc]
        exact ih accounted.takeAll.fetch

theorem read (accounted : Accounted network topic since taken subscription) (reading : Reading) :
    let result := subscription.read network topic reading
    Accounted network topic since (taken ++ result.1) result.2 := by
  cases reading with
  | receive =>
      rw [← List.append_nil taken] at accounted
      exact accounted.receive
  | fetch =>
      rw [← List.append_nil taken] at accounted
      exact accounted.fetch
  | take =>
      simp only [Subscription.read, next?]
      cases inbox : subscription.inbox with
      | nil =>
          rw [← List.append_nil taken] at accounted
          exact accounted
      | cons delivery rest =>
          have isInbox : subscription.inbox = [delivery] ++ rest := inbox
          exact accounted.take isInbox
  | drain => exact accounted.drainWithin _

end Accounted

/-- Whoever fetches with an empty inbox comes nearer to the end of the topic. -/
theorem cursor_lt_cursor_fetch (behind : subscription.cursor < (network.published topic).length) :
    subscription.cursor < (fetch { subscription with inbox := [] } network topic).cursor := by
  unfold fetch
  simp only [inboxCapacity, List.length_nil, Nat.sub_zero]
  by_cases lags : subscription.cursor < (network.published topic).length - network.capacity
  · rw [Nat.max_eq_right (Nat.le_of_lt lags)]
    omega
  · rw [Nat.max_eq_left (Nat.not_lt.1 lags)]
    simp only [notice, if_neg lags, List.length_take, List.length_drop, List.length_nil]
    omega

theorem cursor_fetch_le_length (withinTopic : subscription.cursor ≤ (network.published topic).length) :
    (subscription.fetch network topic).cursor ≤ (network.published topic).length := by
  unfold fetch
  split
  · exact withinTopic
  · simp only [List.length_take, List.length_drop]
    omega

private theorem drainWithin_snd (withinTopic : subscription.cursor ≤ (network.published topic).length)
    {fuel : Nat} (enough : (network.published topic).length - subscription.cursor < fuel) :
    (subscription.drainWithin network topic fuel).2 = ⟨(network.published topic).length, []⟩ := by
  induction fuel generalizing subscription with
  | zero => exact absurd enough (Nat.not_lt_zero _)
  | succ fuel ih =>
      have counted : network.publishedCount topic = (network.published topic).length :=
        List.length_reverse.symm
      rw [Subscription.drainWithin]
      split
      · next upToDate =>
        have atEnd : (network.published topic).length ≤ subscription.cursor := by
          simpa [isUpToDate, counted] using upToDate
        rw [Nat.le_antisymm withinTopic atEnd]
      · next more =>
        have behind : subscription.cursor < (network.published topic).length := by
          simpa [isUpToDate, counted] using more
        have nearer : subscription.cursor <
            (fetch { subscription with inbox := [] } network topic).cursor :=
          cursor_lt_cursor_fetch behind
        apply ih
        · exact cursor_fetch_le_length withinTopic
        · omega

/-- Whoever drains a subscription leaves nothing behind. -/
theorem drain_snd (withinTopic : subscription.cursor ≤ (network.published topic).length) :
    (subscription.drain network topic).2 = ⟨(network.published topic).length, []⟩ := by
  apply drainWithin_snd withinTopic
  rw [Network.published, List.length_reverse, Network.publishedCount]
  omega

end Subscription

/-- Handles on one network. -/
structure Exchange where
  network : Network
  logs : List LocalLog

namespace Exchange

/-- What may happen on a network: somebody joins a topic, or does something with a handle, by its number. -/
inductive Move where
  | join (topic workerId : String)
  | subscribe (index : Nat)
  | unsubscribe (index : Nat)
  | send (index : Nat) (message : PositionMessage)
  | publish (index : Nat) (payload : Payload)
  | read (index : Nat) (reading : Reading)

def new (requested : Nat) : Exchange := ⟨.withCapacity requested, []⟩

def log? (exchange : Exchange) (index : Nat) : Option LocalLog := exchange.logs[index]?

def mapLog (exchange : Exchange) (index : Nat) (change : LocalLog → LocalLog) : Exchange :=
  { exchange with logs := exchange.logs.modify index change }

/-- Whether there is a handle with this number that has joined a topic. -/
def hasJoined (exchange : Exchange) (index : Nat) (topic : String) : Bool :=
  (exchange.log? index).any fun log => log.topic = topic

/-- What is published on a topic with a move. -/
def publishes (exchange : Exchange) (topic : String) : Move → List Payload
  | .send index message => if exchange.hasJoined index topic then [message.encode] else []
  | .publish index payload => if exchange.hasJoined index topic then [payload] else []
  | _ => []

/-- What is taken of the subscription of a handle. -/
def takenBy (exchange : Exchange) (index : Nat) : Move → List Delivery
  | .read other reading =>
    if other = index then
      match (exchange.log? index).bind fun log => log.subscription.map (log.topic, ·) with
      | some (topic, subscription) => (subscription.read exchange.network topic reading).1
      | none => []
    else []
  | _ => []

def act (exchange : Exchange) : Move → Exchange
  | .join topic workerId => { exchange with logs := exchange.logs ++ [.join topic workerId] }
  | .subscribe index => exchange.mapLog index (·.subscribe exchange.network)
  | .unsubscribe index => exchange.mapLog index LocalLog.unsubscribe
  | .send index message =>
    match exchange.log? index with
    | some log => { exchange with network := log.send message exchange.network }
    | none => exchange
  | .publish index payload =>
    match exchange.log? index with
    | some log => { exchange with network := exchange.network.publish log.topic payload }
    | none => exchange
  | .read index reading => exchange.mapLog index fun log =>
      { log with
        subscription := log.subscription.map fun subscription =>
          (subscription.read exchange.network log.topic reading).2 }

def run (exchange : Exchange) (moves : List Move) : Exchange := moves.foldl act exchange

/-- What is published on a topic in a run, in the order of its publication. -/
def publishedOn (topic : String) : Exchange → List Move → List Payload
  | _, [] => []
  | exchange, move :: later =>
    exchange.publishes topic move ++ publishedOn topic (exchange.act move) later

/-- What is taken of the subscription of a handle in a run. -/
def takenIn (index : Nat) : Exchange → List Move → List Delivery
  | _, [] => []
  | exchange, move :: later => exchange.takenBy index move ++ takenIn index (exchange.act move) later

/-- Whether a move begins or ends the subscription of a handle. -/
def Move.turns (index : Nat) : Move → Bool
  | .subscribe other | .unsubscribe other => other = index
  | _ => false

variable {exchange : Exchange} {index : Nat} {topic : String} {since : List Payload}
  {taken : List Delivery}

theorem capacity_act (exchange : Exchange) (move : Move) :
    (exchange.act move).network.capacity = exchange.network.capacity := by
  cases move with
  | join | subscribe | unsubscribe | read => rfl
  | send index | publish index =>
      simp only [act]
      cases exchange.log? index <;> rfl

theorem capacity_run (exchange : Exchange) (moves : List Move) :
    (exchange.run moves).network.capacity = exchange.network.capacity := by
  induction moves generalizing exchange with
  | nil => rfl
  | cons move later ih => exact (ih (exchange.act move)).trans (exchange.capacity_act move)

theorem published_act (exchange : Exchange) (move : Move) (topic : String) :
    (exchange.act move).network.published topic =
      exchange.network.published topic ++ exchange.publishes topic move := by
  cases move with
  | join | subscribe | unsubscribe | read => exact (List.append_nil _).symm
  | send index | publish index =>
      cases isLog : exchange.log? index with
      | none => simp [act, publishes, hasJoined, isLog]
      | some log =>
          by_cases same : log.topic = topic
          · simp [act, publishes, hasJoined, isLog, same, LocalLog.send, Network.published_publish]
          · simp [act, publishes, hasJoined, isLog, same, Ne.symm same, LocalLog.send,
              Network.published_publish]

theorem published_run (exchange : Exchange) (moves : List Move) (topic : String) :
    (exchange.run moves).network.published topic =
      exchange.network.published topic ++ publishedOn topic exchange moves := by
  induction moves generalizing exchange with
  | nil => exact (List.append_nil _).symm
  | cons move later ih =>
      rw [publishedOn, ← List.append_assoc, ← published_act]
      exact ih (exchange.act move)

/-- The subscription of a handle accounts for what was published since it began. -/
def Accounted (exchange : Exchange) (index : Nat) (topic : String) (since : List Payload)
    (taken : List Delivery) : Prop :=
  ∃ log subscription, exchange.log? index = some log ∧ log.topic = topic ∧
    log.subscription = some subscription ∧
      subscription.Accounted exchange.network topic since taken

theorem log?_mapLog (exchange : Exchange) (index other : Nat) (change : LocalLog → LocalLog) :
    (exchange.mapLog other change).log? index =
      (exchange.log? index).map fun log => if other = index then change log else log := by
  rw [log?, mapLog, List.getElem?_modify]
  rfl

/-- Whatever happens, as long as the subscription goes on, it accounts for what was published. -/
theorem Accounted.act (accounted : exchange.Accounted index topic since taken) {move : Move}
    (continues : move.turns index = false) :
    (exchange.act move).Accounted index topic (since ++ exchange.publishes topic move)
      (taken ++ exchange.takenBy index move) := by
  obtain ⟨log, subscription, isLog, onTopic, subscribed, accounted⟩ := accounted
  have published : subscription.Accounted (exchange.act move).network topic
      (since ++ exchange.publishes topic move) taken :=
    accounted.publish (exchange.capacity_act move) (exchange.published_act move topic)
  have unread (nothing : exchange.takenBy index move = [])
      (stays : (exchange.act move).log? index = some log) :
      (exchange.act move).Accounted index topic (since ++ exchange.publishes topic move)
        (taken ++ exchange.takenBy index move) := by
    rw [nothing, List.append_nil]
    exact ⟨log, subscription, stays, onTopic, subscribed, published⟩
  cases move with
  | join =>
      apply unread rfl
      have inRange : index < exchange.logs.length := (List.getElem?_eq_some_iff.1 isLog).1
      rw [log?, Exchange.act, List.getElem?_append_left inRange]
      exact isLog
  | subscribe other | unsubscribe other =>
      have differs : other ≠ index := by
        rintro rfl
        simp [Move.turns] at continues
      apply unread rfl
      rw [Exchange.act, log?_mapLog, isLog, Option.map_some, if_neg differs]
  | send other | publish other =>
      apply unread rfl
      rw [Exchange.act]
      split <;> exact isLog
  | read other reading =>
      by_cases same : other = index
      · subst same
        subst onTopic
        let result := subscription.read exchange.network log.topic reading
        have taken_eq : exchange.takenBy other (.read other reading) = result.1 := by
          simp only [takenBy, if_true, isLog, Option.bind_some, subscribed, Option.map_some, result]
        refine ⟨{ log with subscription := some result.2 }, result.2, ?_, rfl, rfl, ?_⟩
        · rw [Exchange.act, log?_mapLog, isLog, Option.map_some, if_pos rfl, subscribed]
          rfl
        · rw [taken_eq]
          exact published.read reading
      · apply unread (if_neg same)
        rw [Exchange.act, log?_mapLog, isLog, Option.map_some, if_neg same]

theorem Accounted.run (accounted : exchange.Accounted index topic since taken) {moves : List Move}
    (continues : ∀ move ∈ moves, move.turns index = false) :
    (exchange.run moves).Accounted index topic (since ++ publishedOn topic exchange moves)
      (taken ++ takenIn index exchange moves) := by
  induction moves generalizing exchange since taken with
  | nil =>
      rw [publishedOn, takenIn, List.append_nil, List.append_nil]
      exact accounted
  | cons move later ih =>
      rw [publishedOn, takenIn, ← List.append_assoc, ← List.append_assoc]
      exact ih (accounted.act (continues move List.mem_cons_self))
        fun move isLater => continues move (List.mem_cons_of_mem _ isLater)

theorem accounted_subscribe {log : LocalLog} (isLog : exchange.log? index = some log) :
    (exchange.act (.subscribe index)).Accounted index log.topic [] [] := by
  refine ⟨log.subscribe exchange.network, .start exchange.network log.topic, ?_, rfl, rfl, ?_⟩
  · rw [Exchange.act, log?_mapLog, isLog, Option.map_some, if_pos rfl]
  · exact Subscription.accounted_start exchange.network log.topic

/-- However handles join, subscribe, send and read on a network: on every topic there is one order of all
payloads, and what a subscription that goes on has delivered accounts for those that came since it began, in
this order and in this one way only, up to those that wait behind its place. Whoever takes everything that
is there leaves none waiting. -/
theorem subscription_accounts_for_all (requested : Nat) (moves : List Move) :
    let final := (new requested).run moves
    ∀ {earlier later : List Move} {index : Nat} {log : LocalLog},
      moves = earlier ++ .subscribe index :: later →
      ((new requested).run earlier).log? index = some log →
      (∀ move ∈ later, move.turns index = false) →
      let start := ((new requested).run earlier).act (.subscribe index)
      let since := publishedOn log.topic start later
      let taken := takenIn index start later
      let accounts := Accounts (max requested 1).nextPowerOfTwo log.topic since
      final.network.published log.topic = start.network.published log.topic ++ since ∧
        ∃ subscription, (final.log? index).bind LocalLog.subscription = some subscription ∧
          subscription.inbox.length ≤ Subscription.inboxCapacity ∧
          (∀ waiting, accounts (taken ++ subscription.inbox) waiting ↔
            waiting = (final.network.published log.topic).drop subscription.cursor) ∧
          accounts (taken ++ (subscription.drain final.network log.topic).1) [] := by
  intro final earlier later index log moves_eq isLog continues start since taken accounts
  have final_eq : final = start.run later := by
    simp only [final, start, moves_eq, run, List.foldl_append, List.foldl_cons]
  have capacity_eq : final.network.capacity = (max requested 1).nextPowerOfTwo :=
    capacity_run (new requested) moves
  obtain ⟨other, subscription, isOther, onTopic, subscribed, accounted⟩ :=
    (accounted_subscribe isLog).run continues
  rw [List.nil_append, List.nil_append, ← final_eq] at accounted
  rw [← final_eq] at isOther
  refine ⟨?_, subscription, ?_, accounted.withinInbox, ?_, ?_⟩
  · rw [final_eq]
    exact published_run start later log.topic
  · rw [isOther, Option.bind_some, subscribed]
  · have isAccount := accounted.accounts
    rw [capacity_eq] at isAccount
    intro waiting
    constructor
    · intro also
      exact also.unique isAccount
    · rintro rfl
      exact isAccount
  · have isAccount := (accounted.read .drain).accounts
    rw [Subscription.read, Subscription.drain_snd accounted.withinTopic, capacity_eq,
      List.drop_length, List.append_nil] at isAccount
    exact isAccount

/-- On a topic that keeps one payload, two of four are lost to a late reader, who gets three items. -/
theorem subscription_accounts_for_lost :
    let joined := (new 1).run [.join "topic" "one", .join "topic" "other"]
    let later : List Move :=
      [.publish 1 [0], .publish 0 [1], .publish 1 [2], .read 0 .fetch, .publish 1 [3]]
    let final := (joined.act (.subscribe 0)).run later
    ∃ subscription, (final.log? 0).bind LocalLog.subscription = some subscription ∧
      let items := (subscription.drain final.network "topic").1
      items.length = 3 ∧ Accounts 1 "topic" [[0], [1], [2], [3]] items [] := by
  intro joined later final
  have conditions : (max 1 1).nextPowerOfTwo = 1 ∧
      publishedOn "topic" (joined.act (.subscribe 0)) later = [[0], [1], [2], [3]] ∧
      ∀ subscription ∈ (final.log? 0).bind LocalLog.subscription,
        (subscription.drain final.network "topic").1.length = 3 := by
    decide +kernel
  obtain ⟨capacity_eq, since_eq, three⟩ := conditions
  obtain ⟨_, subscription, subscribed, _, _, accounts⟩ :=
    subscription_accounts_for_all 1 ([.join "topic" "one", .join "topic" "other"] ++
      .subscribe 0 :: later) rfl rfl (by decide)
  refine ⟨subscription, subscribed, three subscription subscribed, ?_⟩
  rw [capacity_eq] at accounts
  rw [← since_eq]
  exact accounts

end Exchange

end PositionSync
