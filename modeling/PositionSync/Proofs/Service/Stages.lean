import Mathlib.Data.List.Chain
import PositionSync.Proofs.Service.Session

/-!
# Stages of a service

Between its calls a service is either stopped, without subscription and tasks, or running with one
subscription, whatever has happened. Every start that succeeds has announced the service on its new
subscription, and every stop that is accepted takes all down again, also if the table could not be
written.
-/

namespace PositionSync

/-- What can become of a start or stop. -/
inductive Answer.IsProper : Answer → Prop where
  | started (tasks : Tasks) (positions : PositionTable) : IsProper
      ⟨.start, .stopped, some (.ok ()), .ok (), [.subscribed, .sent ⟨.online, positions⟩],
        .running tasks⟩
  | unread (error : Error) : IsProper
      ⟨.start, .stopped, some (.error error), .error error, [], .stopped⟩
  | stopped (tasks : Tasks) (written : Except Error Unit) (positions : PositionTable) : IsProper
      ⟨.stop, .running tasks, some written, written,
        [.sent ⟨.positionChange, positions⟩, .unsubscribed], .stopped⟩
  | startRejected (tasks : Tasks) : IsProper
      ⟨.start, .running tasks, none, .error (.lifecycle .start "running"), [], .running tasks⟩
  | stopRejected : IsProper
      ⟨.stop, .stopped, none, .error (.lifecycle .stop "stopped"), [], .stopped⟩

namespace Session

/-- How the call that has the lifecycle to itself, the stage of the service and whether it is subscribed
fit together. -/
inductive Fits : Option Call → Lifecycle → Bool → Prop where
  | stopped : Fits none .stopped false
  | running (schedule : Schedule) : Fits none (.running ⟨true, schedule⟩) true
  | joining : Fits (some ⟨.join, .stopped, []⟩) (.starting none) false
  | announcing (schedule : Schedule) :
      Fits (some ⟨.announce, .stopped, [.subscribed]⟩) (.starting (some ⟨true, schedule⟩)) true
  | writing (schedule : Schedule) (positions : PositionTable) :
      Fits (some ⟨.write, .running ⟨true, schedule⟩, [.sent ⟨.positionChange, positions⟩]⟩)
        (.stopping (some ⟨true, schedule⟩)) true
  | ending (schedule : Schedule) (written : Except Error Unit) (positions : PositionTable) :
      Fits (some ⟨.endTasks written, .running ⟨true, schedule⟩,
        [.sent ⟨.positionChange, positions⟩]⟩) (.stopping (some ⟨true, schedule⟩)) true
  | leaving (schedule : Schedule) (written : Except Error Unit) (positions : PositionTable) :
      Fits (some ⟨.leave written, .running ⟨true, schedule⟩,
        [.sent ⟨.positionChange, positions⟩]⟩) (.stopping none) true

/-- Whether a service has one subscription or none. -/
structure Listens (session : Session) (listening : Bool) : Prop where
  subscription : session.log.subscription.isSome = listening
  events : session.events.count .subscribed =
    session.events.count .unsubscribed + listening.toNat

/-- Whether starts and stops take turns, and a stop is next exactly if `isUp`. -/
structure TakesTurns (operations : List LifecycleOperation) (isUp : Bool) : Prop where
  chain : operations.IsChain (· ≠ ·)
  first : ∀ operation ∈ operations.head?, operation = .start
  last : operations.getLast? = some .start ↔ isUp = true

/-- Whether the last start has succeeded and no stop has ended since. -/
def isUp (session : Session) : Bool :=
  match session.service.lifecycle with
  | .running _ | .stopping _ => true
  | .stopped | .starting _ => false

/-- What holds after any moves. -/
structure IsSound (session : Session) : Prop where
  fits : ∃ listening, Fits session.holder session.service.lifecycle listening ∧
    session.Listens listening
  answers : ∀ answer ∈ session.answers, answer.IsProper
  turns : TakesTurns session.turns session.isUp

theorem TakesTurns.start {operations : List LifecycleOperation}
    (turns : TakesTurns operations false) : TakesTurns (operations ++ [.start]) true where
  chain := by
    rw [List.isChain_append]
    refine ⟨turns.chain, List.isChain_singleton _, ?_⟩
    intro last isLast next isNext
    obtain rfl : .start = next := by simpa using isNext
    rintro rfl
    exact Bool.false_ne_true (turns.last.1 isLast)
  first operation isFirst := by
    cases operations with
    | nil => simpa [eq_comm] using isFirst
    | cons first rest => exact turns.first operation isFirst
  last := by simp

theorem TakesTurns.stop {operations : List LifecycleOperation}
    (turns : TakesTurns operations true) : TakesTurns (operations ++ [.stop]) false where
  chain := by
    rw [List.isChain_append]
    refine ⟨turns.chain, List.isChain_singleton _, ?_⟩
    intro last isLast next isNext
    obtain rfl : .stop = next := by simpa using isNext
    rw [turns.last.2 rfl] at isLast
    obtain rfl := Option.some.inj isLast
    simp
  first operation isFirst := by
    cases operations with
    | nil => simpa using turns.last.2 rfl
    | cons first rest => exact turns.first operation isFirst
  last := by simp

/-- What leaves the stage of a service and its subscription alone. -/
structure Undisturbed (before after : Session) : Prop where
  holder : after.holder = before.holder
  lifecycle : after.service.lifecycle = before.service.lifecycle
  answers : after.answers = before.answers
  subscription : after.log.subscription.isSome = before.log.subscription.isSome
  events : ∃ messages : List PositionMessage, after.events = before.events ++ messages.map .sent

theorem Listens.of_undisturbed {before after : Session} {listening : Bool}
    (listens : before.Listens listening) (undisturbed : Undisturbed before after) :
    after.Listens listening where
  subscription := undisturbed.subscription.trans listens.subscription
  events := by
    obtain ⟨messages, events⟩ := undisturbed.events
    have unnoted (event : LogEvent) (notSent : ∀ message, event ≠ .sent message) :
        (messages.map LogEvent.sent).count event = 0 := by
      rw [List.count_eq_zero, List.mem_map]
      rintro ⟨message, -, rfl⟩
      exact notSent message rfl
    rw [events, List.count_append, List.count_append, unnoted .subscribed (by simp),
      unnoted .unsubscribed (by simp)]
    exact listens.events

theorem IsSound.of_undisturbed {before after : Session} (sound : before.IsSound)
    (undisturbed : Undisturbed before after) : after.IsSound where
  fits := by
    obtain ⟨listening, fits, listens⟩ := sound.fits
    rw [undisturbed.holder, undisturbed.lifecycle]
    exact ⟨listening, fits, listens.of_undisturbed undisturbed⟩
  answers := by
    rw [undisturbed.answers]
    exact sound.answers
  turns := by
    have turns := sound.turns
    rw [Session.turns, isUp] at turns ⊢
    rwa [undisturbed.answers, undisturbed.lifecycle]

theorem sendAll_noting (messages : List PositionMessage) (network : Network) (log : LocalLog)
    (events : List LogEvent) :
    ∃ later, noting.sendAll messages ((network, log), events) =
      ((later, log), events ++ messages.map .sent) := by
  induction messages generalizing network events with
  | nil => exact ⟨network, by simp [ReplicatedLog.sendAll]⟩
  | cons message rest ih =>
      obtain ⟨later, sent⟩ := ih (log.send message network) (events ++ [.sent message])
      refine ⟨later, ?_⟩
      rw [List.append_assoc] at sent
      exact sent

theorem undisturbed_handleNext (session : Session) : Undisturbed session session.handleNext := by
  have same : Undisturbed session session := ⟨rfl, rfl, rfl, rfl, [], by simp⟩
  unfold handleNext
  split
  · cases next : session.log.subscription.bind Subscription.next? with
    | none => exact same
    | some found =>
        obtain ⟨delivery, subscription⟩ := found
        have subscribed : session.log.subscription.isSome := by
          cases held : session.log.subscription with
          | none => simp [held] at next
          | some _ => rfl
        obtain ⟨listeners, service, world⟩ := session.service.handleDelivery_spec noting
          ((session.network, { session.log with subscription := some subscription }), []) delivery
        obtain ⟨network, sent⟩ := sendAll_noting (session.service.table.answer delivery)
          session.network { session.log with subscription := some subscription } []
        simp only [adopt, service, world, sent]
        exact ⟨rfl, rfl, rfl, subscribed.symm, _, by rw [List.nil_append]⟩
  · exact same

theorem undisturbed_background (session : Session) (step : Background) :
    Undisturbed session (session.background step) := by
  cases step with
  | fetch => exact ⟨rfl, rfl, rfl, by simp [background, LocalLog.fetch], [], by simp [background]⟩
  | handle => exact session.undisturbed_handleNext
  | publish topic payload => exact ⟨rfl, rfl, rfl, rfl, [], by simp [background]⟩

/-- Whether a move is neither a start or stop nor a part of it. -/
def Move.isOther : Move → Bool
  | .call _ | .proceed .. => false
  | _ => true

theorem undisturbed_perform (session : Session) {move : Move} (isOther : move.isOther = true) :
    Undisturbed session (session.perform move) := by
  cases move with
  | call | proceed => cases isOther
  | background step => exact session.undisturbed_background step
  | synchronize =>
      exact ⟨rfl, rfl, rfl, rfl, [⟨.positionChange, session.service.pendingPositions⟩], rfl⟩
  | load =>
      simp only [perform]
      rcases session.service.load_cases session.files with ⟨error, fails⟩ | ⟨table, loads⟩
      · simp only [fails]
        exact ⟨rfl, rfl, rfl, rfl, [], by simp⟩
      · simp only [loads]
        exact ⟨rfl, rfl, rfl, rfl, [], by simp⟩
  | put | putMany | remove | persist | listen | changeFiles =>
      exact ⟨rfl, rfl, rfl, rfl, [], by simp [perform]⟩

section Calls

variable {session : Session}

/-- A call that does not fit the stage is rejected, and changes nothing. -/
theorem call_rejected (free : session.holder = none) {operation : LifecycleOperation}
    (unfit : operation = .start ∧ session.service.lifecycle ≠ .stopped ∨
      operation = .stop ∧ session.service.lifecycle.isRunning = false) :
    session.call operation = session.answer operation session.service.lifecycle none
      (.error (.lifecycle operation session.service.lifecycle.name)) [] := by
  rcases unfit with ⟨rfl, unfit⟩ | ⟨rfl, unfit⟩
  · cases stage : session.service.lifecycle with
    | stopped => exact absurd stage unfit
    | starting | running | stopping => simp [call, free, Service.beginStart, stage]
  · cases stage : session.service.lifecycle with
    | running tasks => simp [stage, Lifecycle.isRunning] at unfit
    | starting | stopped | stopping => simp [call, free, Service.beginStop, stage]

theorem call_unread (free : session.holder = none) (stage : session.service.lifecycle = .stopped)
    {error : Error} (fails : session.service.load session.files = .error error) :
    session.call .start =
      session.answer .start .stopped (some (.error error)) (.error error) [] := by
  simp [call, free, Service.beginStart, stage, fails, Except.map]

theorem call_joining (free : session.holder = none) (stage : session.service.lifecycle = .stopped)
    {loaded : Service} (loads : session.service.load session.files = .ok loaded) :
    session.call .start = { session with
      service := { loaded with lifecycle := .starting none }
      holder := some ⟨.join, .stopped, []⟩ } := by
  simp [call, free, Service.beginStart, stage, loads, Except.map]

theorem call_writing (free : session.holder = none) {tasks : Tasks}
    (stage : session.service.lifecycle = .running tasks) :
    session.call .stop = { session with
      service := { session.service with pending := .empty, lifecycle := .stopping (some tasks) }
      network := session.log.send ⟨.positionChange, session.service.pendingPositions⟩ session.network
      events := session.events ++ [.sent ⟨.positionChange, session.service.pendingPositions⟩]
      holder := some ⟨.write, .running tasks,
        [.sent ⟨.positionChange, session.service.pendingPositions⟩]⟩ } := by
  simp only [call, free, Service.beginStop, stage]
  rfl

end Calls

section Soundness

variable {session : Session}

theorem turns_answer {operation : LifecycleOperation} {found : Lifecycle}
    {stored : Option (Except Error Unit)} {result : Except Error Unit} {events : List LogEvent} :
    (session.answer operation found stored result events).turns = session.turns ++
      if Answer.isAccepted ⟨operation, found, stored, result, events, session.service.lifecycle⟩
      then [operation] else [] := by
  simp only [turns, answer, List.filter_append, List.map_append]
  split <;> simp_all

theorem isSound_answer {operation : LifecycleOperation} {found : Lifecycle}
    {stored : Option (Except Error Unit)} {result : Except Error Unit} {events : List LogEvent}
    {listening : Bool} (answers : ∀ answer ∈ session.answers, answer.IsProper)
    (fits : Fits none session.service.lifecycle listening) (listens : session.Listens listening)
    (proper : Answer.IsProper ⟨operation, found, stored, result, events, session.service.lifecycle⟩)
    (turns : TakesTurns (session.answer operation found stored result events).turns session.isUp) :
    (session.answer operation found stored result events).IsSound where
  fits := ⟨listening, fits, listens.subscription, listens.events⟩
  answers := by
    intro other member
    rcases List.mem_append.1 member with before | last
    · exact answers other before
    · rwa [List.mem_singleton.1 last]
  turns := turns

theorem Fits.free_cases {lifecycle : Lifecycle} {listening : Bool}
    (fits : Fits none lifecycle listening) :
    (lifecycle = .stopped ∧ listening = false) ∨
      ∃ schedule, lifecycle = .running ⟨true, schedule⟩ ∧ listening = true := by
  cases fits with
  | stopped => exact .inl ⟨rfl, rfl⟩
  | running schedule => exact .inr ⟨schedule, rfl, rfl⟩

theorem IsSound.call (sound : session.IsSound) (operation : LifecycleOperation) :
    (session.call operation).IsSound := by
  by_cases busy : session.holder.isSome
  · rwa [Session.call, if_pos busy]
  have free : session.holder = none := by simpa using busy
  obtain ⟨listening, fits, listens⟩ := sound.fits
  have turns := sound.turns
  rw [free] at fits
  rcases fits.free_cases with ⟨stage, rfl⟩ | ⟨schedule, stage, rfl⟩
  · rw [isUp, stage] at turns
    cases operation with
    | start =>
        rcases session.service.load_cases session.files with ⟨error, fails⟩ | ⟨table, loads⟩
        · rw [call_unread free stage fails]
          refine isSound_answer sound.answers fits listens (stage ▸ .unread error) ?_
          rw [turns_answer, isUp, stage]
          simpa [Answer.isAccepted, Except.isOk, Except.toBool] using turns
        · rw [call_joining free stage loads]
          exact ⟨⟨false, .joining, listens.subscription, listens.events⟩, sound.answers, turns⟩
    | stop =>
        rw [call_rejected free (.inr ⟨rfl, by rw [stage]; rfl⟩)]
        refine isSound_answer sound.answers fits listens (stage ▸ .stopRejected) ?_
        rw [turns_answer, isUp, stage]
        simpa [Answer.isAccepted] using turns
  · rw [isUp, stage] at turns
    cases operation with
    | start =>
        rw [call_rejected free (.inl ⟨rfl, by simp [stage]⟩)]
        refine isSound_answer sound.answers fits listens (stage ▸ .startRejected _) ?_
        rw [turns_answer, isUp, stage]
        simpa [Answer.isAccepted, Except.isOk, Except.toBool] using turns
    | stop =>
        rw [call_writing free stage]
        refine ⟨⟨true, .writing schedule _, listens.subscription, ?_⟩, sound.answers, turns⟩
        simpa using listens.events

theorem IsSound.proceed (sound : session.IsSound) (now : Instant) (moment : Moment) :
    (session.proceed now moment).IsSound := by
  obtain ⟨listening, fits, listens⟩ := sound.fits
  have turns := sound.turns
  rw [isUp] at turns
  unfold Session.proceed
  cases holding : session.holder with
  | none => exact sound
  | some call =>
  rw [holding] at fits
  -- What fits the call leaves one case for each of its steps.
  generalize stage : session.service.lifecycle = lifecycle at fits turns
  cases fits with
  | joining =>
      refine ⟨⟨true, .announcing (.start session.service.settings now), rfl, ?_⟩, sound.answers,
        turns⟩
      simpa [adopt, Service.joinLog, ReplicatedLog.noting, LocalLog.replicated, world, Except.map]
        using listens.events
  | announcing schedule =>
      simp only [Service.finishStart, stage]
      refine isSound_answer sound.answers (.running schedule) ⟨listens.subscription, ?_⟩
        (.started _ _) ?_
      · simpa [adopt, Service.announce, ReplicatedLog.noting, world] using listens.events
      · rw [turns_answer]
        exact turns.start
  | writing schedule positions =>
      simp only
      rw [← stage] at turns
      refine ⟨⟨true, ?_, listens.subscription, listens.events⟩, sound.answers, turns⟩
      simp only [stage]
      exact .ending schedule _ positions
  | ending schedule written positions =>
      exact ⟨⟨true, .leaving schedule written positions, listens.subscription, listens.events⟩,
        sound.answers, turns⟩
  | leaving schedule written positions =>
      simp only [Service.finishStop]
      refine isSound_answer sound.answers .stopped ⟨rfl, ?_⟩ (.stopped _ written positions) ?_
      · simpa [adopt, ReplicatedLog.noting, world] using listens.events
      · rw [turns_answer]
        exact turns.stop

theorem IsSound.perform (sound : session.IsSound) (move : Move) : (session.perform move).IsSound := by
  cases move with
  | call operation => exact sound.call operation
  | proceed now moment => exact sound.proceed now moment
  | background | put | putMany | remove | synchronize | persist | load | listen | changeFiles =>
      exact sound.of_undisturbed (session.undisturbed_perform rfl)

theorem IsSound.run (sound : session.IsSound) (moves : List Move) : (session.run moves).IsSound := by
  induction moves generalizing session with
  | nil => exact sound
  | cons move rest ih => exact ih (sound.perform move)

theorem isSound_new (store : Store) (settings : FlushSettings) (topic workerId : String)
    (network : Network) (files : FileSystem) :
    (Session.new store settings topic workerId network files).IsSound where
  fits := ⟨false, .stopped, rfl, rfl⟩
  answers _ member := nomatch member
  turns := ⟨.nil, by simp [turns, new], by simp [turns, new, isUp, Service.new]⟩

/-- Only the call that has the lifecycle to itself comes closer to its answer. -/
theorem remaining_perform (move : Move) (busy : session.holder.isSome) :
    (session.perform move).remaining =
      if move.isProceed then session.remaining - 1 else session.remaining := by
  obtain ⟨call, holding⟩ := Option.isSome_iff_exists.1 busy
  cases move with
  | proceed now moment =>
      obtain ⟨errand, found, events⟩ := call
      cases errand with
      | join | announce | write | endTasks | leave =>
          simp only [perform, proceed, holding, remaining]
          rfl
  | call operation => simp [perform, Session.call, busy, Move.isProceed]
  | background | put | putMany | remove | synchronize | persist | load | listen | changeFiles =>
      rw [remaining, (session.undisturbed_perform rfl).holder]
      rfl

/-- A free service is stopped, or runs with its tasks. -/
theorem IsSound.free_cases (sound : session.IsSound) (free : session.holder = none) :
    session.service.lifecycle = .stopped ∨
      ∃ tasks, session.service.lifecycle = .running tasks := by
  obtain ⟨listening, fits, -⟩ := sound.fits
  rw [free] at fits
  rcases fits.free_cases with ⟨stage, -⟩ | ⟨schedule, stage, -⟩
  · exact .inl stage
  · exact .inr ⟨_, stage⟩

theorem IsSound.listens_of_stopped (sound : session.IsSound)
    (stage : session.service.lifecycle = .stopped) : session.Listens false := by
  obtain ⟨listening, fits, listens⟩ := sound.fits
  rw [stage] at fits
  generalize session.holder = holder at fits
  cases fits with
  | stopped => exact listens

theorem IsSound.listens_of_running (sound : session.IsSound) {tasks : Tasks}
    (stage : session.service.lifecycle = .running tasks) :
    tasks.consuming = true ∧ session.Listens true := by
  obtain ⟨listening, fits, listens⟩ := sound.fits
  rw [stage] at fits
  generalize session.holder = holder at fits
  cases fits with
  | running schedule => exact ⟨rfl, listens⟩

end Soundness

end Session

end PositionSync
