import PositionSync.Proofs.Service.Runs
import PositionSync.Source.Position

/-!
# Periodic flushing is explicit flushing

What a service does by itself while it runs is what somebody else would do who synchronizes at every
multiple of the one interval at which something is pending, and writes the table at every multiple of the
other one. A write that fails leaves all later flushes as they are, and where both are due at once their
order makes no difference.
-/

namespace PositionSync

/-- What surrounds a run: what a write at an instant meets, and which flush comes first where both are
due. -/
structure Surroundings where
  moment : Instant → Moment
  persistFirst : Instant → Bool

/-- Surroundings in which every write meets the same. -/
def Surroundings.steady (moment : Moment) : Surroundings := ⟨fun _ => moment, fun _ => false⟩

/-- Whether an instant after the start is a multiple of an interval. -/
def FallsOn (interval : Option Duration) (startedAt now : Nat) : Prop :=
  startedAt < now ∧ ∃ duration ∈ interval, duration.nanoseconds ∣ now - startedAt

instance (interval : Option Duration) (startedAt now : Nat) :
    Decidable (FallsOn interval startedAt now) :=
  inferInstanceAs (Decidable (startedAt < now ∧ ∃ duration ∈ interval, _))

namespace Schedule

theorem isMultiple_period (interval : Option Duration) (startedAt now : Nat) :
    isMultiple startedAt now (period interval) = true ↔ FallsOn interval startedAt now := by
  unfold FallsOn period isMultiple
  cases interval with
  | none => simp
  | some duration =>
      by_cases zero : duration.nanoseconds = 0
      · simp [zero]
        intro started
        omega
      · simp [zero, Nat.dvd_iff_mod_eq_zero]

variable {interval : Option Duration} {settings : FlushSettings} {startedAt now instant : Nat}

/-- The next instant at which an interval is over. -/
def nextOf? (interval : Option Duration) (startedAt now : Instant) : Option Instant :=
  (period interval).map (nextMultiple startedAt now)

theorem lt_of_mem_nextOf? (started : startedAt ≤ now) (isNext : instant ∈ nextOf? interval startedAt now) :
    now < instant := by
  obtain ⟨span, isSpan, rfl⟩ := Option.map_eq_some_iff.1 isNext
  obtain ⟨duration, -, isPositive⟩ := Option.bind_eq_some_iff.1 isSpan
  have positive : 0 < span := by
    split at isPositive
    · nomatch isPositive
    · cases isPositive
      omega
  have below := Nat.lt_mul_div_succ (now - startedAt) positive
  rw [Nat.mul_comm] at below
  unfold nextMultiple
  omega

/-- Between an instant and the next one at which an interval is over it is never over. -/
theorem not_fallsOn_of_lt_nextOf? (started : startedAt ≤ now) (later : now < instant)
    (earlier : ∀ next ∈ nextOf? interval startedAt now, instant < next) :
    ¬ FallsOn interval startedAt instant := by
  rw [← isMultiple_period]
  cases isSpan : period interval with
  | none => simp [isMultiple]
  | some span =>
      have before : instant < nextMultiple startedAt now span := by
        apply earlier
        rw [nextOf?, isSpan]
        rfl
      have atLeast := Nat.div_mul_le_self (now - startedAt) span
      unfold nextMultiple at before
      simp only [isMultiple, Option.any_some, Bool.and_eq_true, decide_eq_true_eq, not_and]
      intro _ divides
      obtain ⟨count, isCount⟩ := Nat.dvd_of_mod_eq_zero divides
      have above : (now - startedAt) / span < count := by
        apply Nat.lt_of_mul_lt_mul_left (a := span)
        rw [← isCount, Nat.mul_comm]
        omega
      have below : count < (now - startedAt) / span + 1 := by
        apply Nat.lt_of_mul_lt_mul_left (a := span)
        rw [← isCount, Nat.mul_comm]
        omega
      omega

/-- The next instant at which something is done is the first one at which either interval is over. -/
theorem lt_next?_iff (settings : FlushSettings) (startedAt now instant : Nat) :
    (∀ next ∈ (start settings startedAt).next? now, instant < next) ↔
      (∀ next ∈ nextOf? settings.syncEvery startedAt now, instant < next) ∧
        ∀ next ∈ nextOf? settings.persistEvery startedAt now, instant < next := by
  unfold next? nextOf? start
  cases period settings.syncEvery with
  | none => simp
  | some sync =>
      cases period settings.persistEvery with
      | none => simp
      | some persist =>
          simp only [Option.map_some, Option.mem_def, Option.some.injEq, forall_eq', Nat.lt_min]

theorem lt_of_mem_next? (started : startedAt ≤ now)
    (isNext : instant ∈ (start settings startedAt).next? now) : now < instant := by
  apply (lt_next?_iff settings startedAt now now).2 _ instant isNext
  exact ⟨fun _ => lt_of_mem_nextOf? started, fun _ => lt_of_mem_nextOf? started⟩

theorem not_fallsOn_of_lt_next? (started : startedAt ≤ now) (later : now < instant)
    (earlier : ∀ next ∈ (start settings startedAt).next? now, instant < next) :
    ¬ FallsOn settings.syncEvery startedAt instant ∧
      ¬ FallsOn settings.persistEvery startedAt instant := by
  obtain ⟨beforeSync, beforePersist⟩ := (lt_next?_iff settings startedAt now instant).1 earlier
  exact ⟨not_fallsOn_of_lt_nextOf? started later beforeSync,
    not_fallsOn_of_lt_nextOf? started later beforePersist⟩

end Schedule

/-- Handling a delivery asks neither for the settings nor for the stage. -/
theorem Service.handleDelivery_with {ω : Type} (log : ReplicatedLog ω) (service : Service) (world : ω)
    (delivery : Delivery) (settings : FlushSettings) (lifecycle : Lifecycle) :
    handleDelivery log delivery { service with settings, lifecycle } world =
      let handled := service.handleDelivery log delivery world
      { handled with service := { handled.service with settings, lifecycle } } := by
  rw [handleDelivery_eq, handleDelivery_eq]
  by_cases news : service.table.isNews delivery = true
  · exact (if_pos news).trans (by rw [if_pos news]; rfl)
  · exact (if_neg news).trans (by rw [if_neg news]; rfl)

namespace Host

/-- Write the table as far as the storage allows it. -/
def persistIn (surroundings : Surroundings) (host : Host) : Host :=
  (host.persist (surroundings.moment host.now)).2

def flushIn (surroundings : Surroundings) (host : Host) : Flush → Host
  | .synchronize => if host.service.pending.isEmpty then host else host.synchronize.2
  | .persist => host.persistIn surroundings

def flushDueIn (surroundings : Surroundings) (host : Host) : Host :=
  let due := host.service.dueAt host.now
  (if surroundings.persistFirst host.now then due.reverse else due).foldl
    (flushIn surroundings) host

/-- Let time pass up to an instant while the service flushes by itself. -/
def awaitWithin (surroundings : Surroundings) (target : Instant) : Nat → Host → Host
  | 0, host => { host with now := target }
  | fuel + 1, host =>
    match host.service.nextFlush? host.now with
    | none => { host with now := target }
    | some instant =>
      if target < instant then { host with now := target }
      else awaitWithin surroundings target fuel
        ({ host with now := instant }.flushDueIn surroundings)

def await (surroundings : Surroundings) (wait : Nat) (host : Host) : Host :=
  awaitWithin surroundings (host.now + wait) (wait + 1) host

private theorem flushIn_steady (moment : Moment) (host : Host) (kind : Flush) :
    host.flushIn (.steady moment) kind =
      let (files, service, recorder) :=
        host.service.flush Recorder.replicated moment kind host.files host.recorder
      { host with files, service, recorder } := by
  cases kind with
  | synchronize =>
      by_cases nothing : host.service.pending.isEmpty = true
      · simp only [flushIn, Service.flush, if_pos nothing]
      · simp only [flushIn, Service.flush, if_neg nothing]
        rfl
  | persist => rfl

/-- Where every write meets the same, this is what a service does by itself. -/
theorem flushDueIn_steady (moment : Moment) (host : Host) :
    host.flushDueIn (.steady moment) = host.flushDue moment := by
  have flush_all (due : List Flush) (host : Host) : due.foldl (flushIn (.steady moment)) host =
      let (files, service, recorder) := due.foldl
        (fun (files, service, world) kind =>
          service.flush Recorder.replicated moment kind files world)
        (host.files, host.service, host.recorder)
      { host with files, service, recorder } := by
    induction due generalizing host with
    | nil => rfl
    | cons kind later ih =>
        rw [List.foldl_cons, ih, flushIn_steady]
        rfl
  exact flush_all _ host

theorem awaitWithin_steady (moment : Moment) (target : Instant) (fuel : Nat) (host : Host) :
    host.awaitWithin (.steady moment) target fuel = host.advanceWithin moment target fuel := by
  induction fuel generalizing host with
  | zero => rfl
  | succ fuel ih =>
      unfold awaitWithin advanceWithin
      cases host.service.nextFlush? host.now with
      | none => rfl
      | some instant => simp only [flushDueIn_steady, ih]

/-- Call for what is due at an instant: to synchronize only if something is pending, and to write the table
whatever comes of it. -/
def callDue (surroundings : Surroundings) (settings : FlushSettings) (startedAt : Instant)
    (host : Host) : Host :=
  let synchronized :=
    if FallsOn settings.syncEvery startedAt host.now then host.flushIn surroundings .synchronize
    else host
  if FallsOn settings.persistEvery startedAt host.now then synchronized.persistIn surroundings
  else synchronized

/-- Let time pass, one instant after the other, while somebody else calls for what is due. -/
def pass (surroundings : Surroundings) (settings : FlushSettings) (startedAt : Instant) :
    Nat → Host → Host
  | 0, host => host
  | wait + 1, host =>
    pass surroundings settings startedAt wait
      ({ host with now := host.now + 1 }.callDue surroundings settings startedAt)

variable {surroundings : Surroundings} {settings : FlushSettings} {startedAt : Nat} {host : Host}

theorem pass_add (first second : Nat) (host : Host) :
    host.pass surroundings settings startedAt (first + second) =
      (host.pass surroundings settings startedAt first).pass surroundings settings startedAt
        second := by
  induction first generalizing host with
  | zero => rw [Nat.zero_add, pass]
  | succ first ih => rw [Nat.succ_add, pass, pass, ih]

/-- While nothing is due only time passes. -/
theorem pass_of_idle {wait : Nat}
    (idle : ∀ offset < wait, ¬ FallsOn settings.syncEvery startedAt (host.now + offset + 1) ∧
      ¬ FallsOn settings.persistEvery startedAt (host.now + offset + 1)) :
    host.pass surroundings settings startedAt wait = { host with now := host.now + wait } := by
  induction wait generalizing host with
  | zero => rfl
  | succ wait ih =>
      let next : Host := { host with now := host.now + 1 }
      obtain ⟨noSync, noPersist⟩ := idle 0 (Nat.succ_pos wait)
      have nothing : next.callDue surroundings settings startedAt = next := by
        rw [callDue, if_neg noSync, if_neg noPersist]
      have stillIdle : ∀ offset < wait,
          ¬ FallsOn settings.syncEvery startedAt (next.now + offset + 1) ∧
            ¬ FallsOn settings.persistEvery startedAt (next.now + offset + 1) := by
        intro offset inTime
        have later := idle (offset + 1) (Nat.succ_lt_succ inTime)
        rw [← Nat.add_assoc, Nat.add_right_comm host.now offset 1] at later
        exact later
      rw [pass, nothing, ih stillIdle]
      simp only [next, Nat.add_right_comm, Nat.add_assoc]

theorem flushIn_comm (surroundings : Surroundings) (host : Host) :
    (host.flushIn surroundings .persist).flushIn surroundings .synchronize =
      (host.flushIn surroundings .synchronize).flushIn surroundings .persist := by
  let persisted := host.flushIn surroundings .persist
  by_cases nothing : host.service.pending.isEmpty = true
  · have synchronized : host.flushIn surroundings .synchronize = host := if_pos nothing
    have synchronizedThen : persisted.flushIn surroundings .synchronize = persisted := if_pos nothing
    rw [synchronizedThen, synchronized]
  · have synchronized : host.flushIn surroundings .synchronize = host.synchronize.2 := if_neg nothing
    have synchronizedThen :
        persisted.flushIn surroundings .synchronize = persisted.synchronize.2 := if_neg nothing
    rw [synchronizedThen, synchronized]
    rfl

/-- Whether a service runs that began to at some instant, with some settings. -/
def RunsSince (settings : FlushSettings) (startedAt : Instant) (host : Host) : Prop :=
  startedAt ≤ host.now ∧
    ∃ consuming, host.service.lifecycle = .running ⟨consuming, .start settings startedAt⟩

theorem RunsSince.flushDueIn_eq (runs : host.RunsSince settings startedAt) :
    host.flushDueIn surroundings = host.callDue surroundings settings startedAt := by
  obtain ⟨-, consuming, running⟩ := runs
  have due : host.service.dueAt host.now =
      (if FallsOn settings.syncEvery startedAt host.now then [.synchronize] else []) ++
        if FallsOn settings.persistEvery startedAt host.now then [.persist] else [] := by
    simp only [Service.dueAt, running, Lifecycle.tasks?, Schedule.dueAt, Schedule.start,
      Schedule.isMultiple_period]
  rw [flushDueIn, due, callDue]
  by_cases sync : FallsOn settings.syncEvery startedAt host.now
  · by_cases persist : FallsOn settings.persistEvery startedAt host.now
    · cases surroundings.persistFirst host.now with
      | false => simp [sync, persist, flushIn]
      | true =>
        simp only [sync, persist, if_true]
        exact flushIn_comm surroundings host
    · simp [sync, persist]
  · by_cases persist : FallsOn settings.persistEvery startedAt host.now
    · simp [sync, persist, flushIn]
    · simp [sync, persist]

theorem flushIn_keeps (surroundings : Surroundings) (host : Host) (kind : Flush) :
    (host.flushIn surroundings kind).now = host.now ∧
      (host.flushIn surroundings kind).service.lifecycle = host.service.lifecycle := by
  cases kind with
  | synchronize =>
      rw [flushIn]
      split <;> exact ⟨rfl, rfl⟩
  | persist => exact ⟨rfl, rfl⟩

theorem callDue_keeps (surroundings : Surroundings) (settings : FlushSettings) (startedAt : Instant)
    (host : Host) :
    (host.callDue surroundings settings startedAt).now = host.now ∧
      (host.callDue surroundings settings startedAt).service.lifecycle = host.service.lifecycle := by
  have kept := host.flushIn_keeps surroundings .synchronize
  rw [callDue]
  by_cases sync : FallsOn settings.syncEvery startedAt host.now
  · simp only [if_pos sync]
    split <;> exact kept
  · simp only [if_neg sync]
    split <;> exact ⟨rfl, rfl⟩

theorem RunsSince.callDue (runs : host.RunsSince settings startedAt) :
    (host.callDue surroundings settings startedAt).RunsSince settings startedAt := by
  obtain ⟨sameNow, sameStage⟩ := host.callDue_keeps surroundings settings startedAt
  rw [RunsSince, sameNow, sameStage]
  exact runs

theorem RunsSince.pass (runs : host.RunsSince settings startedAt) (surroundings : Surroundings)
    (wait : Nat) :
    (host.pass surroundings settings startedAt wait).RunsSince settings startedAt := by
  induction wait generalizing host with
  | zero => exact runs
  | succ wait ih =>
      apply ih
      apply RunsSince.callDue
      exact ⟨Nat.le_succ_of_le runs.1, runs.2⟩

/-- Up to the next instant at which an interval is over only time passes. -/
theorem pass_before_next {wait : Nat} (started : startedAt ≤ host.now)
    (earlier : ∀ next ∈ (Schedule.start settings startedAt).next? host.now,
      host.now + wait < next) :
    host.pass surroundings settings startedAt wait = { host with now := host.now + wait } := by
  apply pass_of_idle
  intro offset inTime
  apply Schedule.not_fallsOn_of_lt_next? started
    (Nat.lt_succ_of_le (Nat.le_add_right host.now offset))
  intro next isNext
  exact Nat.lt_of_le_of_lt (Nat.add_le_add_left inTime host.now) (earlier next isNext)

/-- The first that is called for is what is due at that instant. -/
theorem pass_to_next {instant gap : Nat} (started : startedAt ≤ host.now)
    (isNext : (Schedule.start settings startedAt).next? host.now = some instant)
    (isGap : instant = host.now + gap + 1) :
    host.pass surroundings settings startedAt (gap + 1) =
      { host with now := instant }.callDue surroundings settings startedAt := by
  have before : host.pass surroundings settings startedAt gap =
      { host with now := host.now + gap } := by
    apply pass_before_next started
    intro next isThat
    cases isNext.symm.trans isThat
    rw [isGap]
    exact Nat.lt_succ_self _
  rw [pass_add, before, isGap]
  rfl

/-- What a service does by itself while it runs is what others would call for. -/
theorem RunsSince.awaitWithin_eq (runs : host.RunsSince settings startedAt) {wait fuel : Nat}
    (enough : wait < fuel) :
    host.awaitWithin surroundings (host.now + wait) fuel =
      host.pass surroundings settings startedAt wait := by
  induction fuel generalizing host wait with
  | zero => exact absurd enough (Nat.not_lt_zero wait)
  | succ fuel ih =>
      obtain ⟨started, consuming, running⟩ := runs
      have next_eq : host.service.nextFlush? host.now =
          (Schedule.start settings startedAt).next? host.now := by
        simp only [Service.nextFlush?, running, Lifecycle.tasks?, Option.bind_some]
      rw [awaitWithin, next_eq]
      cases isNext : (Schedule.start settings startedAt).next? host.now with
      | none =>
          rw [pass_before_next started]
          simp [isNext]
      | some instant =>
          have later := Schedule.lt_of_mem_next? started isNext
          obtain ⟨gap, isGap⟩ := Nat.exists_eq_add_of_lt later
          dsimp only
          split
          · next beyond =>
            rw [pass_before_next started]
            simpa [isNext] using beyond
          · next within =>
            have inTime : gap + 1 ≤ wait := by
              rw [isGap] at within
              exact Nat.le_of_add_le_add_left (Nat.le_of_not_lt within)
            obtain ⟨rest, rfl⟩ := Nat.exists_eq_add_of_le inTime
            let due : Host := { host with now := instant }
            have runsThen : due.RunsSince settings startedAt :=
              ⟨Nat.le_trans started (Nat.le_of_lt later), consuming, running⟩
            have target_eq : host.now + (gap + 1 + rest) =
                (due.callDue surroundings settings startedAt).now + rest := by
              rw [(due.callDue_keeps surroundings settings startedAt).1, ← Nat.add_assoc]
              simp only [due, isGap, Nat.add_assoc]
            rw [runsThen.flushDueIn_eq, target_eq, ih runsThen.callDue (by omega), pass_add,
              pass_to_next started isNext isGap]

theorem RunsSince.await_eq (runs : host.RunsSince settings startedAt) (wait : Nat) :
    host.await surroundings wait = host.pass surroundings settings startedAt wait :=
  runs.awaitWithin_eq (Nat.lt_succ_self wait)

/-- The same surroundings with other settings, and at another stage. -/
def under (settings : FlushSettings) (lifecycle : Lifecycle) (host : Host) : Host :=
  host.mapService fun service => { service with settings, lifecycle }

theorem callDue_under (surroundings : Surroundings) (settings others : FlushSettings)
    (startedAt : Instant) (lifecycle : Lifecycle) (host : Host) :
    (host.under others lifecycle).callDue surroundings settings startedAt =
      (host.callDue surroundings settings startedAt).under others lifecycle := by
  have synchronized : (host.under others lifecycle).flushIn surroundings .synchronize =
      (host.flushIn surroundings .synchronize).under others lifecycle := by
    by_cases nothing : host.service.pending.isEmpty = true
    · have same : host.flushIn surroundings .synchronize = host := if_pos nothing
      rw [same]
      exact if_pos nothing
    · have same : host.flushIn surroundings .synchronize = host.synchronize.2 := if_neg nothing
      rw [same]
      exact if_neg nothing
  have sameNow : (host.under others lifecycle).now = host.now := rfl
  rw [callDue, callDue, sameNow]
  by_cases sync : FallsOn settings.syncEvery startedAt host.now
  · simp only [if_pos sync, synchronized]
    split <;> rfl
  · simp only [if_neg sync]
    split <;> rfl

theorem pass_under (others : FlushSettings) (lifecycle : Lifecycle) (host : Host) (wait : Nat) :
    (host.under others lifecycle).pass surroundings settings startedAt wait =
      (host.pass surroundings settings startedAt wait).under others lifecycle := by
  induction wait generalizing host with
  | zero => rfl
  | succ wait ih =>
      rw [pass, pass, ← ih, ← callDue_under]
      rfl

end Host

def Operation.isStop : Operation → Bool
  | .stop _ => true
  | _ => false

namespace Host

variable {surroundings : Surroundings} {settings : FlushSettings} {startedAt : Nat} {host : Host}

/-- A service that runs cannot be started. -/
theorem perform_start_of_running {tasks : Tasks} (running : host.service.lifecycle = .running tasks) :
    host.perform .start = host := by
  simp only [Host.perform, start, Service.start, Service.beginStart, running]

theorem lifecycle_perform {operation : Operation} {tasks : Tasks}
    (continues : operation.isStop = false) (running : host.service.lifecycle = .running tasks) :
    (host.perform operation).now = host.now ∧
      (host.perform operation).service.lifecycle = .running tasks := by
  cases operation with
  | start =>
      rw [perform_start_of_running running]
      exact ⟨rfl, running⟩
  | stop => nomatch continues
  | load =>
      rw [Host.perform, load]
      rcases host.service.load_cases host.files with ⟨error, failed⟩ | ⟨table, loaded⟩
      · rw [failed]
        exact ⟨rfl, running⟩
      · rw [loaded]
        exact ⟨rfl, running⟩
  | deliver delivery =>
      obtain ⟨listeners, service, -⟩ :=
        host.service.handleDelivery_spec Recorder.replicated host.recorder delivery
      rw [Host.perform, deliver, service]
      exact ⟨rfl, running⟩
  | put | putMany | remove | synchronize | persist | changeFiles | refuse => exact ⟨rfl, running⟩

theorem RunsSince.perform (runs : host.RunsSince settings startedAt) {operation : Operation}
    (continues : operation.isStop = false) :
    (host.perform operation).RunsSince settings startedAt := by
  obtain ⟨started, consuming, running⟩ := runs
  obtain ⟨sameNow, runsThen⟩ := lifecycle_perform continues running
  refine ⟨?_, consuming, runsThen⟩
  rw [sameNow]
  exact started

/-- No operation but a start or a stop asks for the settings or the stage. -/
theorem perform_under {operation : Operation} {tasks others : Tasks} {settings : FlushSettings}
    (continues : operation.isStop = false) (running : host.service.lifecycle = .running tasks) :
    (host.under settings (.running others)).perform operation =
      (host.perform operation).under settings (.running others) := by
  cases operation with
  | start =>
      rw [perform_start_of_running running]
      exact perform_start_of_running rfl
  | stop => nomatch continues
  | load =>
      simp only [Host.perform, load, under, mapService, Service.load]
      cases host.service.store.load host.files <;> rfl
  | deliver delivery =>
      have handled := host.service.handleDelivery_with Recorder.replicated host.recorder delivery
        settings (.running others)
      simp only [Host.perform, deliver, under, mapService, handled]
  | put | putMany | remove | synchronize | persist | changeFiles | refuse => rfl

/-- Operations at their times, each after a wait, while the service flushes by itself. -/
def maintained (surroundings : Surroundings) (events : List (Nat × Operation)) (host : Host) : Host :=
  events.foldl (fun host event => (host.await surroundings event.1).perform event.2) host

/-- Operations at their times, each after a wait, while somebody else calls for what is due. -/
def attended (surroundings : Surroundings) (settings : FlushSettings) (startedAt : Instant)
    (events : List (Nat × Operation)) (host : Host) : Host :=
  events.foldl
    (fun host event => (host.pass surroundings settings startedAt event.1).perform event.2) host

theorem RunsSince.attended_under (runs : host.RunsSince settings startedAt)
    (surroundings : Surroundings) {events : List (Nat × Operation)}
    (continues : ∀ event ∈ events, event.2.isStop = false) (others : FlushSettings) (tasks : Tasks) :
    (host.maintained surroundings events).RunsSince settings startedAt ∧
      (host.under others (.running tasks)).attended surroundings settings startedAt events =
        (host.maintained surroundings events).under others (.running tasks) := by
  induction events generalizing host with
  | nil => exact ⟨runs, rfl⟩
  | cons event later ih =>
      obtain ⟨wait, operation⟩ := event
      have stays : operation.isStop = false := continues _ List.mem_cons_self
      have runsThen := runs.pass surroundings wait
      obtain ⟨_, consuming, running⟩ := runsThen
      have first : ((host.under others (.running tasks)).pass surroundings settings startedAt
          wait).perform operation =
            ((host.await surroundings wait).perform operation).under others (.running tasks) := by
        rw [pass_under, runs.await_eq, perform_under stays running]
      have next := ih ((runs.pass surroundings wait).perform stays)
        fun event isLater => continues event (List.mem_cons_of_mem _ isLater)
      rw [← runs.await_eq] at next
      simp only [maintained, attended, List.foldl_cons, first]
      exact next

/-- A start does not ask for the settings, but for the schedule to keep. -/
theorem start_under (started : host.start.1 = .ok ()) (others : FlushSettings) :
    host.start.2.RunsSince host.service.settings host.now ∧
      (host.under others host.service.lifecycle).start =
        (.ok (), host.start.2.under others (.running ⟨true, .start others host.now⟩)) := by
  cases stage : host.service.lifecycle with
  | starting | running | stopping =>
      simp only [start, Service.start, Service.beginStart, stage] at started
      cases started
  | stopped =>
      have stageThen : (host.under others .stopped).service.lifecycle = .stopped := rfl
      cases read : host.service.store.load host.files with
      | error error =>
          simp only [start, Service.start, Service.beginStart, stage, Service.load, read, Except.map]
            at started
          cases started
      | ok store =>
          have readThen : (host.under others .stopped).service.store.load
              (host.under others .stopped).files = .ok store := read
          cases joined : Recorder.replicated.subscribe host.recorder with
          | error error =>
              simp only [start, Service.start, Service.beginStart, stage, Service.load, read,
                Except.map, Service.joinLog, joined] at started
              cases started
          | ok subscribed =>
              have joinedThen : Recorder.replicated.subscribe (host.under others .stopped).recorder =
                  .ok subscribed := joined
              simp only [start, Service.start, Service.beginStart, stage, stageThen, Service.load,
                read, readThen, Except.map, Service.joinLog, joined, joinedThen]
              exact ⟨⟨Nat.le_refl _, true, rfl⟩, rfl⟩

end Host

/-- The same settings, with no interval in place of one of zero. -/
def FlushSettings.positive (settings : FlushSettings) : FlushSettings :=
  ⟨settings.syncEvery.filter (0 < ·.nanoseconds), settings.persistEvery.filter (0 < ·.nanoseconds)⟩

theorem fallsOn_filter (interval : Option Duration) (startedAt now : Nat) :
    FallsOn (interval.filter (0 < ·.nanoseconds)) startedAt now ↔ FallsOn interval startedAt now := by
  unfold FallsOn
  cases interval with
  | none => rfl
  | some duration =>
      by_cases positive : 0 < duration.nanoseconds
      · have kept : (some duration).filter (0 < ·.nanoseconds) = some duration := by
          simp [positive]
        rw [kept]
      · have zero : duration.nanoseconds = 0 := by omega
        have dropped : (some duration).filter (0 < ·.nanoseconds) = none := by
          simp [zero]
        rw [dropped]
        simp [zero]
        omega

namespace Host

variable {surroundings : Surroundings} {settings : FlushSettings} {startedAt : Nat} {host : Host}

theorem pass_positive (surroundings : Surroundings) (settings : FlushSettings) (startedAt : Nat) :
    pass surroundings settings.positive startedAt = pass surroundings settings startedAt := by
  funext wait host
  induction wait generalizing host with
  | zero => rfl
  | succ wait ih =>
      have sameCall (host : Host) : host.callDue surroundings settings.positive startedAt =
          host.callDue surroundings settings startedAt := by
        simp only [callDue, FlushSettings.positive, fallsOn_filter]
      rw [pass, pass, sameCall, ih]

end Host

end PositionSync
