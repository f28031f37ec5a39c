import PositionSync.Proofs.Position.Loading
import PositionSync.Proofs.Service.Stages

/-!
# Loads and starts that fail

A load replaces the table as a whole or not at all. A start that cannot read the table leaves nothing
behind but its answer, and answers have no influence on what happens later. So whatever is done after such
a start leads to what it would have led to without the start.
-/

namespace PositionSync

namespace Service

section Loads

variable (service : Service) (files : FileSystem)

/-- What the file of a service stands for: an empty table if there is none, and otherwise the table that
it holds. -/
inductive Provides : PositionTable → Prop
  | nothing (noFile : service.store.isInMemory = true ∨ files.pathExists service.store.path = false) :
      Provides .empty
  | file {table : PositionTable} (hasPath : service.store.isInMemory = false)
      (isThere : files.pathExists service.store.path = true)
      (holds : service.store.HoldsTable files table) : Provides table

variable {service files}

theorem load_of_provides {table : PositionTable} (provides : service.Provides files table) :
    service.load files = .ok (service.withTable table) := by
  rw [load_eq]
  cases provides with
  | nothing noFile =>
      have hasNone : ¬ service.store.hasFile files = true := by
        rw [Store.hasFile_iff]
        rintro ⟨hasPath, isThere⟩
        simp [hasPath, isThere] at noFile
      rw [Store.storedTable_of_no_file hasNone]
      rfl
  | file hasPath isThere holds =>
      rw [(Store.storedTable_eq_ok_iff (Store.hasFile_iff.2 ⟨hasPath, isThere⟩)).2 holds]
      rfl

theorem load_of_not_provides (providesNone : ∀ table, ¬ service.Provides files table) :
    ∃ message, service.load files = .error (.state message) := by
  have hasPath : service.store.isInMemory = false := by
    rw [← Bool.not_eq_true]
    exact fun inMemory => providesNone .empty (.nothing (.inl inMemory))
  have isThere : files.pathExists service.store.path = true := by
    rw [← Bool.not_eq_false]
    exact fun absent => providesNone .empty (.nothing (.inr absent))
  obtain ⟨message, refused⟩ :=
    Store.storedTable_eq_error (Store.hasFile_iff.2 ⟨hasPath, isThere⟩) fun table holds =>
      providesNone table (.file hasPath isThere holds)
  refine ⟨message, ?_⟩
  rw [load_eq, refused]
  rfl

/-- A load succeeds exactly if there is something to load, and then with this. -/
theorem load_eq_ok_iff {loaded : Service} :
    service.load files = .ok loaded ↔
      ∃ table, service.Provides files table ∧ loaded = service.withTable table := by
  constructor
  · intro loads
    by_contra! providesNone
    obtain ⟨message, refused⟩ := load_of_not_provides fun table provides =>
      providesNone table provides (Except.ok.inj (loads.symm.trans (load_of_provides provides)))
    cases loads.symm.trans refused
  · rintro ⟨table, provides, rfl⟩
    exact load_of_provides provides

end Loads

end Service

namespace Session

variable (session : Session) (earlier : List Answer)

/-- The session with answers that had been given before its own. -/
def recalling : Session := { session with answers := earlier ++ session.answers }

theorem answer_recalling (operation : LifecycleOperation) (found : Lifecycle)
    (stored : Option (Except Error Unit)) (result : Except Error Unit) (events : List LogEvent) :
    (session.recalling earlier).answer operation found stored result events =
      (session.answer operation found stored result events).recalling earlier := by
  simp only [answer, recalling, List.append_assoc]

theorem service_recalling : (session.recalling earlier).service = session.service :=
  rfl

theorem files_recalling : (session.recalling earlier).files = session.files :=
  rfl

theorem holder_recalling : (session.recalling earlier).holder = session.holder :=
  rfl

theorem world_recalling : (session.recalling earlier).world = session.world :=
  rfl

theorem log_recalling : (session.recalling earlier).log = session.log :=
  rfl

theorem adopt_recalling (service : Service) (world : (Network × LocalLog) × List LogEvent) :
    (session.recalling earlier).adopt service world =
      (session.adopt service world).recalling earlier :=
  rfl

theorem call_recalling (operation : LifecycleOperation) :
    (session.recalling earlier).call operation = (session.call operation).recalling earlier := by
  rw [call, call, holder_recalling, service_recalling, files_recalling, world_recalling]
  split
  · rfl
  · cases operation with
    | start =>
        simp only [answer_recalling]
        cases session.service.beginStart session.files with
        | error error => rfl
        | ok loaded => rfl
    | stop =>
        simp only [answer_recalling, adopt_recalling]
        cases session.service.beginStop noting session.world with
        | error error => rfl
        | ok flushed => rfl

theorem proceed_recalling (now : Instant) (moment : Moment) :
    (session.recalling earlier).proceed now moment = (session.proceed now moment).recalling earlier := by
  rw [proceed.eq_def, proceed.eq_def, holder_recalling, service_recalling, files_recalling,
    world_recalling]
  rcases session.holder with _ | ⟨errand, found, events⟩
  · rfl
  · cases errand with
    | join =>
        simp only [adopt_recalling, answer_recalling]
        rcases session.service.joinLog noting now session.world with ⟨_ | _, joined, world⟩
        · rfl
        · rfl
    | announce | leave => simp only [adopt_recalling, answer_recalling]
    | write | endTasks => rfl

theorem background_recalling (step : Background) :
    (session.recalling earlier).background step = (session.background step).recalling earlier := by
  cases step with
  | fetch | publish => rfl
  | handle =>
      rw [background, background, handleNext, handleNext, service_recalling, log_recalling]
      split
      · cases session.log.subscription.bind Subscription.next? with
        | none => rfl
        | some head => rfl
      · rfl

/-- Whatever happens in a session, earlier answers only stand in front. -/
theorem perform_recalling (move : Move) :
    (session.recalling earlier).perform move = (session.perform move).recalling earlier := by
  cases move with
  | call operation => exact session.call_recalling earlier operation
  | proceed now moment => exact session.proceed_recalling earlier now moment
  | background step => exact session.background_recalling earlier step
  | put | putMany | remove | synchronize | persist | listen | changeFiles => rfl
  | load =>
      simp only [perform, service_recalling, files_recalling]
      cases session.service.load session.files with
      | error error => rfl
      | ok loaded => rfl

theorem run_recalling (moves : List Move) :
    (session.recalling earlier).run moves = (session.run moves).recalling earlier := by
  induction moves generalizing session with
  | nil => rfl
  | cons move later ih =>
      rw [run, List.foldl_cons, perform_recalling]
      exact ih _

/-- The answer of a start that cannot read the table. -/
def unreadAnswer (error : Error) : Answer :=
  ⟨.start, .stopped, some (.error error), .error error, [], .stopped⟩

/-- The session after a start that has read the table has joined the log and announced the service. -/
def started (session : Session) (loaded : Service) (now : Instant) : Session :=
  let tasks : Tasks := ⟨true, .start session.service.settings now⟩
  let message : PositionMessage := ⟨.online, loaded.table⟩
  { session with
    service := { loaded with lifecycle := .running tasks }
    network := session.log.send message session.network
    log := session.log.subscribe session.network
    events := session.events ++ [.subscribed, .sent message]
    answers := session.answers ++ [⟨.start, .stopped, some (.ok ()), .ok (),
      [.subscribed, .sent message], .running tasks⟩] }

/-- A start that cannot read the table because of an error does nothing but answer, so that everything
later goes on as without it. Once the file has been repaired, a start succeeds. -/
structure LeavesOnlyAnswer (session : Session) (error : Error) : Prop where
  start : ∀ now : Instant,
    session.service.start LocalLog.replicated session.files now (session.network, session.log) =
      (.error error, session.service, (session.network, session.log))
  call : session.call .start = { session with answers := session.answers ++ [unreadAnswer error] }
  later : ∀ moves : List Move, ∃ given, (session.run moves).answers = session.answers ++ given ∧
    (session.call .start).run moves =
      { session.run moves with answers := session.answers ++ unreadAnswer error :: given }
  repaired : ∀ (files : FileSystem) (loaded : Service), session.service.load files = .ok loaded →
    ∀ (now later : Instant) (moment laterMoment : Moment),
      (session.call .start).run [.changeFiles files, .call .start, .proceed now moment,
          .proceed later laterMoment] =
        { session with files, answers := session.answers ++ [unreadAnswer error] }.started loaded now

section Attempts

variable {session : Session} (stopped : session.stage? = some .stopped)

include stopped

theorem holder_of_stopped : session.holder = none := by
  rw [stage?] at stopped
  split at stopped
  · cases stopped
  · next free => simpa using free

theorem lifecycle_of_stopped : session.service.lifecycle = .stopped := by
  rw [stage?, holder_of_stopped stopped] at stopped
  exact Option.some.inj stopped

theorem call_start_of_unread {error : Error}
    (unread : session.service.load session.files = .error error) :
    session.call .start = { session with answers := session.answers ++ [unreadAnswer error] } := by
  have free := holder_of_stopped stopped
  have stage := lifecycle_of_stopped stopped
  rw [call_unread free stage unread]
  simp only [answer, unreadAnswer, stage, ← free]

theorem start_of_unread {error : Error}
    (unread : session.service.load session.files = .error error) (now : Instant) :
    session.service.start LocalLog.replicated session.files now (session.network, session.log) =
      (.error error, session.service, (session.network, session.log)) := by
  rw [Service.start, Service.beginStart, lifecycle_of_stopped stopped, unread]
  rfl

/-- A start that reads the table and is left alone subscribes and announces what it has read. -/
theorem run_start_of_read {loaded : Service}
    (read : session.service.load session.files = .ok loaded) (now later : Instant)
    (moment laterMoment : Moment) :
    session.run [.call .start, .proceed now moment, .proceed later laterMoment] =
      session.started loaded now := by
  have free := holder_of_stopped stopped
  have stage := lifecycle_of_stopped stopped
  obtain ⟨table, -, rfl⟩ := Service.load_eq_ok_iff.1 read
  simp [run, perform, call_joining free stage read, free, Except.map, proceed, Service.joinLog,
    ReplicatedLog.noting, LocalLog.replicated, world, adopt, Service.finishStart, Service.announce,
    answer, started, Service.withTable, Service.table, LocalLog.send, LocalLog.subscribe]

theorem leavesOnlyAnswer {error : Error}
    (unread : session.service.load session.files = .error error) :
    session.LeavesOnlyAnswer error where
  start now := start_of_unread stopped unread now
  call := call_start_of_unread stopped unread
  later moves := by
    -- Both runs are those of a session without answers, told of different earlier answers.
    let unanswered : Session := { session with answers := [] }
    have plain : session = unanswered.recalling session.answers := by
      rw [recalling, List.append_nil]
    have attempted : session.call .start =
        unanswered.recalling (session.answers ++ [unreadAnswer error]) := by
      rw [call_start_of_unread stopped unread, recalling, List.append_nil]
    have plainRun : session.run moves = (unanswered.run moves).recalling session.answers := by
      rw [← run_recalling, ← plain]
    refine ⟨(unanswered.run moves).answers, ?_, ?_⟩
    · rw [plainRun, recalling]
    · rw [attempted, run_recalling, plainRun, recalling, recalling, List.append_assoc]
      rfl
  repaired files loaded reads now later moment laterMoment := by
    rw [call_start_of_unread stopped unread]
    let repairedSession : Session :=
      { session with files, answers := session.answers ++ [unreadAnswer error] }
    have stillStopped : repairedSession.stage? = some .stopped := stopped
    exact run_start_of_read stillStopped reads now later moment laterMoment

end Attempts

section Repair

/-- A stopped service with a pending position, whose file has been cut off. -/
def cutOff : Session :=
  (new (.new (.ofText "a.json")) .never "t" "a" .new
    (FileSystem.empty.change (.write (.ofText "a.json") (Utf8.encode "\x7b\"version\":1")))).run
    [.put ⟨.ofList [("p", "b")]⟩ ⟨.ofList [("at", "2")]⟩]

def repaired : FileSystem :=
  FileSystem.empty.change (.write (.ofText "a.json")
    (Utf8.encode "[1,\"2024-01-01T00:00:00Z\",[[\x7b\"p\":\"a\"\x7d,\x7b\"at\":\"1\"\x7d]]]"))

/-- What the repaired file holds. -/
def kept : PositionTable := .ofList [(⟨.ofList [("p", "a")]⟩, ⟨.ofList [("at", "1")]⟩)]

end Repair

end Session

end PositionSync
