import PositionSync.Proofs.Position.Persistence
import PositionSync.Proofs.Service.Stages

/-!
# What a stop leaves in the file

A stop writes the table before it ends the background tasks. So deliveries may still be handled after the
table has been written, and the service ends with a later table than the one that the next start finds.
-/

namespace PositionSync.Session

open FileSystem

/-- A session after several things have gone on in the background. -/
def runBackground (steps : List Background) (session : Session) : Session :=
  steps.foldl background session

/-- What has become of a session when nothing but deliveries have been handled. -/
structure Absorbs (deliveries : List Delivery) (before after : Session) : Prop where
  undisturbed : Undisturbed before after
  handled : after.handled = before.handled ++ deliveries
  table : after.service.table = deliveries.foldl PositionTable.absorb before.service.table
  path : after.service.store.path = before.service.store.path
  files : after.files = before.files

theorem Undisturbed.refl (session : Session) : Undisturbed session session :=
  ⟨rfl, rfl, rfl, rfl, [], by simp⟩

theorem Undisturbed.trans {before between after : Session} (first : Undisturbed before between)
    (second : Undisturbed between after) : Undisturbed before after where
  holder := second.holder.trans first.holder
  lifecycle := second.lifecycle.trans first.lifecycle
  answers := second.answers.trans first.answers
  subscription := second.subscription.trans first.subscription
  events := by
    obtain ⟨earlier, eventsBetween⟩ := first.events
    obtain ⟨later, eventsAfter⟩ := second.events
    exact ⟨earlier ++ later, by rw [eventsAfter, eventsBetween, List.map_append, List.append_assoc]⟩

variable {session : Session}

theorem Absorbs.refl (session : Session) : Absorbs [] session session :=
  ⟨.refl session, by simp, rfl, rfl, rfl⟩

theorem Absorbs.trans {earlier later : List Delivery} {before between after : Session}
    (first : Absorbs earlier before between) (second : Absorbs later between after) :
    Absorbs (earlier ++ later) before after where
  undisturbed := first.undisturbed.trans second.undisturbed
  handled := by rw [second.handled, first.handled, List.append_assoc]
  table := by rw [second.table, first.table, List.foldl_append]
  path := second.path.trans first.path
  files := second.files.trans first.files

/-- In the background at most one delivery is handled at a time, and none without tasks. -/
theorem absorbs_background (session : Session) (step : Background) :
    ∃ deliveries, Absorbs deliveries session (session.background step) ∧
      (session.service.isConsuming = false → deliveries = []) := by
  have undisturbed := session.undisturbed_background step
  cases step with
  | fetch => exact ⟨[], ⟨undisturbed, by simp [background], rfl, rfl, rfl⟩, fun _ => rfl⟩
  | publish => exact ⟨[], ⟨undisturbed, by simp [background], rfl, rfl, rfl⟩, fun _ => rfl⟩
  | handle =>
      rw [background, handleNext] at undisturbed ⊢
      split at undisturbed
      · next consuming =>
        rw [if_pos consuming]
        cases next : session.log.subscription.bind Subscription.next? with
        | none => exact ⟨[], .refl session, fun _ => rfl⟩
        | some found =>
            obtain ⟨delivery, subscription⟩ := found
            simp only [next] at undisturbed ⊢
            obtain ⟨listeners, service, -⟩ := session.service.handleDelivery_spec noting
              ((session.network, { session.log with subscription := some subscription }), []) delivery
            refine ⟨[delivery], ⟨undisturbed, rfl, ?_, ?_, rfl⟩, fun idle => ?_⟩
            · simp only [adopt, service]
              rfl
            · simp only [adopt, service]
            · rw [consuming] at idle
              cases idle
      · next idle =>
        rw [if_neg idle]
        exact ⟨[], .refl session, fun _ => rfl⟩

theorem absorbs_runBackground (steps : List Background) (session : Session) :
    ∃ deliveries, Absorbs deliveries session (session.runBackground steps) ∧
      (session.service.isConsuming = false → deliveries = []) := by
  induction steps generalizing session with
  | nil => exact ⟨[], .refl session, fun _ => rfl⟩
  | cons step rest ih =>
      obtain ⟨earlier, first, noneFirst⟩ := session.absorbs_background step
      obtain ⟨later, second, noneThen⟩ := ih (session.background step)
      refine ⟨earlier ++ later, first.trans second, fun idle => ?_⟩
      have stillIdle : (session.background step).service.isConsuming = false := by
        rw [Service.isConsuming, first.undisturbed.lifecycle]
        exact idle
      rw [noneFirst idle, noneThen stillIdle]
      rfl

/-- A stop up to the writing of its table, with what goes on in the background meanwhile. -/
def stopUntilWriting (session : Session) (early : List Background) : Session :=
  (session.call .stop).runBackground early

/-- A stop, with what goes on in the background before its table is written, before the tasks end and
before it leaves. -/
def stopAmid (session : Session) (early late last : List Background) (now : Instant)
    (moment : Moment) : Session :=
  let written := (session.stopUntilWriting early).proceed now moment
  let ended := (written.runBackground late).proceed now moment
  (ended.runBackground last).proceed now moment

section Steps

variable {found : Lifecycle} {events : List LogEvent} {result : Except Error Unit}
  (now : Instant) (moment : Moment)

theorem proceed_write (holding : session.holder = some ⟨.write, found, events⟩)
    {after : FileSystem}
    (persists : session.service.persist moment session.files = (after, result)) :
    session.proceed now moment =
      { session with files := after, holder := some ⟨.endTasks result, found, events⟩ } := by
  simp [proceed, holding, persists]

/-- Once the tasks end, nothing is handled any more. -/
theorem leave_of_endTasks (holding : session.holder = some ⟨.endTasks result, found, events⟩)
    (last : List Background) :
    let ended := ((session.proceed now moment).runBackground last).proceed now moment
    ended.service.table = session.service.table ∧ ended.service.lifecycle = .stopped ∧
      ended.files = session.files ∧ ended.handled = session.handled ∧
      ended.answers.getLast?.map Answer.result = some result := by
  have ends : session.proceed now moment = { session with
      service := session.service.endTasks
      holder := some ⟨.leave result, found, events⟩ } := by simp [proceed, holding]
  obtain ⟨deliveries, absorbs, idle⟩ :=
    (session.proceed now moment).absorbs_runBackground last
  generalize (session.proceed now moment).runBackground last = leaving at absorbs ⊢
  rw [ends] at absorbs idle
  obtain rfl := idle rfl
  have holds : leaving.holder = some ⟨.leave result, found, events⟩ := absorbs.undisturbed.holder
  have leaves : leaving.proceed now moment =
      (leaving.adopt { leaving.service with lifecycle := .stopped }
        (noting.unsubscribe leaving.world)).answer .stop found (some result) result
          (events ++ (noting.unsubscribe leaving.world).2) := by
    simp only [proceed, holds]
    rfl
  rw [leaves]
  refine ⟨absorbs.table, rfl, absorbs.files, ?_, by simp [answer]⟩
  simpa [answer, adopt] using absorbs.handled

end Steps

theorem stopUntilWriting_spec {tasks : Tasks} (free : session.holder = none)
    (stage : session.service.lifecycle = .running tasks) (early : List Background) :
    let flushed := session.stopUntilWriting early
    ∃ earlier events, flushed.holder = some ⟨.write, .running tasks, events⟩ ∧
      flushed.handled = session.handled ++ earlier ∧
      flushed.service.table = earlier.foldl PositionTable.absorb session.service.table ∧
      flushed.service.store.path = session.service.store.path := by
  obtain ⟨earlier, absorbs, -⟩ := (session.call .stop).absorbs_runBackground early
  rw [stopUntilWriting]
  generalize (session.call .stop).runBackground early = flushed at absorbs ⊢
  rw [call_writing free stage] at absorbs
  exact ⟨earlier, _, absorbs.undisturbed.holder, absorbs.handled, absorbs.table, absorbs.path⟩

/-- What a stop leaves behind. Deliveries that are handled before the writing are in the file, and those
that are handled after it are in the table only. -/
theorem stopAmid_spec {tasks : Tasks} (free : session.holder = none)
    (stage : session.service.lifecycle = .running tasks) (early late last : List Background)
    (now : Instant) (moment : Moment) :
    let flushed := session.stopUntilWriting early
    let ended := session.stopAmid early late last now moment
    ∃ earlier later result,
      flushed.handled = session.handled ++ earlier ∧
      flushed.service.table = earlier.foldl PositionTable.absorb session.service.table ∧
      flushed.service.store.path = session.service.store.path ∧
      flushed.service.persist moment flushed.files = (ended.files, result) ∧
      ended.handled = flushed.handled ++ later ∧
      ended.service.table = later.foldl PositionTable.absorb flushed.service.table ∧
      ended.service.lifecycle = .stopped ∧
      ended.answers.getLast?.map Answer.result = some result := by
  obtain ⟨earlier, events, holds, handled, table, path⟩ := stopUntilWriting_spec free stage early
  rw [stopAmid]
  generalize session.stopUntilWriting early = flushed at holds handled table path ⊢
  cases persists : flushed.service.persist moment flushed.files with
  | mk after result =>
  have writes := proceed_write now moment holds persists
  obtain ⟨later, absorbs, -⟩ := (flushed.proceed now moment).absorbs_runBackground late
  generalize (flushed.proceed now moment).runBackground late = ending at absorbs ⊢
  rw [writes] at absorbs
  obtain ⟨tableEnded, stopped, filesEnded, handledEnded, answered⟩ :=
    leave_of_endTasks now moment absorbs.undisturbed.holder last
  refine ⟨earlier, later, result, handled, table, path, ?_, ?_, ?_, stopped, answered⟩
  · rw [filesEnded, absorbs.files, persists]
  · rw [handledEnded, absorbs.handled]
  · rw [tableEnded, absorbs.table]

/-- A stop that succeeds leaves in the file the table that it has written, for every store and every
start to come. The table of the service differs from it only by what was handled afterwards. -/
theorem stop_stores_table_as_written {tasks : Tasks} (free : session.holder = none)
    (stage : session.service.lifecycle = .running tasks)
    (hasPath : session.service.store.isInMemory = false) (early late last : List Background)
    (now : Instant) (moment : Moment)
    (succeeds : (session.stopAmid early late last now moment).answers.getLast?.map
      Answer.result = some (.ok ())) :
    let written := (session.stopUntilWriting early).service.table
    let ended := session.stopAmid early late last now moment
    (∀ reader : Store, reader.path = session.service.store.path →
      reader.load ended.files = .ok { reader with table := written }) ∧
    (∀ next : Service, next.lifecycle = .stopped → next.store.path = session.service.store.path →
      next.beginStart ended.files = .ok { next with
        store := { next.store with table := written }
        lifecycle := .starting none }) ∧
    ∃ earlier later, ended.handled = session.handled ++ earlier ++ later ∧
      written = earlier.foldl PositionTable.absorb session.service.table ∧
      ended.service.table = later.foldl PositionTable.absorb written := by
  intro written ended
  obtain ⟨earlier, later, result, handled, table, path, persists, handledLater, tableLater, -,
    answered⟩ := stopAmid_spec free stage early late last now moment
  obtain rfl : result = .ok () := Option.some.inj (answered.symm.trans succeeds)
  have loads (reader : Store) (samePath : reader.path = session.service.store.path) :
      reader.load ended.files = .ok { reader with table := written } := by
    refine Store.load_of_persist ?_ (samePath.trans path.symm) persists rfl
    rw [Store.isInMemory, path]
    exact hasPath
  refine ⟨loads, fun next stopped samePath => ?_, earlier, later, ?_, table, tableLater⟩
  · simp only [Service.beginStart, stopped, Service.load, loads next.store samePath]
    rfl
  · rw [handledLater, handled]

section OneChange

/-- What another worker tells. -/
def told : PositionTable := .ofList [(⟨.ofList [("path", "a")]⟩, ⟨.ofList [("next", "1")]⟩)]

/-- A running service that has fetched its own announcement and a change, but handled neither. -/
def offered : Session :=
  let started := (Session.new (.new (.ofText "a.json")) .never "t" "a" .new .empty).run
    [.call .start, .proceed 0 (.sound default), .proceed 0 (.sound default)]
  started.runBackground [.publish "t" (PositionMessage.encode ⟨.positionChange, told⟩), .fetch]

/-- The change is handled before the table is written. -/
theorem stop_stores_table_as_written_with_change :
    let ended := offered.stopAmid [.handle, .handle] [] [] 0 (.sound default)
    (Store.new (.ofText "a.json")).load ended.files = .ok ⟨.ofText "a.json", told⟩ ∧
      ended.service.table = told := by
  intro ended
  have free : offered.holder = none := rfl
  have stage : offered.service.lifecycle = .running ⟨true, .start .never 0⟩ := rfl
  obtain ⟨succeeds, written, table⟩ : ended.answers.getLast?.map Answer.result = some (.ok ()) ∧
      (offered.stopUntilWriting [.handle, .handle]).service.table = told ∧
      ended.service.table = told := by decide +kernel
  obtain ⟨loads, -, -⟩ := stop_stores_table_as_written free stage rfl [.handle, .handle] [] [] 0
    (.sound default) succeeds
  refine ⟨?_, table⟩
  rw [loads (Store.new (.ofText "a.json")) rfl, written]
  rfl

/-- The change is handled while the tasks end: the file does not have it. -/
theorem stop_leaves_late_change_out :
    let ended := offered.stopAmid [] [.handle, .handle] [] 0 (.sound default)
    offered.service.lifecycle.isRunning = true ∧
      ended.answers.getLast?.map Answer.result = some (.ok ()) ∧
      (Store.new (.ofText "a.json")).load ended.files = .ok ⟨.ofText "a.json", .empty⟩ ∧
      ended.service.table = told ∧ ended.service.table ≠ .empty := by
  decide +kernel

end OneChange

end PositionSync.Session
