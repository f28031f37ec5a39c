import PositionSync.Proofs.Position.Store
import PositionSync.Proofs.Service.Runs

/-!
# Positions outlive a restart

No operation takes a service to another position file. A stop that succeeds leaves the whole table in
this file, and a new service on it starts with that table.
-/

namespace PositionSync.Host

/-- A service keeps to its position file. -/
theorem path_perform (host : Host) (operation : Operation) :
    (host.perform operation).service.store.path = host.service.store.path := by
  cases operation with
  | deliver delivery =>
      obtain ⟨listeners, service, -⟩ :=
        host.service.handleDelivery_spec Recorder.replicated host.recorder delivery
      rw [perform, deliver, service]
  | load =>
      rw [perform, load]
      rcases host.service.load_cases host.files with ⟨error, failed⟩ | ⟨table, loaded⟩
      · rw [failed]
      · rw [loaded]
  | start =>
      rw [perform, start]
      rcases host.service.start_cases Recorder.replicated host.recorder host.files host.now with
        ⟨result, table, lifecycle, silent⟩ | ⟨table, tasks, subscribed, -, announced⟩
      · rw [silent]
      · rw [announced]
  | stop moment =>
      rw [perform, stop]
      rcases host.service.stop_cases Recorder.replicated host.recorder moment host.files with
        ⟨error, -, refused⟩ | ⟨tasks, result, written, -, -, stopped⟩
      · rw [refused]
      · rw [stopped]
  | put | putMany | remove | synchronize | persist | changeFiles | refuse => rfl

variable {host stopped : Host} {moment : Moment}

/-- A stop that succeeds has written the table. -/
theorem persist_of_stop (stops : host.stop moment = (.ok (), stopped)) :
    host.service.store.persist moment host.files = (stopped.files, .ok ()) := by
  rw [stop] at stops
  rcases host.service.stop_cases Recorder.replicated host.recorder moment host.files with
    ⟨error, -, refused⟩ | ⟨tasks, result, written, -, persists, stopsSo⟩
  · rw [refused] at stops
    cases congrArg Prod.fst stops
  · rw [stopsSo] at stops
    obtain rfl : result = .ok () := congrArg Prod.fst stops
    have sameFiles : written = stopped.files := congrArg (fun pair => pair.2.files) stops
    rw [← sameFiles]
    exact persists

theorem start_of_load {path : Path} {table : PositionTable} {files : FileSystem}
    (settings : FlushSettings) (loads : (Store.new path).load files = .ok ⟨path, table⟩) :
    let started := (Host.new (.new path) settings files).start
    started.1 = .ok () ∧ started.2.service.store = ⟨path, table⟩ ∧ started.2.files = files := by
  let created := Service.new (.new path) settings
  have loaded : created.load files = .ok { created with store := ⟨path, table⟩ } := by
    change ((Store.new path).load files).map _ = _
    rw [loads]
    rfl
  have begun : created.beginStart files =
      .ok { created with store := ⟨path, table⟩, lifecycle := .starting none } := by
    change (created.load files).map _ = _
    rw [loaded]
    rfl
  have starts : created.start Recorder.replicated files 0 .new =
      (.ok (), { created with
        store := ⟨path, table⟩
        lifecycle := .running ⟨true, .start settings 0⟩ },
      Recorder.replicated.send ⟨.online, table⟩ { Recorder.new with hasInbox := true }) := by
    rw [Service.start, begun]
    rfl
  exact ⟨congrArg (·.1) starts, congrArg (·.2.1.store) starts, rfl⟩

/-- A new service starts with the table of the one that was stopped, as long as nobody else writes the
position file. -/
theorem start_after_stop {files : FileSystem} (hasPath : host.service.store.isInMemory = false)
    (stops : host.stop moment = (.ok (), stopped))
    (untouched : files.read host.service.store.path = stopped.files.read host.service.store.path)
    (settings : FlushSettings) :
    let started := (Host.new (.new host.service.store.path) settings files).start
    started.1 = .ok () ∧ started.2.service.store = host.service.store ∧ started.2.files = files :=
  start_of_load settings (Store.load_of_persist hasPath rfl (persist_of_stop stops) untouched)

end PositionSync.Host
