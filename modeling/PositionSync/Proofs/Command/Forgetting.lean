import PositionSync.Command.Run
import PositionSync.Proofs.Position.Persistence
import PositionSync.Proofs.Position.Table

/-!
# Forgetting files

Forgetting takes out of the stored table what belongs to the given files, and nothing else. The position
file holds the rest afterwards, or, where anything fails, what it held before. Only a failure to make the
name of the new file durable comes too late for that: the file holds the rest already.
-/

namespace PositionSync

open PositionSync.Path

namespace PositionTable

variable (table : PositionTable) (partitions : List Partition)

/-- The entries of the other partitions are left as they are. -/
theorem toList_eraseAll :
    (table.eraseAll partitions).toList =
      table.toList.filter fun entry => !partitions.contains entry.1 := by
  rw [eraseAll]
  induction partitions generalizing table with
  | nil => simp
  | cons removed rest ih =>
      have erased : (table.erase removed).toList =
          table.toList.filter fun entry => compare removed entry.1 != .eq := rfl
      rw [List.foldl_cons, ih, erased, List.filter_filter]
      refine List.filter_congr fun entry _ => ?_
      by_cases same : entry.1 = removed
      · simp [same, Std.ReflOrd.compare_self]
      · have differs : compare removed entry.1 ≠ .eq := fun equal =>
          same (Std.LawfulEqOrd.eq_of_compare equal).symm
        simp [same, differs]

theorem erase_of_get?_eq_none {partition : Partition} (absent : table.get? partition = none) :
    table.erase partition = table := by
  refine SortedMap.ext_get? fun other => ?_
  by_cases same : other = partition
  · rw [same, SortedMap.get?_erase_self, absent]
  · rw [SortedMap.get?_erase_of_ne _ same]

end PositionTable

/-- A path to a name in a directory ends with the name. -/
theorem Path.getLast?_components_join (directory : Path) {name : Name} (noSlash : slash ∉ name)
    (nonempty : name ≠ []) (notCurrent : name ≠ currentName) :
    (directory.join ⟨name⟩).components.getLast? = some name := by
  have alone : splitSlashes name = [name] := splitSlashes_of_notMem noSlash
  have names : ∃ front, splitSlashes (directory.join ⟨name⟩).octets = front ++ [name] := by
    unfold join
    split
    · next noSeparator =>
      rcases directory.octets.eq_nil_or_concat' with empty | ⟨front, last, octets⟩
      · exact ⟨[], by simp [empty, alone]⟩
      · obtain rfl : last = slash := by
          simpa [isEmpty, endsWithSlash, octets] using noSeparator
        refine ⟨splitSlashes front, ?_⟩
        rw [octets, List.append_assoc, List.singleton_append, splitSlashes_append, alone]
    · exact ⟨splitSlashes directory.octets, by rw [splitSlashes_append, alone]⟩
  obtain ⟨front, names⟩ := names
  have segments : (directory.join ⟨name⟩).segments =
      front.filter (fun name => !name.isEmpty) ++ [name] := by
    rw [Path.segments, names, List.filter_append]
    simp [nonempty]
  obtain ⟨before, components, -⟩ := FileSystem.components_concat segments notCurrent
  rw [components, List.getLast?_concat]

namespace Store

variable {store : Store} {files : FileSystem}

/-- Positions can only come out of a file that can be read. -/
theorem exists_read_of_storedTable {table : PositionTable}
    (stored : store.storedTable files = .ok table) (nonempty : table ≠ .empty) :
    ∃ octets, files.read store.path = .ok octets := by
  rw [storedTable] at stored
  split at stored
  · split at stored
    · cases stored
    · next chars readChars =>
      cases read : files.read store.path with
      | ok octets => exact ⟨octets, rfl⟩
      | error fault => simp [FileSystem.readChars, read, bind, Except.bind] at readChars
  · exact absurd (Except.ok.inj stored).symm nonempty

theorem error_of_storedTable {error : Error} (fails : store.storedTable files = .error error) :
    ∃ message, error = .state message := by
  rw [storedTable] at fails
  split at fails
  · split at fails
    · exact ⟨_, (Except.error.inj fails).symm⟩
    · split at fails
      · exact ⟨_, (Except.error.inj fails).symm⟩
      · cases fails
  · cases fails

end Store

namespace Command

/-- The partition of every file with a name. -/
def namedPartition (text : String) : Partition := ⟨SortedMap.empty.insert filenameKey text⟩

/-- The texts for which a table holds positions, each of them once, in the order of the paths. -/
def heldTexts (table : PositionTable) (paths : List Path) : List String :=
  (paths.map Path.text).eraseDups.filter fun text => table.contains (namedPartition text)

theorem namedPartition_injective : Function.Injective namedPartition := by
  intro first second same
  have values := congrArg (fun partition : Partition => partition.attributes.get? filenameKey) same
  simpa [namedPartition] using values

section Removing

variable (store : Store) (paths : List Path)

theorem forgetFiles_concat (path : Path) :
    forgetFiles store (paths ++ [path]) = forgetFile (forgetFiles store paths) path := by
  rw [forgetFiles, List.foldl_concat]
  rfl

/-- A path is listed if there is still a position for it at its turn. -/
theorem heldTexts_concat (table : PositionTable) (path : Path) :
    heldTexts table (paths ++ [path]) = heldTexts table paths ++
      if (table.eraseAll (paths.map filePartition)).contains (filePartition path) then [path.text]
      else [] := by
  have listed : filePartition path ∈ paths.map filePartition ↔ path.text ∈ paths.map Path.text := by
    rw [show filePartition = namedPartition ∘ Path.text from rfl, ← List.map_map]
    exact List.mem_map_of_injective namedPartition_injective
  have held : (table.eraseAll (paths.map filePartition)).contains (filePartition path) =
      (!(paths.map Path.text).contains path.text && table.contains (filePartition path)) := by
    rw [SortedMap.contains, PositionTable.get?_eraseAll]
    by_cases again : filePartition path ∈ paths.map filePartition
    · simp [again, listed.1 again]
    · simp [again, mt listed.2 again, SortedMap.contains]
  rw [heldTexts, List.map_append, List.eraseDups_append, List.filter_append, ← heldTexts, held,
    List.removeAll, List.map_singleton]
  by_cases again : path.text ∈ paths.map Path.text
  · rw [List.filter_cons_of_neg (by simpa using again)]
    simp [-List.mem_map, again]
  · rw [List.filter_cons_of_pos (by simpa using again), List.eraseDups_cons]
    simp [-List.mem_map, again, List.filter_singleton]
    rfl

/-- Looking for one path after the other removes the positions of all, and lists those that it found. -/
theorem forgetFiles_eq :
    forgetFiles store paths =
      ({ store with table := store.table.eraseAll (paths.map filePartition) },
        heldTexts store.table paths) := by
  induction paths using List.reverseRecOn with
  | nil => rfl
  | append_singleton paths path ih =>
      have next : store.table.eraseAll ((paths ++ [path]).map filePartition) =
          (store.table.eraseAll (paths.map filePartition)).erase (filePartition path) := by
        rw [List.map_append, PositionTable.eraseAll, List.foldl_append]
        rfl
      rw [forgetFiles_concat, ih, next, heldTexts_concat, forgetFile]
      by_cases held : ((store.table.eraseAll (paths.map filePartition)).get?
          (filePartition path)).isSome
      · simp [Store.get?, SortedMap.contains, held]
        rfl
      · simp [Store.get?, SortedMap.contains, held,
          PositionTable.erase_of_get?_eq_none _ (Option.not_isSome_iff_eq_none.1 held)]

theorem eraseAll_of_heldTexts_eq_nil {table : PositionTable} (nothing : heldTexts table paths = []) :
    table.eraseAll (paths.map filePartition) = table := by
  refine SortedMap.ext_get? fun partition => ?_
  rw [PositionTable.get?_eraseAll]
  split
  · next listed =>
    obtain ⟨path, given, rfl⟩ := List.mem_map.1 listed
    have absent := List.filter_eq_nil_iff.1 nothing path.text
      (List.mem_eraseDups.2 (List.mem_map_of_mem given))
    exact (Option.not_isSome_iff_eq_none.1 absent).symm
  · rfl

end Removing

/-- The partitions of the listed texts are different from each other. -/
theorem nodup_heldTexts (table : PositionTable) (paths : List Path) :
    ((heldTexts table paths).map namedPartition).Nodup := by
  have distinct (texts : List String) : texts.eraseDups.Nodup := by
    induction texts using List.reverseRecOn with
    | nil => exact .nil
    | append_singleton texts text ih =>
        rw [List.eraseDups_append, List.removeAll]
        by_cases again : text ∈ texts
        · rw [List.filter_cons_of_neg (by simpa using again)]
          simpa using ih
        · rw [List.filter_cons_of_pos (by simpa using again), List.eraseDups_cons]
          refine List.nodup_append.2 ⟨ih, by simp, fun other isEarlier => ?_⟩
          rintro last isLast rfl
          simp_all
  refine List.pairwise_map.2 (((distinct _).filter _).imp fun differ same => differ ?_)
  exact namedPartition_injective same

theorem getLast?_components_positionPath (config : WorkerConfig) :
    config.positionPath.components.getLast? = some (Utf8.encode WorkerConfig.positionFileName) :=
  getLast?_components_join _ (by decide) (by decide) (by decide)

theorem hasFileName_positionPath (config : WorkerConfig) : config.positionPath.HasFileName :=
  ⟨_, getLast?_components_positionPath config, by decide, by decide⟩

end Command

theorem Store.isInMemory_positionPath (config : WorkerConfig) (table : PositionTable) :
    (Store.mk config.positionPath table).isInMemory = false := by
  have named : (Store.mk config.positionPath table).path.HasFileName :=
    Command.hasFileName_positionPath config
  obtain ⟨_, _, _, spelling⟩ := Store.exists_spelling named
  exact spelling.isInMemory

namespace Command

section Runs

variable {config : WorkerConfig} {moment : Moment} {files : FileSystem}

/-- A table that cannot be written leaves the position file as it was, or has been written but for the
durability of its name. -/
theorem read_of_persist_error {table : PositionTable} {after : FileSystem} {error : Error}
    {octets : List UInt8} (read : files.read config.positionPath = .ok octets)
    (fails : (Store.mk config.positionPath table).persist moment files = (after, .error error)) :
    let reader := Store.new config.positionPath
    (∃ message, error = .persist message) ∧
      (after.read config.positionPath = .ok octets ∨
        reader.syncDirectory moment.storage = .error error ∧
          reader.load after = .ok { reader with table }) := by
  intro reader
  have named : (Store.mk config.positionPath table).path.HasFileName := hasFileName_positionPath config
  obtain ⟨front, last, temporary, spelling⟩ := Store.exists_spelling named
  obtain ⟨isPersist, intact | ⟨flushes, written⟩⟩ := spelling.leavesIntact_or_replaced fails
  · refine ⟨isPersist, .inl (intact.read (fun same => ?_) octets read)⟩
    -- The temporary file has a name of its own.
    have components : config.positionPath.components = front ++ [last] := spelling.components
    have isLast : last = Utf8.encode WorkerConfig.positionFileName := by
      have ends := getLast?_components_positionPath config
      rw [components, List.getLast?_concat] at ends
      exact Option.some.inj ends
    rw [spelling.components_temporaryPath, spelling.components, List.append_cancel_left_eq,
      List.singleton_inj, isLast] at same
    rcases spelling.temporary with parent | renamed
    · exact absurd (parent.symm.trans same) (by decide)
    · rw [isLast] at renamed
      exact absurd (renamed.symm.trans same) (by decide)
  · have hasPath : reader.isInMemory = false := Store.isInMemory_positionPath config .empty
    exact ⟨isPersist, .inr ⟨flushes, Store.load_of_read hasPath .rfl written⟩⟩

/-- Where there is a position file, writing it changes only this file and the temporary one. -/
theorem altersOnly_of_persist {table : PositionTable} {after : FileSystem} {result : Except Error Unit}
    {octets : List UInt8} (read : files.read config.positionPath = .ok octets)
    (persists : (Store.mk config.positionPath table).persist moment files = (after, result)) :
    let reader := Store.new config.positionPath
    FileSystem.AltersOnly
      (fun place => place = reader.temporaryPath.place ∨ place = reader.path.place) [] files after := by
  have named : (Store.mk config.positionPath table).path.HasFileName := hasFileName_positionPath config
  obtain ⟨front, last, temporary, spelling⟩ := Store.exists_spelling named
  exact (spelling.altersOnly_of_persistListed persists).of_isDirectory
    (FileSystem.isDirectory_of_read read)

/-- What can become of the positions that a store has: the file cannot be loaded, nothing is there to
be removed, or the rest is written, or cannot be written. -/
theorem forget_cases (config : WorkerConfig) (moment : Moment) (paths : List Path)
    (files : FileSystem) :
    let reader := Store.new config.positionPath
    let report := forget config moment paths files
    (∃ error, reader.storedTable files = .error error ∧ report = ⟨.error error, [], files⟩) ∨
    ∃ before, reader.storedTable files = .ok before ∧
      let left : Store := { reader with table := before.eraseAll (paths.map filePartition) }
      let removed := heldTexts before paths
      (removed = [] ∧ report = ⟨.ok (), [.forgotten []], files⟩) ∨
      removed ≠ [] ∧ ∃ written,
        (left.persist moment files = (written, .ok ()) ∧
          report = ⟨.ok (), [.forgotten removed], written⟩) ∨
        ∃ error, left.persist moment files = (written, .error error) ∧
          report = ⟨.error error, [], written⟩ := by
  intro reader report
  have reported : report = forget config moment paths files := rfl
  unfold forget at reported
  rw [Store.load] at reported
  cases stored : reader.storedTable files with
  | error error =>
      exact .inl ⟨error, rfl, by rw [reported, stored]; rfl⟩
  | ok before =>
      refine .inr ⟨before, rfl, ?_⟩
      rw [stored] at reported
      simp only [Except.map, forgetFiles_eq] at reported
      intro left removed
      by_cases nothing : removed = []
      · refine .inl ⟨nothing, ?_⟩
        have nothing : heldTexts before paths = [] := nothing
        rw [nothing] at reported
        exact reported
      · refine .inr ⟨nothing, ?_⟩
        rw [if_neg (by simpa [removed] using nothing)] at reported
        cases persists : left.persist moment files with
        | mk written result =>
          simp only [left, reader] at persists
          rw [persists] at reported
          cases result with
          | ok => exact ⟨written, .inl ⟨rfl, reported⟩⟩
          | error error => exact ⟨written, .inr ⟨error, rfl, reported⟩⟩

/-- Whether a position file held a table, and holds it without the positions of some files now. -/
structure HoldsRest (config : WorkerConfig) (paths : List Path) (files now : FileSystem)
    (before : PositionTable) : Prop where
  held : (Store.new config.positionPath).load files = .ok ⟨config.positionPath, before⟩
  holds : ∃ after, (Store.new config.positionPath).load now = .ok ⟨config.positionPath, after⟩ ∧
    after.toList = before.toList.filter fun entry => !(paths.map filePartition).contains entry.1

theorem holdsRest_of_load {paths : List Path} {now : FileSystem} {before : PositionTable}
    (stored : (Store.new config.positionPath).storedTable files = .ok before)
    (loads : (Store.new config.positionPath).load now =
      .ok ⟨config.positionPath, before.eraseAll (paths.map filePartition)⟩) :
    HoldsRest config paths files now before where
  held := by
    rw [Store.load, stored]
    rfl
  holds := ⟨_, loads, PositionTable.toList_eraseAll before _⟩

/-- Where positions are found, there is a position file. -/
theorem exists_read_of_heldTexts {paths : List Path} {before : PositionTable}
    (stored : (Store.new config.positionPath).storedTable files = .ok before)
    (found : heldTexts before paths ≠ []) : ∃ octets, files.read config.positionPath = .ok octets := by
  have nonempty : before ≠ .empty := by
    rintro rfl
    exact found (List.filter_eq_nil_iff.2 (by simp [SortedMap.contains]))
  obtain ⟨octets, read⟩ := Store.exists_read_of_storedTable stored nonempty
  exact ⟨octets, read⟩

/-- Forgetting files removes exactly their positions, or nothing. Whatever stands in the way of reading
or writing, the position file holds either what is left or what it held before, and where that is an error
nothing is printed. It holds what is left in spite of an error only where the error is that the name of the
file, which has been replaced, could not be made durable. No other file changes, except that one under the
temporary name can be lost. -/
theorem forget_removes_positions_or_nothing (paths : List Path) :
    let reader := Store.new config.positionPath
    let report := forget config moment paths files
    (report.result = .ok () → ∃ before, HoldsRest config paths files report.files before ∧
      report.messages = [.forgotten (heldTexts before paths)] ∧
      ((heldTexts before paths).map namedPartition).Nodup ∧
      (heldTexts before paths = [] → report.files = files)) ∧
    (∀ error, report.result = .error error →
      report.messages = [] ∧
      ((∃ message, error = .state message) ∧ report.files = files ∨
        (∃ message, error = .persist message) ∧
          (report.files.read config.positionPath = files.read config.positionPath ∨
            reader.syncDirectory moment.storage = .error error ∧
              ∃ before, heldTexts before paths ≠ [] ∧
                HoldsRest config paths files report.files before))) ∧
    FileSystem.AltersOnly
      (fun place => place = reader.temporaryPath.place ∨ place = reader.path.place) []
      files report.files := by
  intro reader report
  rcases forget_cases config moment paths files with
    ⟨error, fails, isReport⟩ | ⟨before, stored, ⟨nothing, isReport⟩ | ⟨found, written,
      ⟨persists, isReport⟩ | ⟨error, persists, isReport⟩⟩⟩
  all_goals
    have isReport : report = _ := isReport
    rw [isReport]
  · refine ⟨by rintro ⟨⟩, fun _ isError => ?_, .refl files⟩
    obtain rfl := Except.error.inj isError
    exact ⟨rfl, .inl ⟨Store.error_of_storedTable fails, rfl⟩⟩
  · have rest : HoldsRest config paths files files before := by
      refine holdsRest_of_load stored ?_
      rw [eraseAll_of_heldTexts_eq_nil paths nothing, Store.load, stored]
      rfl
    exact ⟨fun _ => ⟨before, rest, by rw [nothing], nodup_heldTexts before paths, fun _ => rfl⟩,
      by rintro _ ⟨⟩, .refl files⟩
  · obtain ⟨octets, read⟩ := exists_read_of_heldTexts stored found
    have rest : HoldsRest config paths files written before :=
      holdsRest_of_load stored
        (Store.load_of_persist (Store.isInMemory_positionPath config _) rfl persists rfl)
    exact ⟨fun _ => ⟨before, rest, rfl, nodup_heldTexts before paths,
      fun nothing => absurd nothing found⟩, by rintro _ ⟨⟩, altersOnly_of_persist read persists⟩
  · obtain ⟨octets, read⟩ := exists_read_of_heldTexts stored found
    refine ⟨by rintro ⟨⟩, fun _ isError => ?_, altersOnly_of_persist read persists⟩
    obtain rfl := Except.error.inj isError
    obtain ⟨isPersist, still | ⟨flushes, loadsRest⟩⟩ := read_of_persist_error read persists
    · exact ⟨rfl, .inr ⟨isPersist, .inl (still.trans read.symm)⟩⟩
    · exact ⟨rfl, .inr ⟨isPersist, .inr ⟨flushes, before, found, holdsRest_of_load stored loadsRest⟩⟩⟩

/-- One of two files, named twice and once more in another spelling. -/
theorem forget_removes_positions_of_one_file :
    let config := WorkerConfig.new "worker-1"
    let kept : Partition × Offset := (filePartition (.ofText "b.log"), fileOffset 7)
    let octets := Snapshot.encodeListed default
      [(filePartition (.ofText "a.log"), fileOffset 3), kept]
    let files := FileSystem.empty.change (.write config.positionPath octets)
    let report := forget config (.sound default) [.ofText "a.log", .ofText "./b.log", .ofText "a.log"]
      files
    report.result = .ok () ∧ report.messages = [.forgotten ["a.log"]] ∧
      (Store.new config.positionPath).load report.files =
        .ok ⟨config.positionPath, .ofList [kept]⟩ := by
  intro config kept octets files report
  have succeeds : report.result = .ok () := by decide +kernel
  have loaded : (Store.new config.positionPath).load files = .ok ⟨config.positionPath,
      .ofList [(filePartition (.ofText "a.log"), fileOffset 3), kept]⟩ := by decide +kernel
  obtain ⟨before, ⟨loads, after, loadsNow, left⟩, printed, -⟩ :=
    (forget_removes_positions_or_nothing _).1 succeeds
  have same : before = .ofList [(filePartition (.ofText "a.log"), fileOffset 3), kept] :=
    congrArg Store.table (Except.ok.inj (loads.symm.trans loaded))
  subst same
  have removed : heldTexts (.ofList [(filePartition (.ofText "a.log"), fileOffset 3), kept])
      [.ofText "a.log", .ofText "./b.log", .ofText "a.log"] = ["a.log"] := by decide +kernel
  refine ⟨succeeds, printed.trans (by rw [removed]), loadsNow.trans ?_⟩
  have isKept : after = .ofList [kept] := SortedMap.ext (left.trans (by decide +kernel))
  rw [isKept]

/-- A file under the temporary name is lost. And where the name of the new file cannot be made durable, the
error is reported and nothing is printed, but the position is gone from the file. -/
theorem forget_is_not_exact :
    let config := WorkerConfig.new "worker-1"
    let entry : Partition × Offset := (filePartition (.ofText "a.log"), fileOffset 3)
    let temporaryPath := (Store.new config.positionPath).temporaryPath
    let files := (FileSystem.empty.change
      (.write config.positionPath (Snapshot.encodeListed default [entry]))).change
        (.write temporaryPath (Utf8.encode "x"))
    let unflushed : Moment :=
      ⟨default, .directoryUnsynced ⟨.other, "Input/output error (os error 5)"⟩⟩
    let report := forget config (.sound default) [.ofText "a.log"] files
    let failed := forget config unflushed [.ofText "a.log"] files
    (Store.new config.positionPath).load files = .ok ⟨config.positionPath, .ofList [entry]⟩ ∧
      files.read temporaryPath = .ok (Utf8.encode "x") ∧
      (report.result = .ok () ∧ report.files.lookup temporaryPath = .error .notFound) ∧
      failed.result = .error
        (.persist "Failed to sync store directory: Input/output error (os error 5)") ∧
      failed.messages = [] ∧
      failed.files.read config.positionPath ≠ files.read config.positionPath ∧
      (Store.new config.positionPath).load failed.files = .ok ⟨config.positionPath, .empty⟩ := by
  decide +kernel

end Runs

end Command

end PositionSync
