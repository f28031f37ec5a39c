import PositionSync.Proofs.Position.Replacing
import PositionSync.Service.Host

/-!
# Tables are written as a whole or not at all

A table that has been written is read back, and nothing else has changed. Where writing fails, what was at
the position path is still there and no temporary file remains. Writing fails only for an obstacle, and
succeeds once that is gone.
-/

namespace PositionSync

open PositionSync.Path FileSystem

/-- Whether a file can be written at a path after directories have been made on its way. -/
structure FileSystem.AdmitsFile (files : FileSystem) (path : Path) : Prop where
  mayBeFile : path.MayBeFile
  noFile : ∀ place ∈ path.way, ∀ number, files.node? place ≠ some (.file number)
  /-- A path that leads through its own place makes a directory there. -/
  apart : path.place ∉ path.way
  noDirectory : files.node? path.place ≠ some .directory

/-- A write changes the files and nothing else. -/
theorem Host.persistListed_eq {host : Host} {moment : Moment} {listing : List (Partition × Offset)}
    {after : FileSystem} {result : Except Error Unit}
    (persists : host.service.store.persistListed moment listing host.files = (after, result)) :
    host.persistListed moment listing = (result, { host with files := after }) := by
  rw [persistListed, persists]

namespace Store

/-- Whether nothing is in the way of the files of a store. -/
structure HasRoom (store : Store) (files : FileSystem) : Prop where
  path : files.AdmitsFile store.path
  temporaryPath : files.AdmitsFile store.temporaryPath

variable {store : Store} {moment : Moment} {listing : List (Partition × Offset)}
  {files after ready : FileSystem}

section Room

variable {front : List Name} {last temporary : Name}

theorem Spelling.addsDirectories_of_makeDirectories (spelling : store.Spelling front last temporary)
    {result : Except FileFault Unit}
    (makes : files.makeDirectories store.directory = (ready, result)) :
    AddsDirectories store.path.way files ready := by
  rw [spelling.makeDirectories_directory files] at makes
  have adds := addsDirectories_of_makeDirectoriesWithin files spelling.frontSpelled (front.length + 1)
  rwa [makes, ← spelling.way_path] at adds

theorem Spelling.makeDirectories_eq_ok_iff (spelling : store.Spelling front last temporary)
    (usable : store.temporaryPath.IsUsable) {result : Except FileFault Unit}
    (makes : files.makeDirectories store.directory = (ready, result)) :
    result = .ok () ↔ ∃ around, ready.walk [] front = .ok around := by
  rw [spelling.makeDirectories_directory files] at makes
  have made := makeDirectoriesWithin_eq_ok_iff files spelling.frontSpelled
    (spelling.usableFront usable) (Nat.lt_succ_self _)
  rwa [makes] at made

/-- Once its way can be walked, a path with room leads to a name that is not a directory. -/
theorem exists_locate_of_admitsFile {path : Path} (admits : files.AdmitsFile path)
    (adds : AddsDirectories path.way files ready) {around : Place}
    (walked : ready.walk [] path.components.dropLast = .ok around) :
    ∃ target, ready.locate path = .ok target ∧ target.name ≠ none ∧ target.onlyDirectory = false ∧
      target.place = path.place ∧ ready.node? path.place ≠ some .directory := by
  obtain ⟨target, leads, named, mayBeFile⟩ := exists_locate admits.mayBeFile walked
  refine ⟨target, leads, named, mayBeFile, place_of_locate leads, fun isDirectory => ?_⟩
  rcases adds.node path.place id with same | ⟨-, -, onWay⟩
  · exact admits.noDirectory (same ▸ isDirectory)
  · exact admits.apart onWay

/-- A path has room if there is no directory at its end after its way has been made. -/
theorem admitsFile_of_walked {path : Path} (mayBeFile : path.MayBeFile)
    (adds : AddsDirectories path.way files ready)
    (directories : ∀ place ∈ path.way, ready.node? place = some .directory)
    (keeps : ready.KeepsDirectories after) (free : after.node? path.place ≠ some .directory) :
    files.AdmitsFile path where
  mayBeFile := mayBeFile
  noFile place onWay number isFile := by
    have isDirectory := directories place onWay
    rw [adds.node?_of_file id isFile] at isDirectory
    cases isDirectory
  apart onWay := free (keeps _ (directories _ onWay))
  noDirectory isDirectory := free (keeps _ (adds.keeps _ isDirectory))

theorem Spelling.persistListed_of_hasRoom (spelling : store.Spelling front last temporary)
    (room : store.HasRoom files) :
    (store.persistListed (.sound time) listing files).2 = .ok () := by
  have wayPath := spelling.way_path
  have wayTemporary := spelling.way_temporaryPath
  have frontOf {path : Path} {name : Name} (components : path.components = front ++ [name]) :
      path.components.dropLast = front := by rw [components, List.dropLast_concat]
  cases makes : files.makeDirectories store.directory with
  | mk ready result =>
  have adds := spelling.addsDirectories_of_makeDirectories makes
  obtain rfl : result = .ok () := by
    have made := makeDirectoriesWithin_eq_ok spelling.frontSpelled
      (spelling.usableFront room.temporaryPath.mayBeFile.usable)
      (fun name member => room.path.mayBeFile.short name (by simp [spelling.components, member]))
      (wayPath ▸ room.path.noFile) (Nat.lt_succ_self _)
    rwa [← spelling.makeDirectories_directory files, makes] at made
  obtain ⟨around, walked⟩ := (spelling.makeDirectories_eq_ok_iff
    room.temporaryPath.mayBeFile.usable makes).1 rfl
  -- The temporary file is written first.
  obtain ⟨origin, originLeads, originNamed, originFile, originPlace, originFree⟩ :=
    exists_locate_of_admitsFile room.temporaryPath (wayTemporary.trans wayPath.symm ▸ adds)
      (by rw [frontOf spelling.components_temporaryPath]; exact walked)
  obtain ⟨created, creates⟩ :=
    exists_write originLeads originNamed originFile (originPlace ▸ originFree) []
  let octets := Snapshot.encodeListed time listing
  obtain ⟨written, writes⟩ : ∃ written,
      store.writeTemporary .sound ready octets = (written, .ok ()) := by
    rw [writeTemporary, creates]
    exact ⟨_, rfl⟩
  have changes := altersOnly_of_writeTemporary writes
  obtain ⟨source, number, starts, -⟩ := leads_of_writeTemporary writes
  -- Then it gets its proper name.
  obtain ⟨goal, goalLeads, goalNamed, goalFile, goalPlace, goalFree⟩ :=
    exists_locate_of_admitsFile room.path adds
      (by rw [frontOf spelling.components]; exact walked)
  have stillFree : written.node? goal.place ≠ some .directory := by
    rw [goalPlace]
    by_cases same : store.path.place = store.temporaryPath.place
    · rw [same, ← place_of_locate starts.located, starts.node]
      simp
    · rcases changes.node _ same with unchanged | ⟨-, -, onWay⟩
      · rwa [unchanged]
      · cases onWay
  obtain ⟨renamed, renames⟩ := exists_rename starts
    (locate_of_keepsDirectories changes.keeps goalLeads) goalNamed goalFile stillFree
  simp only [persistListed, spelling.isInMemory, makes, replaceFile, Moment.sound]
  rw [writes]
  simp [renames, syncDirectory]

theorem Spelling.hasRoom_of_persistListed (spelling : store.Spelling front last temporary)
    (persists : (store.persistListed moment listing files).2 = .ok ()) :
    store.HasRoom files := by
  cases ends : store.persistListed moment listing files with
  | mk after result =>
  obtain rfl : result = .ok () := by rwa [ends] at persists
  rcases persistListed_cases spelling.isInMemory ends with
    ⟨fault, -, fails⟩ | ⟨ready, makes, ⟨written, error, -, -, fails⟩ | ⟨replaces, -⟩⟩
  · cases fails
  · cases fails
  have adds := spelling.addsDirectories_of_makeDirectories makes
  obtain ⟨written, writes, renames⟩ := replaceFile_eq_ok replaces
  have changes := altersOnly_of_writeTemporary writes
  obtain ⟨source, number, starts, -⟩ := leads_of_writeTemporary writes
  obtain ⟨origin, goal, moved, -, leads, goalNamed, goalFile, -, site, -⟩ := rename_cases renames
  obtain ⟨pathMayBeFile, -⟩ := mayBeFile_of_locate leads goalNamed goalFile
  obtain ⟨temporaryMayBeFile, -⟩ :=
    mayBeFile_of_locate starts.located starts.named starts.mayBeFile
  obtain ⟨around, walked⟩ :=
    (spelling.makeDirectories_eq_ok_iff temporaryMayBeFile.usable makes).1 rfl
  have directories := ((walk_eq_ok_iff ready.node?_root).1 walked).2.2
  rw [← spelling.way_path] at directories
  have sameWay := spelling.way_temporaryPath.trans spelling.way_path.symm
  constructor
  · refine admitsFile_of_walked pathMayBeFile adds directories changes.keeps ?_
    rw [← place_of_locate leads]
    exact site.free
  · refine admitsFile_of_walked temporaryMayBeFile (sameWay ▸ adds) (sameWay ▸ directories)
      changes.keeps ?_
    rw [← place_of_locate starts.located, starts.node]
    simp

end Room

/-- Writing succeeds on sound storage exactly if nothing is in the way. -/
theorem persistListed_eq_ok_iff (named : store.path.HasFileName)
    (time : Timestamp) (listing : List (Partition × Offset)) :
    (store.persistListed (.sound time) listing files).2 = .ok () ↔ store.HasRoom files := by
  obtain ⟨front, last, temporary, spelling⟩ := exists_spelling named
  exact ⟨spelling.hasRoom_of_persistListed, spelling.persistListed_of_hasRoom⟩

/-- The temporary file is gone after it has been renamed, if it had a name of its own. -/
theorem lookup_temporaryPath_of_replaceFile (named : store.path.HasFileName)
    {storage : Storage} {octets : List UInt8} (ownName : ¬ temporaryEnding <:+ store.path.octets)
    (replaces : store.replaceFile storage files octets = (after, .ok ())) :
    after.lookup store.temporaryPath = .error .notFound := by
  obtain ⟨front, last, temporary, spelling⟩ := exists_spelling named
  obtain ⟨written, writes, renames⟩ := replaceFile_eq_ok replaces
  refine lookup_of_rename (fun same => ownName ?_) renames
  -- Had both names one place, they would be the same name.
  obtain ⟨origin, goal, number, -, leads, goalNamed, goalFile, -⟩ := rename_cases renames
  obtain ⟨⟨-, ⟨before, name, segments, proper⟩, noSlash, -⟩, -⟩ :=
    mayBeFile_of_locate leads goalNamed goalFile
  obtain ⟨outer, components, -⟩ := components_concat segments proper.1
  obtain rfl : last = name := by
    have both := spelling.components.symm.trans components
    exact List.head_eq_of_cons_eq (List.append_inj' both rfl).2
  have differs : store.temporaryPath.components = store.path.components := by
    by_contra differs
    exact spelling.not_isPrefix_temporaryPath differs (same ▸ List.prefix_rfl)
  rw [spelling.components_temporaryPath, spelling.components] at differs
  have sameName : temporary = last := List.head_eq_of_cons_eq (List.append_inj' differs rfl).2
  rcases spelling.temporary with parent | renamed
  · exact absurd (sameName.symm.trans parent) spelling.proper.2
  · have ends : temporaryEnding <:+ last := by
      rw [← sameName, renamed]
      exact List.suffix_append _ _
    exact ends.trans (isSuffix_of_segments segments noSlash)

/-- Whatever comes of a write, nothing but the two files changes, apart from directories on the way. -/
theorem Spelling.altersOnly_of_persistListed {front : List Name} {last temporary : Name}
    (spelling : store.Spelling front last temporary) {result : Except Error Unit}
    (persists : store.persistListed moment listing files = (after, result)) :
    AltersOnly (fun place => place = store.temporaryPath.place ∨ place = store.path.place)
      store.path.way files after := by
  rcases persistListed_cases spelling.isInMemory persists with
    ⟨fault, makes, -⟩ | ⟨ready, makes, ⟨written, error, replaces, rfl, -⟩ | ⟨replaces, -⟩⟩
  all_goals
    have made := (spelling.addsDirectories_of_makeDirectories makes).altersOnly
      fun place => place = store.temporaryPath.place ∨ place = store.path.place
  · exact made
  · have wrote := (altersOnly_of_replaceFile_error replaces).1
    have removed := store.altersOnly_of_removeTemporary written
    exact made.trans ((wrote.trans removed).mono (fun _ => .inl) (by simp))
  · exact made.trans ((altersOnly_of_replaceFile replaces).mono (fun _ => id) (by simp))

/-- What has been written is what everybody reads. The table stays as it is, there is no temporary
file, and nothing but the two files has changed. Every file has one name here: there are no links. -/
theorem written_table_is_read_back (named : store.path.HasFileName)
    (listed : listing.Perm store.table.toList)
    (persists : store.persistListed moment listing files = (after, .ok ())) :
    (∀ (reader : Store) (later : FileSystem), reader.path = store.path →
      later.read store.path = after.read store.path →
        reader.load later = .ok { reader with table := store.table }) ∧
    (∀ host : Host, host.service.store = store → host.files = files →
      host.persistListed moment listing = (.ok (), { host with files := after })) ∧
    (¬ temporaryEnding <:+ store.path.octets →
      after.lookup store.temporaryPath = .error .notFound) ∧
    AltersOnly (fun place => place = store.temporaryPath.place ∨ place = store.path.place)
      store.path.way files after := by
  obtain ⟨front, last, temporary, spelling⟩ := exists_spelling named
  have hasPath := spelling.isInMemory
  refine ⟨fun reader later samePath untouched => ?_, ?_, fun ownName => ?_,
    spelling.altersOnly_of_persistListed persists⟩
  · exact load_of_persistListed hasPath listed persists samePath untouched
  · rintro host rfl rfl
    exact Host.persistListed_eq persists
  · rcases persistListed_cases hasPath persists with
      ⟨fault, -, fails⟩ | ⟨ready, -, ⟨written, error, -, -, fails⟩ | ⟨replaces, -⟩⟩
    · cases fails
    · cases fails
    · exact lookup_temporaryPath_of_replaceFile named ownName replaces

/-- Two positions in descending order, in a directory that has to be made. -/
theorem written_table_is_read_back_in_new_directory :
    let later : Partition × Offset :=
      (⟨.ofList [("path", "b"), ("host", "\x00\"\\😀")]⟩, ⟨.ofList [("", "\x1f")]⟩)
    let earlier : Partition × Offset := (⟨.empty⟩, ⟨.empty⟩)
    let store : Store := ⟨.ofText "d/p.json", .ofList [earlier, later]⟩
    let written := store.persistListed (.sound default) [later, earlier] .empty
    written.2 = .ok () ∧ (Store.new store.path).load written.1 = .ok store ∧
      written.1.lookup (.ofText "d/p.tmp") = .error .notFound := by
  intro later earlier store written
  have succeeds : written.2 = .ok () := by decide +kernel
  have order : [later, earlier].Perm store.table.toList := by
    have listed : store.table.toList = [earlier, later] := by decide +kernel
    rw [listed]
    exact List.Perm.swap earlier later []
  have named : store.path.HasFileName := ⟨Utf8.encode "p.json", rfl, by decide, by decide⟩
  have persists : store.persistListed (.sound default) [later, earlier] .empty =
      (written.1, .ok ()) := by rw [← succeeds]
  have temporary : store.temporaryPath = .ofText "d/p.tmp" := by decide +kernel
  obtain ⟨loads, -, noTemporary, -⟩ := written_table_is_read_back named order persists
  refine ⟨succeeds, loads (Store.new store.path) written.1 rfl rfl, ?_⟩
  rw [← temporary]
  exact noTemporary (by decide +kernel)

/-- What is left where writing a table has failed. -/
structure LeavesIntact (store : Store) (files after : FileSystem) : Prop where
  alters : AltersOnly (· = store.temporaryPath.place) store.path.way files after
  /-- What is at the position path or below it is the same. Only a path that leads through its own
  place can have made directories there. -/
  kept : store.temporaryPath.components ≠ store.path.components →
    ∀ place, store.path.place <+: place →
      (after.node? place = files.node? place ∨ store.path.place ∈ store.path.way ∧
        files.node? place = none ∧ after.node? place = some .directory) ∧
      ∀ number, files.node? place = some (.file number) → after.octets number = files.octets number
  read : store.temporaryPath.components ≠ store.path.components →
    ∀ octets, files.read store.path = .ok octets → after.read store.path = .ok octets
  noTemporary : ∀ number, after.lookup store.temporaryPath ≠ .ok (.file number)

theorem Spelling.leavesIntact {front : List Name} {last temporary : Name}
    (spelling : store.Spelling front last temporary)
    (alters : AltersOnly (· = store.temporaryPath.place) store.path.way files after)
    (noTemporary : ∀ number, after.lookup store.temporaryPath ≠ .ok (.file number)) :
    store.LeavesIntact files after where
  alters := alters
  kept differs place inside := by
    have untouched : place ≠ store.temporaryPath.place :=
      fun same => spelling.not_isPrefix_temporaryPath differs (same ▸ inside)
    refine ⟨(alters.node place untouched).imp_right fun ⟨missing, made, onWay⟩ => ⟨?_, missing, made⟩,
      fun number => alters.octets place number untouched⟩
    exact mem_passed_of_isPrefix (by simp [spelling.place_path]) inside onWay
  read differs octets := by
    refine alters.read fun same => ?_
    exact spelling.not_isPrefix_temporaryPath differs (same ▸ List.prefix_rfl)
  noTemporary := noTemporary

/-- Where the directory cannot be made, nothing can lie in it. -/
theorem Spelling.lookup_of_makeDirectories {front : List Name} {last temporary : Name}
    (spelling : store.Spelling front last temporary) {fault : FileFault}
    (fails : files.makeDirectories store.directory = (after, .error fault)) (number : Nat) :
    after.lookup store.temporaryPath ≠ .ok (.file number) := by
  intro found
  obtain ⟨target, leads⟩ := leads_of_lookup found
  obtain ⟨mayBeFile, walked⟩ := mayBeFile_of_locate leads.located leads.named leads.mayBeFile
  rw [spelling.components_temporaryPath, List.dropLast_concat] at walked
  cases (spelling.makeDirectories_eq_ok_iff mayBeFile.usable fails).2 ⟨_, walked⟩

theorem error_of_syncDirectory {storage : Storage} {error : Error}
    (fails : store.syncDirectory storage = .error error) :
    (∃ message, error = .persist
      ("Failed to open store directory '" ++ store.directory.text ++ "'" ++ ": " ++ message)) ∨
    ∃ message, error = .persist ("Failed to sync store directory" ++ ": " ++ message) := by
  unfold syncDirectory at fails
  split at fails
  · split at fails
    · cases fails
    · exact .inl ⟨_, (Except.error.inj fails).symm⟩
  · split at fails
    · exact .inr ⟨_, (Except.error.inj fails).symm⟩
    · cases fails
  · cases fails

/-- A write that fails leaves everything intact, unless it has replaced the file and only could not make
its name durable. -/
theorem Spelling.leavesIntact_or_replaced {front : List Name} {last temporary : Name}
    (spelling : store.Spelling front last temporary) {error : Error}
    (fails : store.persistListed moment listing files = (after, .error error)) :
    (∃ message, error = .persist message) ∧ (store.LeavesIntact files after ∨
      store.syncDirectory moment.storage = .error error ∧
        after.read store.path = .ok (Snapshot.encodeListed moment.time listing)) := by
  rcases persistListed_cases spelling.isInMemory fails with
    ⟨fault, makes, isFailure⟩ | ⟨ready, makes,
      ⟨written, _, replaces, rfl, isError⟩ | ⟨replaces, syncs⟩⟩
  · refine ⟨⟨_, Except.error.inj isFailure⟩, .inl (spelling.leavesIntact ?_ ?_)⟩
    · exact (spelling.addsDirectories_of_makeDirectories makes).altersOnly _
    · exact spelling.lookup_of_makeDirectories makes
  · obtain rfl := Except.error.inj isError
    have made := (spelling.addsDirectories_of_makeDirectories makes).altersOnly
      (· = store.temporaryPath.place)
    obtain ⟨wrote, isPersist⟩ := altersOnly_of_replaceFile_error replaces
    have removed := store.altersOnly_of_removeTemporary written
    refine ⟨isPersist, .inl (spelling.leavesIntact ?_ ?_)⟩
    · exact made.trans ((wrote.trans removed).mono (fun _ => id) (by simp))
    · exact store.lookup_of_removeTemporary written
  · refine ⟨?_, .inr ⟨syncs.symm, read_of_replaceFile replaces⟩⟩
    rcases error_of_syncDirectory syncs.symm with ⟨_, isError⟩ | ⟨_, isError⟩ <;> exact ⟨_, isError⟩

/-- Whether an error is that of a name which could not be made durable. -/
def IsFlushFailure (store : Store) (error : Error) : Prop :=
  ∃ storage, store.syncDirectory storage = .error error

theorem exists_persistListed_of_hasRoom (named : store.path.HasFileName) (time : Timestamp)
    (listed : listing.Perm store.table.toList) (room : store.HasRoom files) :
    ∃ written, store.persistListed (.sound time) listing files = (written, .ok ()) ∧
      ∀ reader : Store, reader.path = store.path →
        reader.load written = .ok { reader with table := store.table } := by
  obtain ⟨front, last, temporary, spelling⟩ := exists_spelling named
  have succeeds : store.persistListed (.sound time) listing files =
      ((store.persistListed (.sound time) listing files).1, .ok ()) :=
    Prod.ext rfl ((persistListed_eq_ok_iff named time listing).2 room)
  exact ⟨_, succeeds, fun reader samePath =>
    load_of_persistListed spelling.isInMemory listed succeeds samePath rfl⟩

end Store

end PositionSync
