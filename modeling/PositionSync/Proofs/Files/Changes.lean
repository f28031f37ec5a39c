import PositionSync.Proofs.Files.Tree

/-!
# What operations on files leave alone

An operation touches the places of its paths, and it may make directories where nothing was. Everything
else is what it was before: every name leads to the same file, and every file holds the same octets.
-/

namespace PositionSync

open PositionSync.Path

namespace FileSystem

/-- Whether files differ from what they were only at some places, and in directories that have been made
on a way. No directory is lost. -/
structure AltersOnly (touched : Place → Prop) (way : List Place) (files after : FileSystem) :
    Prop where
  node : ∀ place, ¬ touched place → after.node? place = files.node? place ∨
    files.node? place = none ∧ after.node? place = some .directory ∧ place ∈ way
  octets : ∀ place number, ¬ touched place → files.node? place = some (.file number) →
    after.octets number = files.octets number
  keeps : files.KeepsDirectories after

namespace AltersOnly

variable {touched : Place → Prop} {way : List Place} {files between after : FileSystem}

theorem refl (files : FileSystem) : AltersOnly touched way files files :=
  ⟨fun _ _ => .inl rfl, fun _ _ _ _ => rfl, fun _ => id⟩

/-- What is a file and not touched remains this file. -/
theorem node?_of_file (alters : AltersOnly touched way files after) {place : Place} {number : Nat}
    (untouched : ¬ touched place) (isFile : files.node? place = some (.file number)) :
    after.node? place = some (.file number) := by
  rcases alters.node place untouched with same | ⟨missing, -⟩
  · rw [same, isFile]
  · rw [isFile] at missing
    cases missing

theorem trans (first : AltersOnly touched way files between)
    (second : AltersOnly touched way between after) : AltersOnly touched way files after where
  node place untouched := by
    rcases first.node place untouched with same | ⟨missing, made, onWay⟩
    · rw [← same]
      exact second.node place untouched
    · exact .inr ⟨missing, second.keeps place made, onWay⟩
  octets place number untouched isFile := by
    rw [second.octets place number untouched (first.node?_of_file untouched isFile)]
    exact first.octets place number untouched isFile
  keeps place isDirectory := second.keeps place (first.keeps place isDirectory)

theorem mono {more : Place → Prop} {longer : List Place} (alters : AltersOnly touched way files after)
    (within : ∀ place, touched place → more place) (along : ∀ place ∈ way, place ∈ longer) :
    AltersOnly more longer files after where
  node place untouched :=
    (alters.node place fun isTouched => untouched (within place isTouched)).imp_right
      fun ⟨missing, made, onWay⟩ => ⟨missing, made, along place onWay⟩
  octets place number untouched :=
    alters.octets place number fun isTouched => untouched (within place isTouched)
  keeps := alters.keeps

/-- Where directories are all along the way, none is made. -/
theorem of_isDirectory (alters : AltersOnly touched way files after)
    (there : ∀ place ∈ way, files.node? place = some .directory) :
    AltersOnly touched [] files after where
  node place untouched := by
    rcases alters.node place untouched with same | ⟨missing, -, onWay⟩
    · exact .inl same
    · rw [there place onWay] at missing
      cases missing
  octets := alters.octets
  keeps := alters.keeps

end AltersOnly

/-- Whether nothing has happened to files but that directories have been made on a way. -/
abbrev AddsDirectories (way : List Place) (files after : FileSystem) : Prop :=
  AltersOnly (fun _ => False) way files after

theorem AddsDirectories.altersOnly {way : List Place} {files after : FileSystem}
    (adds : AddsDirectories way files after) (touched : Place → Prop) :
    AltersOnly touched way files after :=
  adds.mono (fun _ => False.elim) fun _ => id

variable {files after : FileSystem} {path : Path}

theorem leads_of_lookup {number : Nat} (found : files.lookup path = .ok (.file number)) :
    ∃ target, files.Leads path target number := by
  rw [lookup] at found
  cases located : files.locate path with
  | error fault => simp [located, bind, Except.bind] at found
  | ok target =>
      simp only [located, bind, Except.bind] at found
      split at found
      · cases found
      · next other isFile =>
        split at found
        · cases found
        next mayBeFile =>
        obtain rfl : other = number := FileNode.file.inj (Except.ok.inj found)
        refine ⟨target, located, fun unnamed => ?_, by simpa using mayBeFile, isFile⟩
        rw [Target.place, unnamed, isDirectory_of_locate located] at isFile
        cases isFile
      · cases found

theorem leads_of_read {octets : List UInt8} (reads : files.read path = .ok octets) :
    ∃ target number, files.Leads path target number ∧ files.octets number = octets := by
  have reading := reads
  rw [FileSystem.read] at reading
  cases found : files.lookup path with
  | error fault => simp [found, bind, Except.bind] at reading
  | ok node =>
      cases node with
      | directory => simp [found, bind, Except.bind] at reading
      | file number =>
          obtain ⟨target, leads⟩ := leads_of_lookup found
          rw [leads.read] at reads
          exact ⟨target, number, leads, Except.ok.inj reads⟩

/-- A file that can be read has directories all along its way. -/
theorem isDirectory_of_read {octets : List UInt8} (reads : files.read path = .ok octets) :
    ∀ place ∈ path.way, files.node? place = some .directory := by
  obtain ⟨target, number, leads, -⟩ := leads_of_read reads
  obtain ⟨-, walked⟩ := mayBeFile_of_locate leads.located leads.named leads.mayBeFile
  exact ((walk_eq_ok_iff files.node?_root).1 walked).2.2

/-- A file that is not touched is read as before. -/
theorem AltersOnly.read {touched : Place → Prop} {way : List Place}
    (alters : AltersOnly touched way files after) (untouched : ¬ touched path.place)
    {octets : List UInt8} (reads : files.read path = .ok octets) : after.read path = .ok octets := by
  obtain ⟨target, number, leads, rfl⟩ := leads_of_read reads
  have isFile := leads.node
  rw [place_of_locate leads.located] at isFile
  have leadsNow : after.Leads path target number :=
    ⟨locate_of_keepsDirectories alters.keeps leads.located, leads.named, leads.mayBeFile,
      place_of_locate leads.located ▸ alters.node?_of_file untouched isFile⟩
  rw [leadsNow.read, alters.octets path.place number untouched isFile]

theorem altersOnly_of_write {octets : List UInt8} (writes : files.write path octets = .ok after) :
    AltersOnly (· = path.place) [] files after := by
  obtain ⟨target, leads, -, -, ⟨number, isFile, rfl⟩ | ⟨site, missing, rfl⟩⟩ := write_cases writes
  all_goals rw [← place_of_locate leads]
  · refine ⟨fun _ _ => .inl rfl, fun place other untouched isOther => ?_,
      files.keepsDirectories_fill number octets⟩
    refine octets_fill_of_ne files (fun same => untouched ?_) octets
    exact files.isTree.distinct place target.place number (same ▸ isOther) isFile
  · refine ⟨fun place untouched => .inl ?_, fun place number untouched isFile => ?_,
      files.keepsDirectories_addFile site octets⟩
    · rw [node?_addFile, if_neg untouched]
    · exact octets_addFile_of_ne files site (Nat.ne_of_lt (files.isTree.fresh place number isFile))

theorem makeDirectory_cases (makes : files.makeDirectory path = .ok after) :
    ∃ target site, files.locate path = .ok target ∧ files.node? target.place = none ∧
      after = files.addDirectory target.place site := by
  unfold makeDirectory at makes
  split at makes
  · cases makes
  next target located =>
  split at makes
  · next missing => exact ⟨target, _, located, missing.2, (Except.ok.inj makes).symm⟩
  · cases makes

theorem makeDirectory_of_locate_error {fault : FileFault} (fails : files.locate path = .error fault) :
    files.makeDirectory path = .error fault := by
  unfold makeDirectory
  split
  · next found =>
    rw [fails] at found
    exact congrArg Except.error (Except.error.inj found).symm
  · next found =>
    rw [fails] at found
    cases found

/-- A directory is made where a path leads to a name without a node. -/
theorem makeDirectory_of_locate {target : Target} (leads : files.locate path = .ok target) :
    (∃ made, files.makeDirectory path = .ok made) ∧ target.name ≠ none ∧
        files.node? target.place = none ∨
      files.makeDirectory path = .error .alreadyExists ∧
        ¬ (target.name ≠ none ∧ files.node? target.place = none) := by
  unfold makeDirectory
  split
  · next fails =>
    rw [leads] at fails
    cases fails
  next other located =>
  obtain rfl : target = other := Except.ok.inj (leads.symm.trans located)
  by_cases missing : target.name ≠ none ∧ files.node? target.place = none
  · exact .inl ⟨⟨_, dif_pos missing⟩, missing⟩
  · exact .inr ⟨dif_neg missing, missing⟩

theorem addsDirectories_of_makeDirectory (makes : files.makeDirectory path = .ok after) :
    AddsDirectories [path.place] files after := by
  obtain ⟨target, site, leads, missing, rfl⟩ := makeDirectory_cases makes
  rw [← place_of_locate leads]
  refine ⟨fun place _ => ?_, fun _ _ _ _ => rfl, files.keepsDirectories_addDirectory site⟩
  rw [node?_addDirectory]
  by_cases same : place = target.place
  · rw [if_pos same, same]
    exact .inr ⟨missing, rfl, List.mem_singleton_self _⟩
  · exact .inl (if_neg same)

theorem removeFile_cases (removes : files.removeFile path = .ok after) :
    ∃ target number isFile, files.locate path = .ok target ∧
      after = files.dropFile target.place number isFile := by
  unfold removeFile at removes
  split at removes
  · cases removes
  next target located =>
  split at removes
  · cases removes
  · cases removes
  next number isFile =>
  split at removes
  · cases removes
  · exact ⟨target, number, isFile, located, (Except.ok.inj removes).symm⟩

/-- A file to which a path leads can be removed by this path. -/
theorem Leads.exists_removeFile {target : Target} {number : Nat}
    (leads : files.Leads path target number) : ∃ after, files.removeFile path = .ok after := by
  unfold removeFile
  rw [leads.located]
  simp only
  split
  · simp_all [leads.node]
  · simp_all [leads.node]
  · rw [if_neg (by simp [leads.mayBeFile])]
    exact ⟨_, rfl⟩

theorem altersOnly_of_removeFile (removes : files.removeFile path = .ok after) :
    AltersOnly (· = path.place) [] files after := by
  obtain ⟨target, number, isFile, leads, rfl⟩ := removeFile_cases removes
  rw [← place_of_locate leads]
  refine ⟨fun place untouched => .inl ?_, fun _ _ _ _ => rfl,
    files.keepsDirectories_dropFile isFile⟩
  rw [node?_dropFile, if_neg untouched]

/-- A path that led to something leads to nothing once that is gone. -/
theorem lookup_of_missing {target : Target} (leads : files.locate path = .ok target)
    (keeps : files.KeepsDirectories after) (missing : after.node? target.place = none) :
    after.lookup path = .error .notFound := by
  rw [lookup, locate_of_keepsDirectories keeps leads]
  simp only [bind, Except.bind, missing]
  rfl

/-- What has been removed is not found any more. -/
theorem lookup_of_removeFile (removes : files.removeFile path = .ok after) :
    after.lookup path = .error .notFound := by
  obtain ⟨target, number, isFile, leads, rfl⟩ := removeFile_cases removes
  refine lookup_of_missing leads (files.keepsDirectories_dropFile isFile) ?_
  rw [node?_dropFile, if_pos rfl]

theorem altersOnly_of_rename {source : Path} (renames : files.rename source path = .ok after) :
    AltersOnly (fun place => place = source.place ∨ place = path.place) [] files after := by
  obtain ⟨origin, goal, number, starts, ends, -, -, isFile, site, rfl⟩ := rename_cases renames
  rw [← place_of_locate starts.located, ← place_of_locate ends]
  refine ⟨fun place untouched => .inl ?_, fun _ _ _ _ => rfl,
    files.keepsDirectories_moveFile isFile site⟩
  obtain ⟨notOrigin, notGoal⟩ := not_or.1 untouched
  rw [node?_moveFile, if_neg notGoal, if_neg notOrigin]

/-- What has been renamed is not found under its old name any more. -/
theorem lookup_of_rename {source : Path} (differs : source.place ≠ path.place)
    (renames : files.rename source path = .ok after) : after.lookup source = .error .notFound := by
  obtain ⟨origin, goal, number, starts, ends, -, -, isFile, site, rfl⟩ := rename_cases renames
  rw [← place_of_locate starts.located, ← place_of_locate ends] at differs
  refine lookup_of_missing starts.located (files.keepsDirectories_moveFile isFile site) ?_
  rw [node?_moveFile, if_neg differs, if_pos rfl]

end FileSystem

end PositionSync
