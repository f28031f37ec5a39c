import PositionSync.Files.System
import PositionSync.Proofs.SortedMap

/-!
# What paths lead to after files have been written

Writing and renaming put a file at a place, and no directory ceases to be one. Since only directories
decide where a path leads, every path keeps its place, and the octets that were written are found there.
-/

namespace PositionSync

namespace FileSystem

/-- Whatever is a directory remains one. -/
def KeepsDirectories (files after : FileSystem) : Prop :=
  ∀ place, files.node? place = some .directory → after.node? place = some .directory

theorem follow_of_keepsDirectories {files after : FileSystem} (keeps : files.KeepsDirectories after)
    {onlyDirectory : Bool} {here : Place} {segments : List Path.Name} {target : Target}
    (leads : files.follow onlyDirectory here segments = .ok target) :
    after.follow onlyDirectory here segments = .ok target := by
  induction segments generalizing here with
  | nil => exact leads
  | cons name rest ih =>
      rw [follow] at leads ⊢
      by_cases current : name = Path.currentName
      · rw [if_pos current] at leads ⊢
        exact ih leads
      rw [if_neg current] at leads ⊢
      by_cases parent : name = Path.parentName
      · rw [if_pos parent] at leads ⊢
        exact ih leads
      rw [if_neg parent] at leads ⊢
      by_cases long : longestName < name.length
      · rw [if_pos long] at leads
        cases leads
      rw [if_neg long] at leads ⊢
      by_cases isLast : rest.isEmpty
      · rw [if_pos isLast] at leads ⊢
        exact leads
      rw [if_neg isLast] at leads ⊢
      split at leads
      · next isDirectory =>
        rw [keeps _ isDirectory]
        exact ih leads
      · cases leads
      · cases leads

theorem locate_of_keepsDirectories {files after : FileSystem} (keeps : files.KeepsDirectories after)
    {path : Path} {target : Target} (leads : files.locate path = .ok target) :
    after.locate path = .ok target := by
  simp only [locate] at leads ⊢
  split at leads
  · cases leads
  · next noNul =>
    split at leads
    · cases leads
    · next notEmpty =>
      split at leads
      · cases leads
      · next notLong =>
        rw [if_neg noNul, if_neg notEmpty, if_neg notLong]
        exact follow_of_keepsDirectories keeps leads

section Primitives

variable {place origin other : Place} {number : Nat} {octets : List UInt8}

theorem ne_of_isSite {nodes : SortedMap Place FileNode} (site : IsSite nodes place)
    (isDirectory : nodeAt? nodes other = some .directory) : other ≠ place :=
  fun same => site.free (same ▸ isDirectory)

variable (files : FileSystem) (isFile : files.node? origin = some (.file number))
  (site : IsSite files.nodes place)

theorem node?_addFile (other : Place) :
    (files.addFile place site octets).node? other =
      if other = place then some (.file files.next) else files.node? other :=
  nodeAt?_insert _ (ne_root_of_free site.free) _ other

theorem node?_addDirectory (other : Place) :
    (files.addDirectory place site).node? other =
      if other = place then some .directory else files.node? other :=
  nodeAt?_insert _ (ne_root_of_free site.free) _ other

theorem node?_dropFile (other : Place) :
    (files.dropFile origin number isFile).node? other =
      if other = origin then none else files.node? other :=
  nodeAt?_erase files.nodes (ne_root_of_isFile isFile) other

theorem node?_moveFile (other : Place) :
    (files.moveFile origin place number isFile site).node? other =
      if other = place then some (.file number)
      else if other = origin then none else files.node? other := by
  rw [← node?_dropFile files isFile]
  exact nodeAt?_insert _ (ne_root_of_free site.free) _ other

theorem keepsDirectories_fill (number : Nat) (octets : List UInt8) :
    files.KeepsDirectories (files.fill number octets) :=
  fun _ isDirectory => isDirectory

theorem keepsDirectories_addFile (octets : List UInt8) :
    files.KeepsDirectories (files.addFile place site octets) := by
  intro other isDirectory
  rw [node?_addFile, if_neg (ne_of_isSite site isDirectory), isDirectory]

theorem keepsDirectories_addDirectory : files.KeepsDirectories (files.addDirectory place site) := by
  intro other isDirectory
  rw [node?_addDirectory, if_neg (ne_of_isSite site isDirectory), isDirectory]

include isFile in
theorem ne_of_isFile (isDirectory : files.node? other = some .directory) : other ≠ origin := by
  rintro rfl
  rw [isFile] at isDirectory
  cases isDirectory

theorem keepsDirectories_dropFile :
    files.KeepsDirectories (files.dropFile origin number isFile) := by
  intro other isDirectory
  rw [node?_dropFile, if_neg (files.ne_of_isFile isFile isDirectory), isDirectory]

theorem keepsDirectories_moveFile :
    files.KeepsDirectories (files.moveFile origin place number isFile site) := by
  intro other isDirectory
  rw [node?_moveFile, if_neg (ne_of_isSite site isDirectory),
    if_neg (files.ne_of_isFile isFile isDirectory), isDirectory]

@[simp]
theorem octets_fill_self (number : Nat) (octets : List UInt8) :
    (files.fill number octets).octets number = octets := by
  simp [fill, FileSystem.octets]

theorem octets_fill_of_ne {number other : Nat} (differs : other ≠ number) (octets : List UInt8) :
    (files.fill number octets).octets other = files.octets other := by
  rw [fill, FileSystem.octets, SortedMap.get?_insert_of_ne _ _ differs]
  rfl

@[simp]
theorem octets_addFile_self : (files.addFile place site octets).octets files.next = octets := by
  simp [addFile, FileSystem.octets]

theorem octets_addFile_of_ne {other : Nat} (differs : other ≠ files.next) :
    (files.addFile place site octets).octets other = files.octets other := by
  rw [addFile, FileSystem.octets, SortedMap.get?_insert_of_ne _ _ differs]
  rfl

end Primitives

/-- A path leads to a file by a name in a directory. -/
structure Leads (files : FileSystem) (path : Path) (target : Target) (number : Nat) : Prop where
  located : files.locate path = .ok target
  named : target.name ≠ none
  mayBeFile : target.onlyDirectory = false
  node : files.node? target.place = some (.file number)

namespace Leads

variable {files : FileSystem} {path : Path} {target : Target} {number : Nat}

theorem lookup (leads : files.Leads path target number) :
    files.lookup path = .ok (.file number) := by
  simp only [FileSystem.lookup, leads.located, leads.node, leads.mayBeFile, bind, Except.bind]
  rfl

theorem read (leads : files.Leads path target number) :
    files.read path = .ok (files.octets number) := by
  rw [FileSystem.read, leads.lookup]
  rfl

/-- What files hold has no part in where paths lead. -/
theorem fill (leads : files.Leads path target number) (other : Nat) (octets : List UInt8) :
    (files.fill other octets).Leads path target number where
  located := locate_of_keepsDirectories (files.keepsDirectories_fill other octets) leads.located
  named := leads.named
  mayBeFile := leads.mayBeFile
  node := leads.node

end Leads

section Operations

variable {files after : FileSystem} {path : Path} {octets : List UInt8}

/-- What a write finds and does. -/
theorem write_cases (writes : files.write path octets = .ok after) :
    ∃ target, files.locate path = .ok target ∧ target.name ≠ none ∧ target.onlyDirectory = false ∧
      ((∃ number, files.node? target.place = some (.file number) ∧
          after = files.fill number octets) ∨
        ∃ site, files.node? target.place = none ∧
          after = files.addFile target.place site octets) := by
  unfold write at writes
  split at writes
  · cases writes
  next target located =>
  split at writes
  · next mayBeFile =>
    refine ⟨target, located, mayBeFile.1, mayBeFile.2, ?_⟩
    split at writes
    · cases writes
    · next number isFile => exact .inl ⟨number, isFile, (Except.ok.inj writes).symm⟩
    · next missing => exact .inr ⟨_, missing, (Except.ok.inj writes).symm⟩
  · cases writes

theorem Leads.write {target : Target} {number : Nat} (leads : files.Leads path target number)
    (octets : List UInt8) : files.write path octets = .ok (files.fill number octets) := by
  unfold FileSystem.write
  split
  · next fails =>
    rw [leads.located] at fails
    cases fails
  next other located =>
  obtain rfl : target = other := Except.ok.inj (leads.located.symm.trans located)
  rw [dif_pos ⟨leads.named, leads.mayBeFile⟩]
  have isFile := leads.node
  split
  · next isDirectory =>
    rw [isDirectory] at isFile
    cases isFile
  · next found =>
    rw [found] at isFile
    cases isFile
    rfl
  · next missing =>
    rw [missing] at isFile
    cases isFile

theorem exists_write {target : Target} (leads : files.locate path = .ok target)
    (named : target.name ≠ none) (mayBeFile : target.onlyDirectory = false)
    (noDirectory : files.node? target.place ≠ some .directory) (octets : List UInt8) :
    ∃ written, files.write path octets = .ok written := by
  unfold write
  split
  · next fails =>
    rw [leads] at fails
    cases fails
  next other located =>
  obtain rfl : target = other := Except.ok.inj (leads.symm.trans located)
  rw [dif_pos ⟨named, mayBeFile⟩]
  split
  · next isDirectory => exact absurd isDirectory noDirectory
  · exact ⟨_, rfl⟩
  · exact ⟨_, rfl⟩

/-- After a write, the path leads to a file with the octets. -/
theorem leads_of_write (writes : files.write path octets = .ok after) :
    ∃ target number, after.Leads path target number ∧ after.octets number = octets := by
  obtain ⟨target, located, named, mayBeFile, ⟨number, isFile, rfl⟩ | ⟨site, missing, rfl⟩⟩ :=
    write_cases writes
  · have leads : files.Leads path target number := ⟨located, named, mayBeFile, isFile⟩
    exact ⟨target, number, leads.fill number octets, files.octets_fill_self number octets⟩
  · have located := locate_of_keepsDirectories (files.keepsDirectories_addFile site octets) located
    refine ⟨target, files.next, ⟨located, named, mayBeFile, ?_⟩, files.octets_addFile_self site⟩
    rw [node?_addFile, if_pos rfl]

theorem rename_cases {source : Path} (renames : files.rename source path = .ok after) :
    ∃ origin goal number, files.Leads source origin number ∧ files.locate path = .ok goal ∧
      goal.name ≠ none ∧ goal.onlyDirectory = false ∧
      ∃ isFile site, after = files.moveFile origin.place goal.place number isFile site := by
  unfold rename at renames
  split at renames
  · cases renames
  · cases renames
  next origin goal starts ends =>
  split at renames
  · next named =>
    split at renames
    · cases renames
    · cases renames
    next number isFile =>
    split at renames
    · cases renames
    next mayBeFile =>
    split at renames
    · cases renames
    obtain ⟨originFile, goalFile⟩ : origin.onlyDirectory = false ∧ goal.onlyDirectory = false := by
      simpa using mayBeFile
    exact ⟨origin, goal, number, ⟨starts, named.1, originFile, isFile⟩, ends, named.2, goalFile,
      isFile, _, (Except.ok.inj renames).symm⟩
  · cases renames

theorem exists_rename {source : Path} {origin goal : Target} {number : Nat}
    (starts : files.Leads source origin number) (ends : files.locate path = .ok goal)
    (named : goal.name ≠ none) (mayBeFile : goal.onlyDirectory = false)
    (noDirectory : files.node? goal.place ≠ some .directory) :
    ∃ renamed, files.rename source path = .ok renamed := by
  unfold rename
  split
  · next fails =>
    rw [starts.located] at fails
    cases fails
  · next fails =>
    rw [ends] at fails
    cases fails
  next first second isFirst isSecond =>
  obtain rfl : origin = first := Except.ok.inj (starts.located.symm.trans isFirst)
  obtain rfl : goal = second := Except.ok.inj (ends.symm.trans isSecond)
  rw [dif_pos ⟨starts.named, named⟩]
  split
  · simp_all [starts.node]
  · simp_all [starts.node]
  · rw [if_neg (by simp [starts.mayBeFile, mayBeFile]), dif_neg noDirectory]
    exact ⟨_, rfl⟩

/-- After a file has been renamed, the new path leads to it. -/
theorem leads_of_rename {source : Path} {origin : Target} {number : Nat}
    (renames : files.rename source path = .ok after) (leads : files.Leads source origin number) :
    ∃ target, after.Leads path target number ∧ after.octets number = files.octets number := by
  obtain ⟨first, goal, moved, starts, ends, named, mayBeFile, isFile, site, rfl⟩ :=
    rename_cases renames
  obtain rfl : origin = first := Except.ok.inj (leads.located.symm.trans starts.located)
  obtain rfl : number = moved := FileNode.file.inj (Option.some.inj (leads.node.symm.trans isFile))
  have ends := locate_of_keepsDirectories (files.keepsDirectories_moveFile isFile site) ends
  refine ⟨goal, ⟨ends, named, mayBeFile, ?_⟩, rfl⟩
  rw [node?_moveFile, if_pos rfl]

end Operations

end FileSystem

end PositionSync
