import PositionSync.Proofs.Files.Directories
import PositionSync.Proofs.Position.Store

/-!
# Replacing the file of a store

The temporary file of a store lies beside its file, so that one way leads to both. Writing the temporary
file and renaming it touch nothing but the two files, and where that fails only the temporary one.
-/

namespace PositionSync

open PositionSync.Path

section TemporaryName

theorem Path.mem_of_mem_stem {name : Name} {octet : UInt8} (member : octet ∈ stem name) :
    octet ∈ name := by
  unfold stem at member
  simp only at member
  split at member
  · exact member
  · exact List.mem_reverse.1 (List.mem_of_mem_drop (List.mem_reverse.1 member))

/-- What is written behind the stem of a temporary name. -/
def Store.temporaryEnding : Name := dot :: Utf8.encode "tmp"

theorem Path.isProper_temporary (before : Name) : IsProper (before ++ Store.temporaryEnding) := by
  have long : (before ++ Store.temporaryEnding).length ≠ 1 ∧
      (before ++ Store.temporaryEnding).length ≠ 2 := by
    rw [List.length_append, show Store.temporaryEnding.length = 4 from rfl]
    omega
  exact ⟨fun same => long.1 (by rw [same]; rfl), fun same => long.2 (by rw [same]; rfl)⟩

end TemporaryName

namespace Store

/-- How the paths of a store are spelled: its own one and the temporary one differ at most in their
last name. -/
structure Spelling (store : Store) (front : List Name) (last temporary : Name) : Prop where
  components : store.path.components = front ++ [last]
  proper : IsProper last
  temporaryPath : store.temporaryPath = ofComponents store.path.isAbsolute (front ++ [temporary])
  spelled : AreComponents store.path.isAbsolute (front ++ [temporary])
  /-- A name from which nothing but two dots is left names the directory around. -/
  temporary : temporary = parentName ∨ temporary = stem last ++ temporaryEnding

variable {store : Store}

theorem exists_spelling (named : store.path.HasFileName) :
    ∃ front last temporary, store.Spelling front last temporary := by
  obtain ⟨last, isLast, proper⟩ := named
  obtain ⟨front, components⟩ := List.getLast?_eq_some_iff.1 isLast
  have spelled : AreComponents store.path.isAbsolute (front ++ [last]) :=
    components ▸ areComponents_components store.path
  have noSlash : slash ∉ last := spelled.noSlash last (by simp)
  have frontSpelled : AreComponents store.path.isAbsolute front := by simpa using spelled.dropLast
  have renamed : store.temporaryPath = ofComponents store.path.isAbsolute (front ++
      [if stem last = currentName && last.isSuffixOf store.path.octets then parentName
        else stem last ++ temporaryEnding]) := by
    rw [Store.temporaryPath, withExtension, isLast, components, List.dropLast_concat]
    simp only [proper.1, proper.2, or_self, if_false]
    rfl
  split at renamed
  · exact ⟨front, last, parentName, components, proper, renamed,
      frontSpelled.concat (by decide) (by decide) (by decide), .inl rfl⟩
  · have noSlashNow : slash ∉ stem last ++ temporaryEnding := by
      rw [List.mem_append, not_or]
      exact ⟨fun member => noSlash (mem_of_mem_stem member), by decide⟩
    exact ⟨front, last, stem last ++ temporaryEnding, components, proper, renamed,
      frontSpelled.concat (by simp [temporaryEnding]) noSlashNow (isProper_temporary _).1, .inr rfl⟩

namespace Spelling

variable {front : List Name} {last temporary : Name}

theorem frontSpelled (spelling : store.Spelling front last temporary) :
    AreComponents store.path.isAbsolute front := by
  simpa using spelling.spelled.dropLast

theorem way_path (spelling : store.Spelling front last temporary) :
    store.path.way = passed [] front := by
  rw [Path.way, spelling.components, List.dropLast_concat]

theorem place_path (spelling : store.Spelling front last temporary) :
    store.path.place = resolve [] front ++ [last] := by
  rw [Path.place, spelling.components, resolve_concat, enter_of_isProper _ spelling.proper]

theorem components_temporaryPath (spelling : store.Spelling front last temporary) :
    store.temporaryPath.components = front ++ [temporary] := by
  rw [spelling.temporaryPath, components_ofComponents spelling.spelled]

theorem way_temporaryPath (spelling : store.Spelling front last temporary) :
    store.temporaryPath.way = passed [] front := by
  rw [Path.way, spelling.components_temporaryPath, List.dropLast_concat]

theorem place_temporaryPath (spelling : store.Spelling front last temporary) :
    store.temporaryPath.place = enter (resolve [] front) temporary := by
  rw [Path.place, spelling.components_temporaryPath, resolve_concat]

theorem isInMemory (spelling : store.Spelling front last temporary) : store.isInMemory = false := by
  by_contra hasNone
  have noOctets : store.path.octets = [] := by
    simpa [Store.isInMemory, Path.isEmpty] using hasNone
  have components := spelling.components
  simp [Path.components, segments, noOctets, splitSlashes] at components

/-- The temporary path leads neither to the position path nor into it, unless both are the same. -/
theorem not_isPrefix_temporaryPath (spelling : store.Spelling front last temporary)
    (differs : store.temporaryPath.components ≠ store.path.components) :
    ¬ store.path.place <+: store.temporaryPath.place := by
  intro inside
  rw [spelling.components_temporaryPath, spelling.components] at differs
  rw [spelling.place_path, spelling.place_temporaryPath] at inside
  have length := inside.length_le
  rcases spelling.temporary with parent | renamed
  · rw [parent, enter, if_neg parentName_ne_currentName, if_pos rfl] at length
    simp at length
    omega
  · rw [renamed, enter_of_isProper _ (isProper_temporary _)] at inside
    have same := inside.eq_of_length (by simp)
    exact differs (by rw [renamed, List.append_cancel_left same])

/-- The directory of a store is the one at the end of its way. -/
theorem makeDirectories_directory (spelling : store.Spelling front last temporary)
    (files : FileSystem) :
    files.makeDirectories store.directory = FileSystem.makeDirectoriesWithin (front.length + 1) files
      (ofComponents store.path.isAbsolute front) := by
  have frontSpelled := spelling.frontSpelled
  have parent : store.path.parent? = some (ofComponents store.path.isAbsolute front) := by
    unfold parent?
    rw [spelling.components]
    cases front with
    | nil => rfl
    | cons first rest =>
        rw [List.cons_append]
        simp only [← List.cons_append, List.dropLast_concat]
  rw [Store.directory, parent]
  by_cases current : (ofComponents store.path.isAbsolute front).isEmpty
  · have noFront : front = [] := by
      rcases front.eq_nil_or_concat' with alone | ⟨before, other, rfl⟩
      · exact alone
      · simp [FileSystem.isEmpty_ofComponents_concat _ frontSpelled] at current
    subst noFront
    simp only [current, if_true]
    rw [FileSystem.makeDirectoriesWithin_nil files]
    have usable : (Path.ofText ".").IsUsable := ⟨by decide, by decide, by decide⟩
    have walked : files.walk [] (Path.ofText ".").segments = .ok [] := rfl
    have isDirectory := (FileSystem.isDirectory_of_walk usable).2 ⟨[], walked⟩
    rw [FileSystem.makeDirectories, FileSystem.makeDirectoriesWithin,
      FileSystem.makeDirectory_of_walk usable walked]
    simp [isDirectory, show (Path.ofText ".").isEmpty = false from rfl]
  · simp only [current, Bool.false_eq_true, if_false]
    rw [FileSystem.makeDirectories, components_ofComponents frontSpelled]

theorem usableFront (spelling : store.Spelling front last temporary)
    (usable : store.temporaryPath.IsUsable) (nonempty : front ≠ []) :
    (ofComponents store.path.isAbsolute front).IsUsable :=
  FileSystem.isUsable_front spelling.spelled (spelling.temporaryPath ▸ usable) nonempty

end Spelling

section Steps

variable {storage : Storage} {moment : Moment} {listing : List (Partition × Offset)}
  {files after : FileSystem} {octets : List UInt8}

theorem altersOnly_of_writeTemporary {result : Except Error Unit}
    (writes : store.writeTemporary storage files octets = (after, result)) :
    FileSystem.AltersOnly (· = store.temporaryPath.place) [] files after := by
  rw [writeTemporary] at writes
  cases creates : files.write store.temporaryPath [] with
  | error fault =>
      rw [creates] at writes
      obtain rfl : files = after := congrArg Prod.fst writes
      exact .refl files
  | ok created =>
      obtain ⟨target, number, leads, -⟩ := FileSystem.leads_of_write creates
      have first := FileSystem.altersOnly_of_write creates
      simp only [creates, leads.write] at writes
      have isFilled : ∃ written, after = created.fill number written := by
        cases storage <;> exact ⟨_, (congrArg Prod.fst writes).symm⟩
      obtain ⟨written, rfl⟩ := isFilled
      exact first.trans (FileSystem.altersOnly_of_write (leads.write written))

theorem error_of_writeTemporary {error : Error}
    (fails : store.writeTemporary storage files octets = (after, .error error)) :
    ∃ message, error = .persist message := by
  rw [writeTemporary] at fails
  split at fails
  · exact ⟨_, (Except.error.inj (congrArg Prod.snd fails)).symm⟩
  · cases storage with
    | full | fileUnsynced => exact ⟨_, (Except.error.inj (congrArg Prod.snd fails)).symm⟩
    | sound | directoryUnopened | directoryUnsynced => cases congrArg Prod.snd fails

/-- Where replacing the file fails, only the temporary file is touched. -/
theorem altersOnly_of_replaceFile_error {error : Error}
    (fails : store.replaceFile storage files octets = (after, .error error)) :
    FileSystem.AltersOnly (· = store.temporaryPath.place) [] files after ∧
      ∃ message, error = .persist message := by
  rw [replaceFile] at fails
  split at fails
  · next written _ writes =>
    obtain rfl : written = after := congrArg Prod.fst fails
    obtain rfl := Except.error.inj (congrArg Prod.snd fails)
    exact ⟨altersOnly_of_writeTemporary writes, error_of_writeTemporary writes⟩
  · next written writes =>
    split at fails
    · cases congrArg Prod.snd fails
    · obtain rfl : written = after := congrArg Prod.fst fails
      exact ⟨altersOnly_of_writeTemporary writes,
        _, (Except.error.inj (congrArg Prod.snd fails)).symm⟩

theorem replaceFile_eq_ok
    (replaces : store.replaceFile storage files octets = (after, .ok ())) :
    ∃ written, store.writeTemporary storage files octets = (written, .ok ()) ∧
      written.rename store.temporaryPath store.path = .ok after := by
  rw [replaceFile] at replaces
  split at replaces
  · cases congrArg Prod.snd replaces
  · next written writes =>
    split at replaces
    · next renamed renames =>
      obtain rfl : renamed = after := congrArg Prod.fst replaces
      exact ⟨written, writes, renames⟩
    · cases congrArg Prod.snd replaces

theorem altersOnly_of_replaceFile
    (replaces : store.replaceFile storage files octets = (after, .ok ())) :
    FileSystem.AltersOnly
      (fun place => place = store.temporaryPath.place ∨ place = store.path.place) [] files after := by
  obtain ⟨written, writes, renames⟩ := replaceFile_eq_ok replaces
  have first := altersOnly_of_writeTemporary writes
  exact (first.mono (fun _ => .inl) fun _ => id).trans (FileSystem.altersOnly_of_rename renames)

theorem altersOnly_of_removeTemporary (store : Store) (files : FileSystem) :
    FileSystem.AltersOnly (· = store.temporaryPath.place) [] files (store.removeTemporary files) := by
  unfold removeTemporary
  cases removes : files.removeFile store.temporaryPath with
  | error fault => exact .refl files
  | ok removed => exact FileSystem.altersOnly_of_removeFile removes

/-- After its removal there is no temporary file. -/
theorem lookup_of_removeTemporary (store : Store) (files : FileSystem) (number : Nat) :
    (store.removeTemporary files).lookup store.temporaryPath ≠ .ok (.file number) := by
  unfold removeTemporary
  cases removes : files.removeFile store.temporaryPath with
  | error fault =>
      intro found
      rw [show (Except.error fault).toOption.getD files = files from rfl] at found
      obtain ⟨target, leads⟩ := FileSystem.leads_of_lookup found
      obtain ⟨removed, succeeds⟩ := leads.exists_removeFile
      rw [removes] at succeeds
      cases succeeds
  | ok removed =>
      intro found
      rw [show (Except.ok removed).toOption.getD files = removed from rfl,
        FileSystem.lookup_of_removeFile removes] at found
      cases found

/-- The ways in which writing a table ends. -/
theorem persistListed_cases {result : Except Error Unit} (hasPath : store.isInMemory = false)
    (persists : store.persistListed moment listing files = (after, result)) :
    let octets := Snapshot.encodeListed moment.time listing
    (∃ fault, files.makeDirectories store.directory = (after, .error fault) ∧
        result = failure "Failed to create store directory" fault.message) ∨
      ∃ ready, files.makeDirectories store.directory = (ready, .ok ()) ∧
        ((∃ written error, store.replaceFile moment.storage ready octets = (written, .error error) ∧
            after = store.removeTemporary written ∧ result = .error error) ∨
          store.replaceFile moment.storage ready octets = (after, .ok ()) ∧
            result = store.syncDirectory moment.storage) := by
  rw [persistListed, hasPath] at persists
  simp only [Bool.false_eq_true, if_false] at persists
  split at persists
  · next ready fault makes =>
    obtain ⟨rfl, rfl⟩ := Prod.mk.inj persists
    exact .inl ⟨fault, makes, rfl⟩
  · next ready makes =>
    right
    refine ⟨ready, makes, ?_⟩
    split at persists
    · next written error fails =>
      obtain ⟨rfl, rfl⟩ := Prod.mk.inj persists
      exact .inl ⟨written, error, fails, rfl, rfl⟩
    · next replaced replaces =>
      obtain ⟨rfl, rfl⟩ := Prod.mk.inj persists
      exact .inr ⟨replaces, rfl⟩

end Steps

end Store

end PositionSync
