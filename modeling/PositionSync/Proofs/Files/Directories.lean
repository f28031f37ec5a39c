import Mathlib.Data.List.Induction
import PositionSync.Proofs.Files.Changes

/-!
# Making directories

When the directories of a path are made, only directories on its way are added, also if not all of them
can be made. They have been made exactly if the path can be walked afterwards, and nothing but a file on
the way or an impossible name can prevent it.
-/

namespace PositionSync

open PositionSync.Path

namespace FileSystem

section OneDirectory

variable {files after : FileSystem} {path : Path}

theorem lookup_of_makeDirectory (makes : files.makeDirectory path = .ok after) :
    after.lookup path = .ok .directory := by
  have keeps := (addsDirectories_of_makeDirectory makes).keeps
  obtain ⟨target, site, leads, -, rfl⟩ := makeDirectory_cases makes
  rw [lookup, locate_of_keepsDirectories keeps leads]
  simp only [bind, Except.bind, node?_addDirectory, if_true]
  rfl

/-- A directory that is there cannot be made. -/
theorem makeDirectory_of_walk (usable : path.IsUsable) {place : Place}
    (walked : files.walk [] path.segments = .ok place) :
    files.makeDirectory path = .error .alreadyExists := by
  obtain ⟨target, follows, same⟩ := exists_follow_of_walk path.endsWithSlash walked
  have leads : files.locate path = .ok target := locate_eq_ok_iff.2 ⟨usable, follows⟩
  have isDirectory := node?_of_walk files.node?_root walked
  rcases makeDirectory_of_locate leads with ⟨-, -, missing⟩ | ⟨present, -⟩
  · rw [same, isDirectory] at missing
    cases missing
  · exact present

theorem isDirectory_of_walk (usable : path.IsUsable) :
    files.isDirectory path = true ↔ ∃ place, files.walk [] path.segments = .ok place := by
  rw [isDirectory_iff, lookup_eq_directory_iff usable]

theorem ensureDirectory_of_walk (usable : path.IsUsable) {place : Place}
    (walked : files.walk [] path.segments = .ok place) : files.ensureDirectory path = .ok files := by
  rw [ensureDirectory, makeDirectory_of_walk usable walked]
  simp [(isDirectory_of_walk usable).2 ⟨place, walked⟩]

theorem addsDirectories_of_ensureDirectory
    (ensures : files.ensureDirectory path = .ok after) :
    AddsDirectories [path.place] files after := by
  unfold ensureDirectory at ensures
  split at ensures
  · next makes =>
    obtain rfl := Except.ok.inj ensures
    exact addsDirectories_of_makeDirectory makes
  · split at ensures
    · obtain rfl := Except.ok.inj ensures
      exact .refl files
    · cases ensures

theorem exists_ensureDirectory
    (ready : (∃ made, files.makeDirectory path = .ok made) ∨ files.isDirectory path = true) :
    ∃ ensured, files.ensureDirectory path = .ok ensured := by
  unfold ensureDirectory
  rcases ready with ⟨made, makes⟩ | isDirectory
  · exact ⟨made, by rw [makes]⟩
  · split
    · exact ⟨_, rfl⟩
    · exact ⟨files, if_pos isDirectory⟩

theorem isDirectory_of_ensureDirectory
    (ensures : files.ensureDirectory path = .ok after) : after.isDirectory path = true := by
  unfold ensureDirectory at ensures
  split at ensures
  · next makes =>
    obtain rfl := Except.ok.inj ensures
    exact isDirectory_iff.2 (lookup_of_makeDirectory makes)
  · split at ensures
    · next isDirectory => exact Except.ok.inj ensures ▸ isDirectory
    · cases ensures

end OneDirectory

theorem place_ofComponents {isAbsolute : Bool} {names : List Name}
    (spelled : AreComponents isAbsolute names) :
    (ofComponents isAbsolute names).place = resolve [] names := by
  rw [Path.place, components_ofComponents spelled]

theorem parent?_ofComponents {isAbsolute : Bool} {front : List Name} {last : Name}
    (spelled : AreComponents isAbsolute (front ++ [last])) :
    (ofComponents isAbsolute (front ++ [last])).parent? = some (ofComponents isAbsolute front) := by
  unfold parent?
  rw [components_ofComponents spelled, isAbsolute_ofComponents spelled]
  cases front with
  | nil => rfl
  | cons first rest =>
      rw [List.cons_append]
      simp only [← List.cons_append, List.dropLast_concat]

theorem isEmpty_ofComponents_concat (isAbsolute : Bool) {front : List Name} {last : Name}
    (spelled : AreComponents isAbsolute (front ++ [last])) :
    (ofComponents isAbsolute (front ++ [last])).isEmpty = false := by
  have nonempty := spelled.nonempty last (by simp)
  cases isAbsolute with
  | true => rfl
  | false =>
      by_cases alone : front = []
      · simpa [alone, isEmpty, ofComponents, joinNames] using nonempty
      · simp [isEmpty, ofComponents, joinNames_concat alone]

section AllDirectories

variable {files : FileSystem} {isAbsolute : Bool} {names : List Name}

theorem makeDirectoriesWithin_nil (files : FileSystem) (isAbsolute : Bool) (fuel : Nat) :
    makeDirectoriesWithin (fuel + 1) files (ofComponents isAbsolute []) = (files, .ok ()) := by
  cases isAbsolute with
  | false => rfl
  | true =>
      have usable : (ofComponents true []).IsUsable := ⟨by decide, by decide, by decide⟩
      have walked : files.walk [] (ofComponents true []).segments = .ok [] := rfl
      have isDirectory := (isDirectory_of_walk usable).2 ⟨[], walked⟩
      rw [makeDirectoriesWithin, makeDirectory_of_walk usable walked]
      simp [isDirectory, show (ofComponents true []).isEmpty = false from rfl]

/-- The directory at the end of a path is made after those around it, if these are missing. -/
theorem makeDirectoriesWithin_concat {front : List Name} {last : Name}
    (spelled : AreComponents isAbsolute (front ++ [last])) (files : FileSystem) (fuel : Nat) :
    let path := ofComponents isAbsolute (front ++ [last])
    makeDirectoriesWithin (fuel + 1) files path =
      match files.makeDirectory path with
      | .ok made => (made, .ok ())
      | .error .notFound =>
        match makeDirectoriesWithin fuel files (ofComponents isAbsolute front) with
        | (around, .error fault) => (around, .error fault)
        | (around, .ok ()) =>
          match around.ensureDirectory path with
          | .ok made => (made, .ok ())
          | .error fault => (around, .error fault)
      | .error fault => if files.isDirectory path then (files, .ok ()) else (files, .error fault) := by
  intro path
  rw [makeDirectoriesWithin, isEmpty_ofComponents_concat isAbsolute spelled,
    parent?_ofComponents spelled]
  rfl

theorem addsDirectories_of_makeDirectoriesWithin (files : FileSystem)
    (spelled : AreComponents isAbsolute names) (fuel : Nat) :
    AddsDirectories (passed [] names) files
      (makeDirectoriesWithin fuel files (ofComponents isAbsolute names)).1 := by
  induction names using List.reverseRecOn generalizing fuel with
  | nil =>
      cases fuel with
      | zero => exact .refl files
      | succ fuel =>
          rw [makeDirectoriesWithin_nil files]
          exact .refl files
  | append_singleton front last ih =>
      cases fuel with
      | zero => exact .refl files
      | succ fuel =>
          have onWay : ∀ place ∈ [(ofComponents isAbsolute (front ++ [last])).place],
              place ∈ passed [] (front ++ [last]) := by
            intro place member
            rw [List.mem_singleton.1 member, place_ofComponents spelled]
            exact resolve_mem_passed [] (by simp)
          have along : ∀ place ∈ passed [] front, place ∈ passed [] (front ++ [last]) := by
            intro place member
            rw [passed_append]
            exact List.mem_append_left _ member
          rw [makeDirectoriesWithin_concat spelled]
          split
          · next made makes =>
            exact (addsDirectories_of_makeDirectory makes).mono (fun _ => id) onWay
          · have before := (ih (by simpa using spelled.dropLast) fuel).mono (fun _ => id) along
            split
            · next around fault made => exact made ▸ before
            · next around made =>
              rw [made] at before
              split
              · next last ensures =>
                exact before.trans
                  ((addsDirectories_of_ensureDirectory ensures).mono (fun _ => id) onWay)
              · exact before
          · split <;> exact .refl files

theorem isUsable_front {front : List Name} {last : Name}
    (spelled : AreComponents isAbsolute (front ++ [last]))
    (usable : (ofComponents isAbsolute (front ++ [last])).IsUsable) (nonempty : front ≠ []) :
    (ofComponents isAbsolute front).IsUsable := by
  have octets : (ofComponents isAbsolute (front ++ [last])).octets =
      (ofComponents isAbsolute front).octets ++ slash :: last := by
    simp [ofComponents, joinNames_concat nonempty]
  have noNul := usable.noNul
  have short := usable.short
  rw [octets, List.mem_append, not_or] at noNul
  rw [octets, List.length_append] at short
  refine ⟨noNul.1, ?_, by omega⟩
  obtain ⟨before, other, rfl⟩ := front.eq_nil_or_concat'.resolve_left nonempty
  have frontSpelled : AreComponents isAbsolute (before ++ [other]) := by
    simpa using spelled.dropLast
  simpa [isEmpty] using isEmpty_ofComponents_concat isAbsolute frontSpelled

theorem walk_front {here place : Place} {front : List Name} {last : Name}
    (walked : files.walk here (front ++ [last]) = .ok place) :
    ∃ between, files.walk here front = .ok between := by
  rw [walk_append] at walked
  cases before : files.walk here front with
  | error fault => simp [before, Except.bind] at walked
  | ok between => exact ⟨between, rfl⟩

/-- Directories have been made exactly if they can be walked through afterwards. -/
theorem makeDirectoriesWithin_eq_ok_iff (files : FileSystem)
    (spelled : AreComponents isAbsolute names)
    (usable : names ≠ [] → (ofComponents isAbsolute names).IsUsable) {fuel : Nat}
    (enough : names.length < fuel) :
    (makeDirectoriesWithin fuel files (ofComponents isAbsolute names)).2 = .ok () ↔
      ∃ place, (makeDirectoriesWithin fuel files (ofComponents isAbsolute names)).1.walk [] names =
        .ok place := by
  induction names using List.reverseRecOn generalizing fuel with
  | nil =>
      obtain ⟨fuel, rfl⟩ := Nat.exists_eq_succ_of_ne_zero (Nat.ne_of_gt enough)
      rw [makeDirectoriesWithin_nil files]
      simp [walk]
  | append_singleton front last ih =>
      obtain ⟨fuel, rfl⟩ := Nat.exists_eq_succ_of_ne_zero (Nat.ne_of_gt (Nat.zero_lt_of_lt enough))
      have usable := usable (by simp)
      have walks {some : FileSystem} :
          some.isDirectory (ofComponents isAbsolute (front ++ [last])) = true ↔
            ∃ place, some.walk [] (front ++ [last]) = .ok place := by
        rw [isDirectory_of_walk usable, segments_ofComponents spelled]
      have frontSpelled : AreComponents isAbsolute front := by simpa using spelled.dropLast
      have enoughFront : front.length < fuel := by simpa using enough
      have around := ih frontSpelled (isUsable_front spelled usable) enoughFront
      have adds := addsDirectories_of_makeDirectoriesWithin files frontSpelled fuel
      rw [makeDirectoriesWithin_concat spelled]
      -- One case for each way in which the call for the whole path ends.
      split
      · next made makes =>
        simpa using walks.1 (isDirectory_iff.2 (lookup_of_makeDirectory makes))
      · split
        · next fault made =>
          rw [made] at around
          simp only [reduceCtorEq, false_iff]
          rintro ⟨place, walked⟩
          exact absurd (around.2 (walk_front walked)) (by simp)
        · next made =>
          rw [made] at adds
          split
          · next ensured ensures =>
            simpa using walks.1 (isDirectory_of_ensureDirectory ensures)
          · next fault fails =>
            simp only [reduceCtorEq, false_iff]
            rintro ⟨place, walked⟩
            rw [ensureDirectory_of_walk usable
              (by rw [segments_ofComponents spelled]; exact walked)] at fails
            cases fails
      · next fault _ _ =>
        split
        · next isDirectory => simpa using walks.1 isDirectory
        · next notDirectory =>
          simp only [reduceCtorEq, false_iff]
          exact fun walked => notDirectory (walks.2 walked)

/-- Only a file and a name that is too long stand in the way of a walk, but for what is missing. -/
theorem walk_eq_notFound {here : Place} {names : List Name}
    {fault : FileFault} (isDirectory : files.node? here = some .directory)
    (short : ∀ name ∈ names, name.length ≤ longestName)
    (noFile : ∀ place ∈ passed here names, ∀ number, files.node? place ≠ some (.file number))
    (fails : files.walk here names = .error fault) : fault = .notFound := by
  induction names generalizing here with
  | nil => cases fails
  | cons name rest ih =>
      have restShort : ∀ name ∈ rest, name.length ≤ longestName :=
        fun name member => short name (List.mem_cons_of_mem _ member)
      rw [passed, List.forall_mem_cons] at noFile
      rw [walk] at fails
      by_cases current : name = currentName
      · rw [if_pos current] at fails
        exact ih isDirectory restShort (by simpa [enter, current] using noFile.2) fails
      rw [if_neg current] at fails
      by_cases parent : name = parentName
      · rw [if_pos parent] at fails
        exact ih (node?_dropLast isDirectory) restShort
          (by simpa [enter, parent] using noFile.2) fails
      rw [if_neg parent, if_neg (Nat.not_lt.2 (short name List.mem_cons_self))] at fails
      rw [enter_of_isProper here ⟨current, parent⟩] at noFile
      cases found : files.node? (here ++ [name]) with
      | none =>
          rw [found] at fails
          exact (Except.error.inj fails).symm
      | some node =>
          cases node with
          | file number => exact absurd found (noFile.1 number)
          | directory =>
              rw [found] at fails
              exact ih found restShort noFile.2 fails

/-- In a directory there is room for another one, unless a file has its name. -/
theorem makeDirectory_or_isDirectory {front : List Name} {last : Name}
    (spelled : AreComponents isAbsolute (front ++ [last]))
    (usable : (ofComponents isAbsolute (front ++ [last])).IsUsable) {place : Place}
    (walked : files.walk [] front = .ok place) (short : last.length ≤ longestName)
    (noFile : ∀ number, files.node? (enter place last) ≠ some (.file number)) :
    (∃ made, files.makeDirectory (ofComponents isAbsolute (front ++ [last])) = .ok made) ∨
      files.isDirectory (ofComponents isAbsolute (front ++ [last])) = true := by
  have isDirectory := node?_of_walk files.node?_root walked
  cases found : files.node? (enter place last) with
  | some node =>
      cases node with
      | file number => exact absurd found (noFile number)
      | directory =>
          right
          rw [isDirectory_of_walk usable, segments_ofComponents spelled, walk_append, walked]
          refine ⟨enter place last, (walk_eq_ok_iff isDirectory).2 ⟨rfl, ?_, ?_⟩⟩
          · simpa using short
          · simpa [passed] using found
  | none =>
      left
      have proper : IsProper last := by
        constructor
        · rintro rfl
          simp [enter, isDirectory] at found
        · rintro rfl
          simp [enter, node?_dropLast isDirectory] at found
      have leads := locate_of_isUsable files usable
      rw [segments_ofComponents spelled, follow_of_isProper walked proper short] at leads
      rw [enter_of_isProper place proper] at found
      rcases makeDirectory_of_locate leads with ⟨made, -⟩ | ⟨-, present⟩
      · exact made
      · exact absurd ⟨Option.some_ne_none last, found⟩ present

/-- Directories can be made if no file is in the way. -/
theorem makeDirectoriesWithin_eq_ok
    (spelled : AreComponents isAbsolute names)
    (usable : names ≠ [] → (ofComponents isAbsolute names).IsUsable)
    (short : ∀ name ∈ names, name.length ≤ longestName)
    (noFile : ∀ place ∈ passed [] names, ∀ number, files.node? place ≠ some (.file number))
    {fuel : Nat} (enough : names.length < fuel) :
    (makeDirectoriesWithin fuel files (ofComponents isAbsolute names)).2 = .ok () := by
  induction names using List.reverseRecOn generalizing fuel with
  | nil =>
      obtain ⟨fuel, rfl⟩ := Nat.exists_eq_succ_of_ne_zero (Nat.ne_of_gt enough)
      rw [makeDirectoriesWithin_nil files]
  | append_singleton front last ih =>
      obtain ⟨fuel, rfl⟩ := Nat.exists_eq_succ_of_ne_zero (Nat.ne_of_gt (Nat.zero_lt_of_lt enough))
      have usable := usable (by simp)
      have frontSpelled : AreComponents isAbsolute front := by simpa using spelled.dropLast
      have frontUsable := isUsable_front spelled usable
      have frontShort : ∀ name ∈ front, name.length ≤ longestName :=
        fun name member => short name (List.mem_append_left _ member)
      have lastShort : last.length ≤ longestName := short last (by simp)
      have enoughFront : front.length < fuel := by simpa using enough
      simp only [passed_append, passed, List.forall_mem_append, List.forall_mem_singleton] at noFile
      obtain ⟨frontNoFile, lastNoFile⟩ := noFile
      have roomIn {current : FileSystem} {place : Place}
          (walked : current.walk [] front = .ok place)
          (noFile : ∀ number, current.node? (enter (resolve [] front) last) ≠ some (.file number)) :=
        makeDirectory_or_isDirectory spelled usable walked lastShort
          (((walk_eq_ok_iff current.node?_root).1 walked).1 ▸ noFile)
      rw [makeDirectoriesWithin_concat spelled]
      split
      · rfl
      -- What is missing around it is made first; another fault could only come from something there.
      · have made := ih frontSpelled frontUsable frontShort frontNoFile enoughFront
        have walked :=
          (makeDirectoriesWithin_eq_ok_iff files frontSpelled frontUsable enoughFront).1 made
        have adds := addsDirectories_of_makeDirectoriesWithin files frontSpelled fuel
        split
        · next fails => simp [fails] at made
        · next around ready =>
          rw [ready] at walked adds
          obtain ⟨place, walked⟩ := walked
          have stillNoFile number :
              around.node? (enter (resolve [] front) last) ≠ some (.file number) := by
            intro isFile
            rcases adds.node (enter (resolve [] front) last) id with same | ⟨-, isDirectory, -⟩
            · exact lastNoFile number (same ▸ isFile)
            · rw [isFile] at isDirectory
              cases isDirectory
          obtain ⟨ensured, ensures⟩ := exists_ensureDirectory (roomIn walked stillNoFile)
          rw [ensures]
      · next fault notMissing fails =>
        cases walked : files.walk [] front with
        | ok place =>
            rcases roomIn walked lastNoFile with ⟨made, makes⟩ | isDirectory
            · rw [makes] at fails
              cases fails
            · rw [if_pos isDirectory]
        | error missing =>
            have isNotFound := walk_eq_notFound files.node?_root frontShort frontNoFile walked
            have leads := locate_of_isUsable files usable
            rw [segments_ofComponents spelled, follow_concat, walked, isNotFound] at leads
            rw [makeDirectory_of_locate_error leads] at fails
            exact absurd (Except.error.inj fails).symm notMissing

end AllDirectories

end FileSystem

end PositionSync
