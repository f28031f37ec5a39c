import PositionSync.Proofs.Files.Path
import PositionSync.Proofs.Files.System

/-!
# Walks through trees

Following a path is walking from directory to directory up to its last name, so a path leads to its place
if there are directories all along its way.
-/

namespace PositionSync

open PositionSync.Path

namespace FileSystem

/-- Go along names that all lead to directories. -/
def walk (files : FileSystem) : Place → List Name → Except FileFault Place
  | here, [] => .ok here
  | here, name :: rest =>
    if name = currentName then files.walk here rest
    else if name = parentName then files.walk here.dropLast rest
    else if longestName < name.length then .error .nameTooLong
    else match files.node? (here ++ [name]) with
      | some .directory => files.walk (here ++ [name]) rest
      | some (.file _) => .error .notDirectory
      | none => .error .notFound

variable {files : FileSystem}

/-- Following names is walking along all but the last of them. -/
theorem follow_concat (onlyDirectory : Bool) (here : Place) (front : List Name) (last : Name) :
    files.follow onlyDirectory here (front ++ [last]) =
      (files.walk here front).bind fun place => files.follow onlyDirectory place [last] := by
  induction front generalizing here with
  | nil => rfl
  | cons name rest ih =>
      rw [List.cons_append, follow, walk]
      split
      · exact ih here
      split
      · exact ih here.dropLast
      split
      · rfl
      rw [if_neg (by simp)]
      cases files.node? (here ++ [name]) with
      | none => rfl
      | some node =>
          cases node with
          | directory => exact ih (here ++ [name])
          | file number => rfl

theorem walk_filter (here : Place) (names : List Name) :
    files.walk here (names.filter (· ≠ currentName)) = files.walk here names := by
  induction names generalizing here with
  | nil => rfl
  | cons name rest ih =>
      by_cases current : name = currentName
      · simp [current, walk, ← ih]
      · rw [List.filter_cons_of_pos (by simpa using current), walk, walk]
        simp only [ih]

/-- A walk succeeds exactly if there are directories all along it. -/
theorem walk_eq_ok_iff {here : Place} {names : List Name} {place : Place}
    (isDirectory : files.node? here = some .directory) :
    files.walk here names = .ok place ↔
      place = resolve here names ∧ (∀ name ∈ names, name.length ≤ longestName) ∧
        ∀ between ∈ passed here names, files.node? between = some .directory := by
  induction names generalizing here with
  | nil => simp [walk, resolve, passed, eq_comm]
  | cons name rest ih =>
      have resolved : resolve here (name :: rest) = resolve (enter here name) rest := rfl
      rw [walk, resolved, passed, List.forall_mem_cons, List.forall_mem_cons]
      by_cases current : name = currentName
      · have stays : enter here name = here := if_pos current
        have short : name.length ≤ longestName := by rw [current]; decide
        rw [if_pos current, ih isDirectory, stays]
        simp [short, isDirectory]
      rw [if_neg current]
      by_cases parent : name = parentName
      · have leaves : enter here name = here.dropLast := by rw [enter, if_neg current, if_pos parent]
        have short : name.length ≤ longestName := by rw [parent]; decide
        have around := node?_dropLast isDirectory
        rw [if_pos parent, ih around, leaves]
        simp [short, around]
      have enters := enter_of_isProper here ⟨current, parent⟩
      rw [if_neg parent, enters]
      by_cases long : longestName < name.length
      · rw [if_pos long]
        simp [Nat.not_le.2 long]
      rw [if_neg long]
      cases found : files.node? (here ++ [name]) with
      | none => simp
      | some node =>
          cases node with
          | file number => simp
          | directory => simp [ih found, Nat.not_lt.1 long]

theorem walk_append (here : Place) (front back : List Name) :
    files.walk here (front ++ back) = (files.walk here front).bind (files.walk · back) := by
  induction front generalizing here with
  | nil => rfl
  | cons name rest ih =>
      rw [List.cons_append, walk, walk]
      split
      · exact ih here
      split
      · exact ih here.dropLast
      split
      · rfl
      cases files.node? (here ++ [name]) with
      | none => rfl
      | some node =>
          cases node with
          | directory => exact ih (here ++ [name])
          | file number => rfl

/-- Names that lead somewhere have been walked, but for a proper name at their end. -/
theorem follow_cases {onlyDirectory : Bool} {here : Place} {names : List Name} {target : Target}
    (leads : files.follow onlyDirectory here names = .ok target) :
    target.onlyDirectory = onlyDirectory ∧
      ((target.name = none ∧ files.walk here names = .ok target.directory) ∨
        ∃ front last, names = front ++ [last] ∧ IsProper last ∧ last.length ≤ longestName ∧
          target.name = some last ∧ files.walk here front = .ok target.directory) := by
  rcases names.eq_nil_or_concat' with rfl | ⟨front, last, rfl⟩
  · obtain rfl := Except.ok.inj leads
    exact ⟨rfl, .inl ⟨rfl, rfl⟩⟩
  rw [follow_concat] at leads
  cases walked : files.walk here front with
  | error fault => simp [walked, Except.bind] at leads
  | ok place =>
      simp only [walked, Except.bind, follow] at leads
      split at leads
      · next current =>
        obtain rfl := Except.ok.inj leads
        refine ⟨rfl, .inl ⟨rfl, ?_⟩⟩
        simp [walk_append, walked, Except.bind, walk, current]
      split at leads
      · next parent =>
        obtain rfl := Except.ok.inj leads
        refine ⟨rfl, .inl ⟨rfl, ?_⟩⟩
        simp [walk_append, walked, Except.bind, walk, parent]
      split at leads
      · cases leads
      next notCurrent notParent short =>
      obtain rfl := Except.ok.inj leads
      exact ⟨rfl, .inr ⟨front, last, rfl, ⟨notCurrent, notParent⟩, Nat.not_lt.1 short, rfl, walked⟩⟩

theorem follow_of_isProper {onlyDirectory : Bool} {here place : Place} {front : List Name}
    {last : Name} (walked : files.walk here front = .ok place) (proper : IsProper last)
    (short : last.length ≤ longestName) :
    files.follow onlyDirectory here (front ++ [last]) = .ok ⟨place, some last, onlyDirectory⟩ := by
  rw [follow_concat, walked]
  simp [Except.bind, follow, proper.1, proper.2, Nat.not_lt.2 short]

/-- What can be walked can be followed. -/
theorem exists_follow_of_walk (onlyDirectory : Bool) {here place : Place} {names : List Name}
    (walked : files.walk here names = .ok place) :
    ∃ target, files.follow onlyDirectory here names = .ok target ∧ target.place = place := by
  rcases names.eq_nil_or_concat' with rfl | ⟨front, last, rfl⟩
  · exact ⟨⟨here, none, onlyDirectory⟩, rfl, Except.ok.inj walked⟩
  rw [walk_append] at walked
  cases before : files.walk here front with
  | error fault => simp [before, Except.bind] at walked
  | ok between =>
      simp only [before, Except.bind, walk] at walked
      rw [follow_concat, before]
      simp only [Except.bind, follow]
      split at walked
      · exact ⟨⟨between, none, onlyDirectory⟩, by simp [*], Except.ok.inj walked⟩
      split at walked
      · exact ⟨⟨between.dropLast, none, onlyDirectory⟩, by simp [*], Except.ok.inj walked⟩
      split at walked
      · cases walked
      split at walked
      · exact ⟨⟨between, some last, onlyDirectory⟩, by simp [*], Except.ok.inj walked⟩
      · cases walked
      · cases walked

end FileSystem

/-- Whether a path can lead anywhere. -/
structure Path.IsUsable (path : Path) : Prop where
  noNul : (0 : UInt8) ∉ path.octets
  nonempty : path.octets ≠ []
  short : path.octets.length < FileSystem.pathLimit

namespace FileSystem

variable {files : FileSystem} {path : Path}

theorem locate_of_isUsable (files : FileSystem) (usable : path.IsUsable) :
    files.locate path = files.follow path.endsWithSlash [] path.segments := by
  unfold locate
  rw [if_neg (by simpa using usable.noNul), if_neg (by simpa [isEmpty] using usable.nonempty),
    if_neg (Nat.not_le.2 usable.short)]

theorem locate_eq_ok_iff {target : Target} :
    files.locate path = .ok target ↔
      path.IsUsable ∧ files.follow path.endsWithSlash [] path.segments = .ok target := by
  constructor
  · intro leads
    unfold locate at leads
    split at leads
    · cases leads
    split at leads
    · cases leads
    split at leads
    · cases leads
    next noNul nonempty short =>
    exact ⟨⟨by simpa using noNul, by simpa [isEmpty] using nonempty, Nat.not_le.1 short⟩, leads⟩
  · rintro ⟨usable, leads⟩
    rw [locate_of_isUsable files usable, leads]

theorem resolve_filter (here : Place) (names : List Name) :
    resolve here (names.filter (· ≠ currentName)) = resolve here names := by
  induction names generalizing here with
  | nil => rfl
  | cons name rest ih =>
      by_cases current : name = currentName
      · rw [List.filter_cons_of_neg (by simpa using current), ih, current]
        rfl
      · rw [List.filter_cons_of_pos (by simpa using current)]
        exact ih (enter here name)

/-- Segments that name the current directory make no difference. -/
theorem components_of_segments (path : Path) :
    path.components.filter (· ≠ currentName) = path.segments.filter (· ≠ currentName) := by
  unfold components
  cases path.segments with
  | nil => rfl
  | cons first rest =>
      by_cases current : first = currentName
      · by_cases absolute : path.isAbsolute <;> simp [current, absolute]
      · simp [current]

theorem resolve_components (here : Place) (path : Path) :
    resolve here path.components = resolve here path.segments := by
  rw [← resolve_filter here path.components, components_of_segments, resolve_filter]

/-- A path leads to its place. -/
theorem place_of_locate {target : Target} (leads : files.locate path = .ok target) :
    target.place = path.place := by
  obtain ⟨-, follows⟩ := locate_eq_ok_iff.1 leads
  rw [Path.place, resolve_components, Target.place]
  rcases (follow_cases follows).2 with
    ⟨unnamed, walked⟩ | ⟨front, last, segments, proper, -, named, walked⟩
  · rw [unnamed]
    exact ((walk_eq_ok_iff files.node?_root).1 walked).1
  · rw [named, segments, resolve_concat, enter_of_isProper _ proper]
    rw [((walk_eq_ok_iff files.node?_root).1 walked).1]

/-- A path that ends with a proper name has this name as its last component. -/
theorem components_concat {front : List Name} {last : Name} (segments : path.segments = front ++ [last])
    (notCurrent : last ≠ currentName) :
    ∃ before, path.components = before ++ [last] ∧
      before.filter (· ≠ currentName) = front.filter (· ≠ currentName) := by
  have ends : ∃ before, path.components = before ++ [last] := by
    unfold components
    rw [segments]
    cases front with
    | nil => exact ⟨[], by simp [notCurrent]⟩
    | cons first more =>
        simp only [List.cons_append, List.filter_append]
        rw [List.filter_cons_of_pos (by simpa using notCurrent), List.filter_nil]
        split
        · exact ⟨_, rfl⟩
        · exact ⟨first :: _, rfl⟩
  obtain ⟨before, components⟩ := ends
  have same := components_of_segments path
  rw [components, segments, List.filter_append, List.filter_append] at same
  exact ⟨before, components, List.append_cancel_right same⟩

/-- Something with a name lies in a directory at the end of the way of its path. -/
theorem components_of_locate {target : Target} {last : Name}
    (leads : files.locate path = .ok target) (named : target.name = some last) :
    ∃ front, path.components = front ++ [last] ∧ IsProper last ∧ last.length ≤ longestName ∧
      files.walk [] front = .ok target.directory := by
  obtain ⟨-, follows⟩ := locate_eq_ok_iff.1 leads
  rcases (follow_cases follows).2 with
    ⟨unnamed, -⟩ | ⟨front, other, segments, proper, short, isNamed, walked⟩
  · rw [unnamed] at named
    cases named
  · obtain rfl : other = last := Option.some.inj (isNamed.symm.trans named)
    obtain ⟨before, components, same⟩ := components_concat segments proper.1
    refine ⟨before, components, proper, short, ?_⟩
    rw [← walk_filter, same, walk_filter, walked]

theorem node?_of_walk {here place : Place} {names : List Name}
    (isDirectory : files.node? here = some .directory) (walked : files.walk here names = .ok place) :
    files.node? place = some .directory := by
  obtain ⟨rfl, -, directories⟩ := (walk_eq_ok_iff isDirectory).1 walked
  by_cases alone : names = []
  · rwa [alone]
  · exact directories _ (resolve_mem_passed here alone)

/-- A path leads to a directory exactly if it can be walked to its end. -/
theorem lookup_eq_directory_iff (usable : path.IsUsable) :
    files.lookup path = .ok .directory ↔ ∃ place, files.walk [] path.segments = .ok place := by
  constructor
  · intro found
    unfold lookup at found
    cases leads : files.locate path with
    | error fault => simp [leads, bind, Except.bind] at found
    | ok target =>
        rcases (follow_cases (locate_eq_ok_iff.1 leads).2).2 with
          ⟨-, walked⟩ | ⟨front, last, segments, proper, short, named, walked⟩
        · exact ⟨_, walked⟩
        · have place : target.place = target.directory ++ [last] := by rw [Target.place, named]
          refine ⟨target.directory ++ [last], ?_⟩
          simp only [leads, bind, Except.bind, place] at found
          split at found
          · cases found
          · split at found <;> cases found
          · next isDirectory =>
            rw [segments, walk_append, walked]
            simp [Except.bind, walk, proper.1, proper.2, Nat.not_lt.2 short, isDirectory]
  · rintro ⟨place, walked⟩
    obtain ⟨target, follows, same⟩ := exists_follow_of_walk path.endsWithSlash walked
    have leads : files.locate path = .ok target := locate_eq_ok_iff.2 ⟨usable, follows⟩
    have isDirectory := node?_of_walk files.node?_root walked
    simp [lookup, leads, bind, Except.bind, same, isDirectory, pure, Except.pure]

theorem isDirectory_iff : files.isDirectory path = true ↔ files.lookup path = .ok .directory := by
  unfold isDirectory
  split <;> simp_all

end FileSystem

/-- Whether a path can be that of a file. -/
structure Path.MayBeFile (path : Path) : Prop where
  usable : path.IsUsable
  named : ∃ front last, path.segments = front ++ [last] ∧ IsProper last
  noSlash : path.endsWithSlash = false
  short : ∀ name ∈ path.components, name.length ≤ FileSystem.longestName

namespace FileSystem

variable {files : FileSystem} {path : Path}

theorem exists_locate (mayBeFile : path.MayBeFile) {around : Place}
    (walked : files.walk [] path.components.dropLast = .ok around) :
    ∃ target, files.locate path = .ok target ∧ target.name ≠ none ∧ target.onlyDirectory = false := by
  obtain ⟨front, last, segments, proper⟩ := mayBeFile.named
  obtain ⟨before, components, same⟩ := components_concat segments proper.1
  have short := mayBeFile.short last (by simp [components])
  rw [components, List.dropLast_concat, ← walk_filter, same, walk_filter] at walked
  refine ⟨⟨around, some last, path.endsWithSlash⟩, ?_, by simp, mayBeFile.noSlash⟩
  rw [locate_of_isUsable files mayBeFile.usable, segments, follow_of_isProper walked proper short]

theorem mayBeFile_of_locate {target : Target} (leads : files.locate path = .ok target)
    (named : target.name ≠ none) (mayBeFile : target.onlyDirectory = false) :
    path.MayBeFile ∧ files.walk [] path.components.dropLast = .ok target.directory := by
  obtain ⟨last, isLast⟩ := Option.ne_none_iff_exists'.1 named
  obtain ⟨front, components, proper, short, walked⟩ := components_of_locate leads isLast
  obtain ⟨usable, follows⟩ := locate_eq_ok_iff.1 leads
  obtain ⟨sameEnd, unnamed | ⟨before, other, segments, otherProper, -⟩⟩ := follow_cases follows
  · exact absurd unnamed.1 named
  have frontShort := ((walk_eq_ok_iff files.node?_root).1 walked).2.1
  refine ⟨⟨usable, ⟨before, other, segments, otherProper⟩, sameEnd ▸ mayBeFile, ?_⟩, ?_⟩
  · simpa [components, or_imp, forall_and] using And.intro frontShort short
  · rw [components, List.dropLast_concat, walked]

end FileSystem

end PositionSync
