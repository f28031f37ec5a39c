import Mathlib.Data.List.Basic
import PositionSync.Files.System

/-!
# Where paths lead

Names lead from place to place, and it depends on the names alone to which. So a path has a place,
whether or not anything is there, and a way: the places through which it comes there. A path that is
written from components has these components again.
-/

namespace PositionSync.Path

section Slashes

theorem splitSlashes_ne_nil (octets : List UInt8) : splitSlashes octets ≠ [] := by
  cases octets with
  | nil => simp [splitSlashes]
  | cons octet rest =>
      rw [splitSlashes]
      split
      · simp
      · split <;> simp

theorem splitSlashes_append (front back : List UInt8) :
    splitSlashes (front ++ slash :: back) = splitSlashes front ++ splitSlashes back := by
  induction front with
  | nil => simp [splitSlashes]
  | cons octet rest ih =>
      rw [List.cons_append, splitSlashes, splitSlashes, ih]
      split
      · rfl
      · cases names : splitSlashes rest with
        | nil => exact absurd names (splitSlashes_ne_nil rest)
        | cons name others => rfl

theorem splitSlashes_of_notMem {name : Name} (noSlash : slash ∉ name) :
    splitSlashes name = [name] := by
  induction name with
  | nil => rfl
  | cons octet rest ih =>
      rw [List.mem_cons, not_or] at noSlash
      rw [splitSlashes, if_neg (Ne.symm noSlash.1), ih noSlash.2]

theorem slash_notMem_of_mem_splitSlashes {octets : List UInt8} {name : Name}
    (member : name ∈ splitSlashes octets) : slash ∉ name := by
  induction octets generalizing name with
  | nil => simp_all [splitSlashes]
  | cons octet rest ih =>
      rw [splitSlashes] at member
      split at member
      · rcases List.mem_cons.1 member with rfl | later
        · exact List.not_mem_nil
        · exact ih later
      · next notSlash =>
        cases names : splitSlashes rest with
        | nil => exact absurd names (splitSlashes_ne_nil rest)
        | cons first others =>
            rw [names] at member ih
            rcases List.mem_cons.1 member with rfl | later
            · rw [List.mem_cons, not_or]
              exact ⟨Ne.symm notSlash, ih List.mem_cons_self⟩
            · exact ih (List.mem_cons_of_mem _ later)

theorem splitSlashes_joinNames {names : List Name} (nonempty : names ≠ [])
    (noSlash : ∀ name ∈ names, slash ∉ name) : splitSlashes (joinNames names) = names := by
  induction names with
  | nil => exact absurd rfl nonempty
  | cons name rest ih =>
      have first := splitSlashes_of_notMem (noSlash name List.mem_cons_self)
      cases rest with
      | nil => exact first
      | cons next others =>
          have later := ih (by simp) fun other member => noSlash other (List.mem_cons_of_mem _ member)
          rw [joinNames, splitSlashes_append, first, later]
          rfl

theorem joinNames_concat {names : List Name} (nonempty : names ≠ []) (last : Name) :
    joinNames (names ++ [last]) = joinNames names ++ slash :: last := by
  induction names with
  | nil => exact absurd rfl nonempty
  | cons name rest ih =>
      cases rest with
      | nil => rfl
      | cons next others =>
          change name ++ slash :: joinNames (next :: others ++ [last]) = _
          rw [ih (by simp), joinNames, List.append_assoc, List.cons_append]

theorem joinNames_splitSlashes (octets : List UInt8) : joinNames (splitSlashes octets) = octets := by
  induction octets with
  | nil => rfl
  | cons octet rest ih =>
      rw [splitSlashes]
      cases names : splitSlashes rest with
      | nil => exact absurd names (splitSlashes_ne_nil rest)
      | cons first others =>
          rw [names] at ih
          split
          · next isSlash => rw [joinNames, ih, isSlash, List.nil_append]
          · cases others with
            | nil => exact congrArg (octet :: ·) ih
            | cons other more => exact congrArg (octet :: ·) ih

theorem isSuffix_of_getLast?_splitSlashes {octets : List UInt8} {name : Name}
    (isLast : (splitSlashes octets).getLast? = some name) : name <:+ octets := by
  obtain ⟨front, names⟩ := List.getLast?_eq_some_iff.1 isLast
  rw [← joinNames_splitSlashes octets, names]
  by_cases alone : front = []
  · simp [alone, joinNames]
  · rw [joinNames_concat alone]
    exact (List.suffix_cons _ _).trans (List.suffix_append _ _)

theorem isSuffix_of_segments {path : Path} {front : List Name} {last : Name}
    (segments : path.segments = front ++ [last]) (mayBeFile : path.endsWithSlash = false) :
    last <:+ path.octets := by
  obtain ⟨before, behind, names⟩ :=
    (splitSlashes path.octets).eq_nil_or_concat'.resolve_left (splitSlashes_ne_nil _)
  have octets : joinNames (before ++ [behind]) = path.octets := names ▸ joinNames_splitSlashes _
  rw [Path.segments, names, List.filter_append] at segments
  by_cases nonempty : behind = []
  · subst nonempty
    by_cases alone : before = []
    · simp [alone] at segments
    · rw [joinNames_concat alone] at octets
      simp [endsWithSlash, ← octets] at mayBeFile
  · rw [List.filter_cons_of_pos (by simpa using nonempty), List.filter_nil] at segments
    obtain rfl : behind = last := List.head_eq_of_cons_eq (List.append_inj' segments rfl).2
    simpa using isSuffix_of_getLast?_splitSlashes (by rw [names, List.getLast?_concat])

end Slashes

@[simp]
theorem parentName_ne_currentName : parentName ≠ currentName := by decide

/-- Whether a name is that of something in a directory. -/
def IsProper (name : Name) : Prop := name ≠ currentName ∧ name ≠ parentName

/-- Whether names can stand between slashes as they are, so that the current directory is named only
at the beginning of a relative path. -/
structure AreComponents (isAbsolute : Bool) (names : List Name) : Prop where
  nonempty : ∀ name ∈ names, name ≠ []
  noSlash : ∀ name ∈ names, slash ∉ name
  notCurrent : currentName ∉ if isAbsolute then names else names.tail

theorem mem_segments {path : Path} {name : Name} (member : name ∈ path.segments) :
    name ≠ [] ∧ slash ∉ name := by
  obtain ⟨listed, nonempty⟩ := List.mem_filter.1 member
  exact ⟨by simpa using nonempty, slash_notMem_of_mem_splitSlashes listed⟩

theorem mem_segments_of_mem_components {path : Path} {name : Name}
    (member : name ∈ path.components) : name ∈ path.segments := by
  unfold components at member
  cases names : path.segments with
  | nil => simp [names] at member
  | cons first rest =>
      simp only [names] at member
      split at member
      · exact List.mem_cons_of_mem _ (List.mem_filter.1 member).1
      · rcases List.mem_cons.1 member with same | later
        · exact same ▸ List.mem_cons_self
        · exact List.mem_cons_of_mem _ (List.mem_filter.1 later).1

theorem areComponents_components (path : Path) : AreComponents path.isAbsolute path.components where
  nonempty _ member := (mem_segments (mem_segments_of_mem_components member)).1
  noSlash _ member := (mem_segments (mem_segments_of_mem_components member)).2
  notCurrent := by
    unfold components
    cases path.segments with
    | nil => simp
    | cons first rest =>
        cases absolute : path.isAbsolute with
        | false => simp
        | true =>
            by_cases current : first = currentName
            · simp [current]
            · simp [current, Ne.symm current]

section Components

variable {isAbsolute : Bool} {names : List Name}

theorem AreComponents.dropLast (spelled : AreComponents isAbsolute names) :
    AreComponents isAbsolute names.dropLast where
  nonempty name member := spelled.nonempty name (List.dropLast_subset _ member)
  noSlash name member := spelled.noSlash name (List.dropLast_subset _ member)
  notCurrent := by
    have notCurrent := spelled.notCurrent
    cases isAbsolute with
    | true => exact fun member => notCurrent (List.dropLast_subset _ member)
    | false =>
        rw [if_neg Bool.false_ne_true] at notCurrent ⊢
        rw [List.tail_dropLast]
        exact fun member => notCurrent (List.dropLast_subset _ member)

theorem AreComponents.concat (spelled : AreComponents isAbsolute names) {name : Name}
    (nonempty : name ≠ []) (noSlash : slash ∉ name) (notCurrent : name ≠ currentName) :
    AreComponents isAbsolute (names ++ [name]) where
  nonempty other member := by
    rcases List.mem_append.1 member with before | last
    · exact spelled.nonempty other before
    · rwa [List.mem_singleton.1 last]
  noSlash other member := by
    rcases List.mem_append.1 member with before | last
    · exact spelled.noSlash other before
    · rwa [List.mem_singleton.1 last]
  notCurrent := by
    have before := spelled.notCurrent
    cases isAbsolute with
    | true => simpa [Ne.symm notCurrent] using before
    | false => cases names <;> simp_all [Ne.symm notCurrent]

private theorem splitSlashes_spelled (spelled : AreComponents isAbsolute names) :
    (splitSlashes (joinNames names)).filter (fun name => !name.isEmpty) = names := by
  cases names with
  | nil => rfl
  | cons first rest =>
      rw [splitSlashes_joinNames (by simp) spelled.noSlash, List.filter_eq_self]
      intro name member
      simp [spelled.nonempty name member]

theorem segments_ofComponents (spelled : AreComponents isAbsolute names) :
    (ofComponents isAbsolute names).segments = names := by
  have segments := splitSlashes_spelled spelled
  cases isAbsolute with
  | false => exact segments
  | true => exact segments

theorem isAbsolute_ofComponents (spelled : AreComponents isAbsolute names) :
    (ofComponents isAbsolute names).isAbsolute = isAbsolute := by
  cases isAbsolute with
  | true => rfl
  | false =>
      cases names with
      | nil => rfl
      | cons first rest =>
          have nonempty := spelled.nonempty first List.mem_cons_self
          have noSlash := spelled.noSlash first List.mem_cons_self
          cases first with
          | nil => exact absurd rfl nonempty
          | cons octet more =>
              have differs : octet ≠ slash := fun same => noSlash (same ▸ List.mem_cons_self)
              cases rest <;> simp [Path.isAbsolute, ofComponents, joinNames, differs]

theorem components_ofComponents (spelled : AreComponents isAbsolute names) :
    (ofComponents isAbsolute names).components = names := by
  unfold components
  rw [segments_ofComponents spelled, isAbsolute_ofComponents spelled]
  have notCurrent := spelled.notCurrent
  cases names with
  | nil => rfl
  | cons first rest =>
      have notLater : currentName ∉ rest := by
        cases isAbsolute with
        | false => exact notCurrent
        | true => exact fun later => notCurrent (List.mem_cons_of_mem _ later)
      have kept : rest.filter (· ≠ currentName) = rest := by
        rw [List.filter_eq_self]
        intro name member
        simpa using fun same : name = currentName => notLater (same ▸ member)
      have notFirst : ¬ (first = currentName ∧ isAbsolute = true) := by
        rintro ⟨current, rfl⟩
        exact notCurrent (current ▸ List.mem_cons_self)
      simp only [kept, if_neg notFirst]

end Components

/-- Where a name leads from a place. -/
def enter (here : Place) (name : Name) : Place :=
  if name = currentName then here
  else if name = parentName then here.dropLast
  else here ++ [name]

/-- Where names lead from a place. -/
def resolve (here : Place) (names : List Name) : Place := names.foldl enter here

/-- The places to which names lead from a place, one after the other. -/
def passed : Place → List Name → List Place
  | _, [] => []
  | here, name :: rest => enter here name :: passed (enter here name) rest

/-- The place that a path names. -/
def place (path : Path) : Place := resolve [] path.components

/-- The places that a path goes through before it comes to its own. -/
def way (path : Path) : List Place := passed [] path.components.dropLast

theorem enter_of_isProper (here : Place) {name : Name} (proper : IsProper name) :
    enter here name = here ++ [name] := by
  rw [enter, if_neg proper.1, if_neg proper.2]

theorem resolve_concat (here : Place) (names : List Name) (last : Name) :
    resolve here (names ++ [last]) = enter (resolve here names) last := by
  simp [resolve]

theorem passed_append (here : Place) (front back : List Name) :
    passed here (front ++ back) = passed here front ++ passed (resolve here front) back := by
  induction front generalizing here with
  | nil => rfl
  | cons name rest ih =>
      simp only [List.cons_append, passed, ih]
      rfl

theorem resolve_mem_passed (here : Place) {names : List Name} (nonempty : names ≠ []) :
    resolve here names ∈ passed here names := by
  obtain ⟨front, last, rfl⟩ := names.eq_nil_or_concat'.resolve_left nonempty
  simp [passed_append, resolve_concat, passed]

/-- Names that lead into a place lead through it. -/
theorem mem_passed_of_isPrefix {outer inner here : Place} {names : List Name}
    (notAround : ¬ outer <+: here) (inside : outer <+: inner) (member : inner ∈ passed here names) :
    outer ∈ passed here names := by
  induction names generalizing here with
  | nil => cases member
  | cons name rest ih =>
      by_cases entered : outer <+: enter here name
      · have isEntered : outer = enter here name := by
          unfold enter at entered ⊢
          split at entered
          · exact absurd entered notAround
          split at entered
          · exact absurd (entered.trans (List.dropLast_prefix here)) notAround
          · simp_all [List.prefix_concat_iff]
        rw [isEntered]
        exact List.mem_cons_self
      · rcases List.mem_cons.1 member with rfl | later
        · exact absurd inside entered
        · exact List.mem_cons_of_mem _ (ih entered later)

/-- Whether a path ends with the name of something in a directory. -/
def HasFileName (path : Path) : Prop :=
  ∃ name, path.components.getLast? = some name ∧ IsProper name

end PositionSync.Path
