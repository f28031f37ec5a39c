/-!
# Finite maps kept in key order

A map is the list of its entries, strictly ascending by key. Two maps with the same entries are
therefore equal as values, and every listing of a map is its canonical one.
-/

namespace PositionSync

/-- A finite map from `κ` to `ν`: its entries, strictly ascending by key. -/
structure SortedMap (κ ν : Type) [Ord κ] where
  entries : List (κ × ν)
  ascending : entries.Pairwise fun first second => compare first.1 second.1 = .lt

namespace SortedMap

variable {κ ν : Type} [Ord κ]

theorem ext {first second : SortedMap κ ν} (equal : first.entries = second.entries) :
    first = second := by
  cases first
  cases second
  cases equal
  rfl

instance [DecidableEq κ] [DecidableEq ν] : DecidableEq (SortedMap κ ν) := fun first second =>
  if equal : first.entries = second.entries then .isTrue (ext equal)
  else .isFalse fun same => equal (congrArg entries same)

def empty : SortedMap κ ν := ⟨[], .nil⟩

instance : Inhabited (SortedMap κ ν) := ⟨empty⟩

def toList (map : SortedMap κ ν) : List (κ × ν) := map.entries

def keys (map : SortedMap κ ν) : List κ := map.entries.map Prod.fst

def size (map : SortedMap κ ν) : Nat := map.entries.length

def isEmpty (map : SortedMap κ ν) : Bool := map.entries.isEmpty

/-- The value of the entry with this key in a list of entries. -/
def lookup (key : κ) : List (κ × ν) → Option ν
  | [] => none
  | entry :: rest => if compare key entry.1 = .eq then some entry.2 else lookup key rest

/-- The value stored under a key. -/
def get? (map : SortedMap κ ν) (key : κ) : Option ν := lookup key map.entries

def contains (map : SortedMap κ ν) (key : κ) : Bool := (map.get? key).isSome

/-- Put an entry at its place in an ascending list, over any entry with the same key. -/
def place (key : κ) (value : ν) : List (κ × ν) → List (κ × ν)
  | [] => [(key, value)]
  | entry :: rest =>
    match compare key entry.1 with
    | .lt => (key, value) :: entry :: rest
    | .eq => (key, value) :: rest
    | .gt => entry :: place key value rest

theorem mem_place {key : κ} {value : ν} {list : List (κ × ν)} {entry : κ × ν}
    (member : entry ∈ place key value list) : entry = (key, value) ∨ entry ∈ list := by
  induction list with
  | nil => simp_all [place]
  | cons head rest ih =>
    rw [place] at member
    split at member
    · simpa using member
    · rcases List.mem_cons.1 member with same | later
      · exact .inl same
      · exact .inr (List.mem_cons_of_mem _ later)
    · rcases List.mem_cons.1 member with same | later
      · exact .inr (same ▸ List.mem_cons_self)
      · exact (ih later).imp_right (List.mem_cons_of_mem _)

theorem ascending_place [Std.TransOrd κ] [Std.LawfulEqOrd κ] (key : κ) (value : ν)
    (list : List (κ × ν))
    (ascending : list.Pairwise fun first second => compare first.1 second.1 = .lt) :
    (place key value list).Pairwise fun first second => compare first.1 second.1 = .lt := by
  induction list with
  | nil => simp [place]
  | cons head rest ih =>
    obtain ⟨below, restAscending⟩ := List.pairwise_cons.1 ascending
    rw [place]
    split
    · next less =>
      refine List.pairwise_cons.2 ⟨fun entry member => ?_, ascending⟩
      rcases List.mem_cons.1 member with same | later
      · exact same ▸ less
      · exact Std.TransCmp.lt_trans less (below entry later)
    · next same =>
      have equal : key = head.1 := Std.LawfulEqCmp.eq_of_compare same
      exact List.pairwise_cons.2 ⟨fun entry member => equal ▸ below entry member, restAscending⟩
    · next greater =>
      refine List.pairwise_cons.2 ⟨fun entry member => ?_, ih restAscending⟩
      rcases mem_place member with same | later
      · exact same ▸ Std.OrientedCmp.lt_of_gt greater
      · exact below entry later

/-- Keep the entries of some keys only. -/
def filter (map : SortedMap κ ν) (keep : κ → Bool) : SortedMap κ ν :=
  ⟨map.entries.filter fun entry => keep entry.1, map.ascending.filter _⟩

/-- Leave out the entry with this key. -/
def erase (map : SortedMap κ ν) (key : κ) : SortedMap κ ν :=
  map.filter fun other => compare key other != .eq

variable [Std.LawfulEqOrd κ]

theorem lookup_filter (keep : κ → Bool) (key : κ) (list : List (κ × ν)) :
    lookup key (list.filter fun entry => keep entry.1) =
      if keep key then lookup key list else none := by
  induction list with
  | nil => simp [lookup]
  | cons head rest ih =>
    by_cases found : compare key head.1 = .eq
    · have equal : key = head.1 := Std.LawfulEqCmp.eq_of_compare found
      subst equal
      by_cases kept : keep head.1 <;> simp_all [lookup]
    · by_cases kept : keep head.1 <;> simp [lookup, kept, found, ih]

theorem get?_filter (map : SortedMap κ ν) (keep : κ → Bool) (key : κ) :
    (map.filter keep).get? key = if keep key then map.get? key else none :=
  lookup_filter keep key map.entries

/-- A removed key has no value, and other keys keep theirs. -/
theorem get?_erase (map : SortedMap κ ν) (key other : κ) :
    (map.erase key).get? other = if compare other key = .eq then none else map.get? other := by
  rw [erase, get?_filter]
  by_cases same : other = key
  · simp [same, Std.ReflOrd.compare_self]
  · have differs (first second : κ) (apart : first ≠ second) : compare first second ≠ .eq :=
      fun equal => apart (Std.LawfulEqOrd.eq_of_compare equal)
    simp [differs other key same, differs key other (Ne.symm same)]

@[simp]
theorem get?_erase_self (map : SortedMap κ ν) (key : κ) : (map.erase key).get? key = none := by
  rw [get?_erase, if_pos Std.ReflOrd.compare_self]

theorem get?_erase_of_ne (map : SortedMap κ ν) {key other : κ} (differs : other ≠ key) :
    (map.erase key).get? other = map.get? other := by
  rw [get?_erase, if_neg fun same => differs (Std.LawfulEqOrd.eq_of_compare same)]

variable [Std.TransOrd κ]

/-- Store a value under a key; a value already there is replaced. -/
def insert (map : SortedMap κ ν) (key : κ) (value : ν) : SortedMap κ ν :=
  ⟨place key value map.entries, ascending_place key value map.entries map.ascending⟩

/-- Store entries one after the other, so that a later entry wins over an earlier one. -/
def insertAll (map : SortedMap κ ν) (added : List (κ × ν)) : SortedMap κ ν :=
  added.foldl (fun current entry => current.insert entry.1 entry.2) map

/-- The map of a list of entries, of which a later one wins over an earlier one. -/
def ofList (list : List (κ × ν)) : SortedMap κ ν := empty.insertAll list

theorem lookup_place (key other : κ) (value : ν) (list : List (κ × ν)) :
    lookup other (place key value list) =
      if compare other key = .eq then some value else lookup other list := by
  induction list with
  | nil => simp [place, lookup]
  | cons head rest ih =>
    rw [place]
    split
    · simp [lookup]
    · next same =>
      have equal : key = head.1 := Std.LawfulEqCmp.eq_of_compare same
      subst equal
      by_cases found : compare other head.1 = .eq <;> simp [lookup, found]
    · next greater =>
      by_cases found : compare other head.1 = .eq
      · have equal : other = head.1 := Std.LawfulEqCmp.eq_of_compare found
        subst equal
        have differs : compare head.1 key ≠ .eq := by
          rw [Std.OrientedCmp.lt_of_gt greater]
          decide
        simp [lookup, differs]
      · simp [lookup, found, ih]

/-- A stored value is read back, and other keys keep theirs. -/
theorem get?_insert (map : SortedMap κ ν) (key other : κ) (value : ν) :
    (map.insert key value).get? other =
      if compare other key = .eq then some value else map.get? other :=
  lookup_place key other value map.entries

@[simp]
theorem get?_insert_self (map : SortedMap κ ν) (key : κ) (value : ν) :
    (map.insert key value).get? key = some value := by
  rw [get?_insert, if_pos Std.ReflOrd.compare_self]

theorem get?_insert_of_ne (map : SortedMap κ ν) {key other : κ} (value : ν)
    (differs : other ≠ key) : (map.insert key value).get? other = map.get? other := by
  rw [get?_insert, if_neg fun same => differs (Std.LawfulEqOrd.eq_of_compare same)]

end SortedMap

end PositionSync
