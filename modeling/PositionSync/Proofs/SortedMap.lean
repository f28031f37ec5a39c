import PositionSync.SortedMap

/-!
# Maps are what their look-ups say

Two maps are equal as soon as every look-up answers the same in both.  So an operation is known by the
look-ups in its result: storing the entries of one map in another gives precedence to the former, and
storing them in the empty map gives the map back.
-/

namespace PositionSync.SortedMap

variable {κ ν : Type} [Ord κ]

@[simp]
theorem get?_empty (key : κ) : (empty : SortedMap κ ν).get? key = none :=
  rfl

theorem lookup_eq_none_of_below {key : κ} {list : List (κ × ν)}
    (below : ∀ entry ∈ list, compare key entry.1 = .lt) : lookup key list = none := by
  induction list with
  | nil => rfl
  | cons head rest ih =>
      have differs : compare key head.1 ≠ .eq := by
        rw [below head List.mem_cons_self]
        decide
      rw [lookup, if_neg differs]
      exact ih fun entry member => below entry (List.mem_cons_of_mem _ member)

variable [Std.LawfulEqOrd κ]

theorem lookup_head (head : κ × ν) (rest : List (κ × ν)) :
    lookup head.1 (head :: rest) = some head.2 := by
  rw [lookup, if_pos Std.ReflOrd.compare_self]

theorem mem_of_lookup_eq_some {key : κ} {value : ν} {list : List (κ × ν)}
    (found : lookup key list = some value) : (key, value) ∈ list := by
  induction list with
  | nil => simp [lookup] at found
  | cons head rest ih =>
      rw [lookup] at found
      split at found
      · next isHead =>
        rw [Std.LawfulEqOrd.eq_of_compare isHead, ← Option.some.inj found]
        exact List.mem_cons_self
      · exact List.mem_cons_of_mem _ (ih found)

/-- The keys of a map are different from each other. -/
theorem nodup_keys (map : SortedMap κ ν) : map.keys.Nodup := by
  refine List.pairwise_map.2 (map.ascending.imp fun {one other} less same => ?_)
  rw [same, Std.ReflOrd.compare_self] at less
  nomatch less

theorem lookup_eq_none_of_notMem {key : κ} {list : List (κ × ν)}
    (absent : key ∉ list.map Prod.fst) : lookup key list = none := by
  induction list with
  | nil => rfl
  | cons head rest ih =>
      rw [List.map_cons, List.mem_cons, not_or] at absent
      have differs : compare key head.1 ≠ .eq := fun same =>
        absent.1 (Std.LawfulEqOrd.eq_of_compare same)
      rw [lookup, if_neg differs]
      exact ih absent.2

theorem lookup_eq_some_of_mem {list : List (κ × ν)} {entry : κ × ν}
    (distinct : (list.map Prod.fst).Nodup) (member : entry ∈ list) :
    lookup entry.1 list = some entry.2 := by
  induction list with
  | nil => simp at member
  | cons head rest ih =>
      obtain ⟨notLater, restDistinct⟩ := List.nodup_cons.1 distinct
      rcases List.mem_cons.1 member with rfl | later
      · exact lookup_head entry rest
      · have differs : compare entry.1 head.1 ≠ .eq := by
          intro same
          have isHead : entry.1 = head.1 := Std.LawfulEqOrd.eq_of_compare same
          exact notLater (isHead ▸ List.mem_map_of_mem later)
        rw [lookup, if_neg differs]
        exact ih restDistinct later

/-- The entries of a map are what it answers. -/
theorem mem_toList_iff {map : SortedMap κ ν} {key : κ} {value : ν} :
    (key, value) ∈ map.toList ↔ map.get? key = some value :=
  ⟨fun member => lookup_eq_some_of_mem map.nodup_keys member, mem_of_lookup_eq_some⟩

theorem mem_keys_iff {map : SortedMap κ ν} {key : κ} :
    key ∈ map.keys ↔ map.contains key = true := by
  rw [contains, Option.isSome_iff_exists]
  constructor
  · intro member
    obtain ⟨⟨_, value⟩, listed, rfl⟩ := List.mem_map.1 member
    exact ⟨value, mem_toList_iff.1 listed⟩
  · rintro ⟨value, found⟩
    exact List.mem_map.2 ⟨(key, value), mem_toList_iff.2 found, rfl⟩

/-- The entries of a map answer as the map does, in whatever order they are. -/
theorem lookup_of_perm {map : SortedMap κ ν} {listing : List (κ × ν)}
    (order : listing.Perm map.toList) (key : κ) : lookup key listing = map.get? key := by
  cases held : map.get? key with
  | none =>
      refine lookup_eq_none_of_notMem fun member => ?_
      obtain ⟨⟨_, value⟩, listed, rfl⟩ := List.mem_map.1 member
      rw [mem_toList_iff.1 (order.mem_iff.1 listed)] at held
      nomatch held
  | some value =>
      have distinct : (listing.map Prod.fst).Nodup :=
        (order.map Prod.fst).nodup_iff.2 map.nodup_keys
      have listed : (key, value) ∈ listing := order.mem_iff.2 (mem_toList_iff.2 held)
      exact lookup_eq_some_of_mem distinct listed

variable [Std.TransOrd κ]

private theorem entries_ext {first second : List (κ × ν)}
    (firstAscending : first.Pairwise fun one other => compare one.1 other.1 = .lt)
    (secondAscending : second.Pairwise fun one other => compare one.1 other.1 = .lt)
    (same : ∀ key, lookup key first = lookup key second) : first = second := by
  induction first generalizing second with
  | nil =>
      cases second with
      | nil => rfl
      | cons head rest =>
          have found := same head.1
          rw [lookup_head] at found
          simp [lookup] at found
  | cons head rest ih =>
      cases second with
      | nil =>
          have found := same head.1
          rw [lookup_head] at found
          simp [lookup] at found
      | cons other others =>
          obtain ⟨headBelow, restAscending⟩ := List.pairwise_cons.1 firstAscending
          obtain ⟨otherBelow, othersAscending⟩ := List.pairwise_cons.1 secondAscending
          have sameKey : head.1 = other.1 := by
            cases order : compare head.1 other.1 with
            | eq => exact Std.LawfulEqOrd.eq_of_compare order
            | lt =>
                have missing : lookup head.1 (other :: others) = none :=
                  lookup_eq_none_of_below fun entry member => by
                    rcases List.mem_cons.1 member with rfl | later
                    · exact order
                    · exact Std.TransCmp.lt_trans order (otherBelow entry later)
                have found := same head.1
                rw [lookup_head, missing] at found
                simp at found
            | gt =>
                have reversed : compare other.1 head.1 = .lt := Std.OrientedCmp.lt_of_gt order
                have missing : lookup other.1 (head :: rest) = none :=
                  lookup_eq_none_of_below fun entry member => by
                    rcases List.mem_cons.1 member with rfl | later
                    · exact reversed
                    · exact Std.TransCmp.lt_trans reversed (headBelow entry later)
                have found := same other.1
                rw [lookup_head, missing] at found
                simp at found
          have sameValue : head.2 = other.2 := by
            have found := same head.1
            rw [lookup_head, sameKey, lookup_head] at found
            exact Option.some.inj found
          have sameRest : rest = others := by
            apply ih restAscending othersAscending
            intro key
            by_cases isHead : compare key head.1 = .eq
            · have equal : key = head.1 := Std.LawfulEqOrd.eq_of_compare isHead
              rw [equal, lookup_eq_none_of_below headBelow, sameKey,
                lookup_eq_none_of_below otherBelow]
            · have found := same key
              rwa [lookup, if_neg isHead, lookup, if_neg (sameKey ▸ isHead)] at found
          rw [sameRest, Prod.ext sameKey sameValue]

/-- Maps in which every look-up answers the same are equal. -/
theorem ext_get? {first second : SortedMap κ ν} (same : ∀ key, first.get? key = second.get? key) :
    first = second :=
  ext (entries_ext first.ascending second.ascending same)

/-- Entries with different keys take precedence when they are stored. -/
theorem get?_insertAll (map : SortedMap κ ν) (key : κ) {added : List (κ × ν)}
    (distinct : (added.map Prod.fst).Nodup) :
    (map.insertAll added).get? key = (lookup key added).or (map.get? key) := by
  induction added generalizing map with
  | nil => rfl
  | cons head rest ih =>
      obtain ⟨notLater, restDistinct⟩ := List.nodup_cons.1 distinct
      have stored := ih (map.insert head.1 head.2) restDistinct
      rw [get?_insert] at stored
      change ((map.insert head.1 head.2).insertAll rest).get? key = _
      rw [stored, lookup]
      by_cases isHead : compare key head.1 = .eq
      · have equal : key = head.1 := Std.LawfulEqOrd.eq_of_compare isHead
        rw [if_pos isHead, if_pos isHead, equal, lookup_eq_none_of_notMem notLater]
        rfl
      · rw [if_neg isHead, if_neg isHead]

theorem get?_insertAll_of_perm (map : SortedMap κ ν) {added : SortedMap κ ν}
    {listing : List (κ × ν)} (order : listing.Perm added.toList) (key : κ) :
    (map.insertAll listing).get? key = (added.get? key).or (map.get? key) := by
  have distinct : (listing.map Prod.fst).Nodup :=
    (order.map Prod.fst).nodup_iff.2 added.nodup_keys
  rw [get?_insertAll map key distinct, lookup_of_perm order]

theorem get?_insertAll_toList (map added : SortedMap κ ν) (key : κ) :
    (map.insertAll added.toList).get? key = (added.get? key).or (map.get? key) :=
  get?_insertAll_of_perm map .rfl key

/-- A map is made from its own entries, in whatever order they are. -/
theorem ofList_of_perm {map : SortedMap κ ν} {listing : List (κ × ν)}
    (order : listing.Perm map.toList) : ofList listing = map := by
  apply ext_get?
  intro key
  rw [ofList, get?_insertAll_of_perm empty order, get?_empty, Option.or_none]

theorem ofList_toList (map : SortedMap κ ν) : ofList map.toList = map :=
  ofList_of_perm .rfl

section Last

variable [DecidableEq κ]

/-- A map that holds what the last entry for each key says. -/
def HoldsLast (map : SortedMap κ ν) (listing : List (κ × ν)) : Prop :=
  ∀ key, map.get? key = (listing.reverse.find? fun entry => entry.1 = key).map Prod.snd

theorem get?_insertAll_eq_last (map : SortedMap κ ν) (listing : List (κ × ν)) (key : κ) :
    (map.insertAll listing).get? key =
      ((listing.reverse.find? fun entry => entry.1 = key).map Prod.snd).or (map.get? key) := by
  induction listing generalizing map with
  | nil => rfl
  | cons head rest ih =>
      have stored := ih (map.insert head.1 head.2)
      change ((map.insert head.1 head.2).insertAll rest).get? key = _
      rw [stored, List.reverse_cons, List.find?_append]
      cases rest.reverse.find? fun entry => entry.1 = key with
      | some entry => rfl
      | none =>
          by_cases isHead : head.1 = key
          · simp [isHead]
          · rw [get?_insert_of_ne map head.2 (Ne.symm isHead)]
            simp [isHead]

/-- Of a repeated key the last value counts. -/
theorem holdsLast_iff {map : SortedMap κ ν} {listing : List (κ × ν)} :
    map.HoldsLast listing ↔ map = ofList listing := by
  have holds (key : κ) : (ofList listing).get? key =
      (listing.reverse.find? fun entry => entry.1 = key).map Prod.snd := by
    rw [ofList, get?_insertAll_eq_last, get?_empty, Option.or_none]
  constructor
  · intro holdsLast
    exact ext_get? fun key => (holdsLast key).trans (holds key).symm
  · rintro rfl
    exact holds

end Last

end PositionSync.SortedMap
