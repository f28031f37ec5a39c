import PositionSync.Position.Pending
import PositionSync.Proofs.SortedMap

/-!
# What operations do to tables and pending sets

Every operation on a table or on a pending set is described by what can be looked up afterwards.
Merging gives precedence to what is delivered; restricting keeps the positions of some partitions.
-/

namespace PositionSync

namespace PositionTable

/-- Folding an entry in stores it: where it is there already, storing it changes nothing. -/
theorem mergeEntry_fst (state : PositionTable × Bool) (entry : Partition × Offset) :
    (mergeEntry state entry).1 = state.1.insert entry.1 entry.2 := by
  rw [mergeEntry]
  split
  · next same =>
    apply SortedMap.ext_get?
    intro key
    by_cases isEntry : key = entry.1
    · rw [isEntry, SortedMap.get?_insert_self, same]
    · rw [SortedMap.get?_insert_of_ne _ _ isEntry]
  · rfl

theorem merge_fst (table : PositionTable) (incoming : List (Partition × Offset)) :
    (table.merge incoming).1 = table.insertAll incoming := by
  rw [merge, SortedMap.insertAll]
  generalize false = changed
  induction incoming generalizing table changed with
  | nil => rfl
  | cons entry rest ih =>
      rw [List.foldl_cons, List.foldl_cons, ← mergeEntry_fst (table, changed) entry]
      exact ih (mergeEntry (table, changed) entry).1 (mergeEntry (table, changed) entry).2

/-- Entries that are merged change a table if and only if one of them is new to it. -/
theorem merge_snd_iff {table : PositionTable} {incoming : List (Partition × Offset)} :
    (table.merge incoming).2 = true ↔
      ∃ entry ∈ incoming, table.get? entry.1 ≠ some entry.2 := by
  have changesForGood (rest : List (Partition × Offset)) (changed : PositionTable) :
      (rest.foldl mergeEntry (changed, true)).2 = true := by
    induction rest generalizing changed with
    | nil => rfl
    | cons entry rest ih =>
        rw [List.foldl_cons, mergeEntry]
        split
        · exact ih changed
        · exact ih _
  induction incoming with
  | nil => simp [merge]
  | cons entry rest ih =>
      rw [merge, List.foldl_cons, mergeEntry]
      by_cases held : table.get? entry.1 = some entry.2
      · -- The flag is still down and the table is the same, so that the rest decides.
        rw [if_pos held]
        refine ih.trans ?_
        simp [held]
      · rw [if_neg held]
        simp [held, changesForGood]

/-- The order in which a delivered table is gone over does not matter. -/
theorem merge_of_perm (table : PositionTable) {incoming : PositionTable}
    {listing : List (Partition × Offset)} (order : listing.Perm incoming.toList) :
    table.merge listing = table.merge incoming.toList := by
  apply Prod.ext
  · apply SortedMap.ext_get?
    intro partition
    rw [merge_fst, merge_fst, SortedMap.get?_insertAll_of_perm table order,
      SortedMap.get?_insertAll_toList]
  · rw [Bool.eq_iff_iff, merge_snd_iff, merge_snd_iff]
    simp only [order.mem_iff]

/-- What is delivered takes precedence. -/
theorem get?_merge (table incoming : PositionTable) (partition : Partition) :
    (table.merge incoming.toList).1.get? partition =
      (incoming.get? partition).or (table.get? partition) := by
  rw [merge_fst, SortedMap.get?_insertAll_toList]

/-- The flag that merging answers tells the truth. -/
theorem merge_snd_iff_ne (table incoming : PositionTable) :
    (table.merge incoming.toList).2 = true ↔ (table.merge incoming.toList).1 ≠ table := by
  rw [merge_snd_iff]
  constructor
  · rintro ⟨entry, listed, isNew⟩ same
    have delivered := get?_merge table incoming entry.1
    rw [same, SortedMap.mem_toList_iff.1 listed] at delivered
    exact isNew delivered
  · intro differs
    refine Decidable.byContradiction fun noneNew => differs ?_
    apply SortedMap.ext_get?
    intro partition
    rw [get?_merge]
    cases told : incoming.get? partition with
    | none => rfl
    | some offset =>
        refine Decidable.byContradiction fun isNew => noneNew ?_
        exact ⟨(partition, offset), SortedMap.mem_toList_iff.2 told, Ne.symm isNew⟩

private theorem get?_insertAll_filterMap (table map : PositionTable) (partitions : List Partition)
    (partition : Partition) :
    (map.insertAll (partitions.filterMap fun listed =>
      (table.get? listed).map fun offset => (listed, offset))).get? partition =
      if partition ∈ partitions then (table.get? partition).or (map.get? partition)
      else map.get? partition := by
  induction partitions generalizing map with
  | nil => rfl
  | cons listed rest ih =>
      cases held : table.get? listed with
      | none =>
          simp only [List.filterMap_cons, held, Option.map_none, ih, List.mem_cons]
          by_cases isListed : partition = listed
          · simp [isListed, held]
          · simp [isListed]
      | some offset =>
          simp only [List.filterMap_cons, held, Option.map_some, List.mem_cons]
          change ((map.insert listed offset).insertAll _).get? partition = _
          rw [ih]
          by_cases isListed : partition = listed
          · simp [isListed, held]
          · simp [isListed, SortedMap.get?_insert_of_ne]

/-- A restriction answers for the partitions that it is made for, as the table does. -/
theorem get?_restrict (table : PositionTable) (partitions : List Partition)
    (partition : Partition) :
    (table.restrict partitions).get? partition =
      if partition ∈ partitions then table.get? partition else none := by
  rw [restrict, SortedMap.ofList, get?_insertAll_filterMap]
  simp

/-- A restriction has an entry for each of the partitions that has a position. -/
theorem size_restrict (table : PositionTable) {partitions : List Partition}
    (distinct : partitions.Nodup) :
    (table.restrict partitions).size =
      (partitions.filter fun partition => (table.get? partition).isSome).length := by
  have sameKeys : (table.restrict partitions).keys.Perm
      (partitions.filter fun partition => (table.get? partition).isSome) := by
    refine (List.perm_ext_iff_of_nodup (SortedMap.nodup_keys _) (distinct.filter _)).2 ?_
    intro partition
    rw [SortedMap.mem_keys_iff, SortedMap.contains, get?_restrict, List.mem_filter]
    by_cases listed : partition ∈ partitions
    · simp [listed]
    · simp [listed]
  rw [← sameKeys.length_eq, SortedMap.keys, List.length_map]
  rfl

/-- Removed partitions have no position, and the others keep theirs. -/
theorem get?_eraseAll (table : PositionTable) (partitions : List Partition)
    (partition : Partition) :
    (table.eraseAll partitions).get? partition =
      if partition ∈ partitions then none else table.get? partition := by
  rw [eraseAll]
  induction partitions generalizing table with
  | nil => rfl
  | cons removed rest ih =>
      rw [List.foldl_cons, ih]
      by_cases isRemoved : partition = removed
      · simp [isRemoved]
      · simp [isRemoved, SortedMap.get?_erase_of_ne]

end PositionTable

namespace PendingSet

@[simp]
theorem contains_empty (partition : Partition) : empty.contains partition = false :=
  rfl

theorem contains_insert (pending : PendingSet) (inserted partition : Partition) :
    (pending.insert inserted).contains partition = true ↔
      partition = inserted ∨ pending.contains partition = true := by
  by_cases isInserted : partition = inserted
  · simp [contains, insert, SortedMap.contains, isInserted]
  · simp [contains, insert, SortedMap.contains, isInserted, SortedMap.get?_insert_of_ne]

theorem contains_insertAll (pending : PendingSet) (inserted : List Partition)
    (partition : Partition) :
    (pending.insertAll inserted).contains partition = true ↔
      partition ∈ inserted ∨ pending.contains partition = true := by
  rw [insertAll]
  induction inserted generalizing pending with
  | nil => simp
  | cons head rest ih =>
      rw [List.foldl_cons, ih, contains_insert, List.mem_cons]
      constructor
      · rintro (later | same | before)
        · exact .inl (.inr later)
        · exact .inl (.inl same)
        · exact .inr before
      · rintro ((same | later) | before)
        · exact .inr (.inl same)
        · exact .inl later
        · exact .inr (.inr before)

theorem contains_erase (pending : PendingSet) (erased partition : Partition) :
    (pending.erase erased).contains partition = true ↔
      partition ≠ erased ∧ pending.contains partition = true := by
  by_cases isErased : partition = erased
  · simp [contains, erase, SortedMap.contains, isErased]
  · simp [contains, erase, SortedMap.contains, isErased, SortedMap.get?_erase_of_ne]

theorem contains_eraseAll (pending : PendingSet) (erased : List Partition)
    (partition : Partition) :
    (pending.eraseAll erased).contains partition = true ↔
      partition ∉ erased ∧ pending.contains partition = true := by
  rw [eraseAll]
  induction erased generalizing pending with
  | nil => simp
  | cons head rest ih =>
      rw [List.foldl_cons, ih, contains_erase, List.mem_cons, not_or]
      constructor
      · rintro ⟨notLater, differs, before⟩
        exact ⟨⟨differs, notLater⟩, before⟩
      · rintro ⟨⟨differs, notLater⟩, before⟩
        exact ⟨notLater, differs, before⟩

theorem nodup_toList (pending : PendingSet) : pending.toList.Nodup :=
  pending.members.nodup_keys

theorem length_toList (pending : PendingSet) : pending.toList.length = pending.size :=
  List.length_map _

theorem mem_toList_iff {pending : PendingSet} {partition : Partition} :
    partition ∈ pending.toList ↔ pending.contains partition = true :=
  SortedMap.mem_keys_iff

end PendingSet

end PositionSync
