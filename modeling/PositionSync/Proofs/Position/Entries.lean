import PositionSync.Position.Listing
import PositionSync.Proofs.Json.Decoding
import PositionSync.Proofs.SortedMap

/-!
# Which trees are tables

A table is a list of entries, an entry an object with one partition and one offset among its members, or
the list of both, and each of these an object of strings.  The decoders take exactly such trees off.
-/

namespace PositionSync

namespace Json.Tree

/-- Attributes are an object of strings; of a repeated name the last value counts. -/
def IsAttributes (tree : Tree) (attributes : Attributes) : Prop :=
  ∃ entries, tree.IsTexts entries ∧ attributes.HoldsLast entries

/-- An entry has one partition and one offset, and as many other members as it likes. -/
inductive IsEntry : Tree → Partition × Offset → Prop
  | object {members : List (List StringPart × Tree)} {named : List (String × Tree)}
      {partitionTree offsetTree : Tree} {partition offset : Attributes}
      (names : Named members named) (onePartition : valuesOf "partition" named = [partitionTree])
      (oneOffset : valuesOf "offset" named = [offsetTree])
      (isPartition : partitionTree.IsAttributes partition)
      (isOffset : offsetTree.IsAttributes offset) :
      IsEntry (.object members) (⟨partition⟩, ⟨offset⟩)
  | list {partitionTree offsetTree : Tree} {partition offset : Attributes}
      (isPartition : partitionTree.IsAttributes partition)
      (isOffset : offsetTree.IsAttributes offset) :
      IsEntry (.list [partitionTree, offsetTree]) (⟨partition⟩, ⟨offset⟩)

/-- A table is a list of entries; of a repeated partition the last entry counts. -/
def IsTable (tree : Tree) (table : PositionTable) : Prop :=
  ∃ entries, tree.IsList IsEntry entries ∧ table.HoldsLast entries

end Json.Tree

open Json

theorem decodes_attributes : Decodes Attributes.decoder Tree.IsAttributes :=
  (Decodes.textObject.map SortedMap.ofList).of_iff fun tree attributes => by
    simp only [Tree.IsAttributes, SortedMap.holdsLast_iff]

namespace Listing

theorem entryFields_isPair : entryFields.IsPair "partition" "offset"
    (fun tree partition => tree.IsAttributes partition.attributes)
    (fun tree offset => tree.IsAttributes offset.attributes) PartialEntry.mk PartialEntry.partition
    PartialEntry.offset where
  distinct := by decide
  known := rfl
  make_eq _ := rfl
  one_make _ _ := rfl
  other_make _ _ := rfl
  isSet_first _ := rfl
  isSet_second _ := rfl
  read_first record := by
    have reads := decodes_attributes.map fun attributes =>
      { record with partition := some ⟨attributes⟩ }
    refine Decodes.of_iff reads fun tree next => ?_
    exact ⟨fun ⟨attributes, means, same⟩ => ⟨⟨attributes⟩, means, same⟩,
      fun ⟨partition, means, same⟩ => ⟨partition.attributes, means, same⟩⟩
  read_second record := by
    have reads := decodes_attributes.map fun attributes =>
      { record with offset := some ⟨attributes⟩ }
    refine Decodes.of_iff reads fun tree next => ?_
    exact ⟨fun ⟨attributes, means, same⟩ => ⟨⟨attributes⟩, means, same⟩,
      fun ⟨offset, means, same⟩ => ⟨offset.attributes, means, same⟩⟩

theorem finish_eq_ok_iff {fields : PartialEntry} {entry : Partition × Offset} :
    fields.finish = .ok entry ↔ fields.partition = some entry.1 ∧ fields.offset = some entry.2 := by
  obtain ⟨partition, offset⟩ := fields
  obtain ⟨entryPartition, entryOffset⟩ := entry
  cases partition <;> cases offset <;> simp [PartialEntry.finish]

theorem entryItems_complete {partitionTree offsetTree : Tree} {partition offset : Attributes}
    (isPartition : partitionTree.IsAttributes partition) (isOffset : offsetTree.IsAttributes offset)
    (rest : List Lexeme) :
    entryItems (behindBracket [partitionTree, offsetTree] ++ rest) =
      .ok ((⟨partition⟩, ⟨offset⟩), rest) := by
  simp only [behindBracket, laterItems, List.append_assoc, List.cons_append, List.nil_append]
  rw [entryItems, nextItem_first decodes_attributes isPartition]
  change (nextItem false Attributes.decoder _ >>= _) = _
  rw [nextItem_later decodes_attributes isOffset]
  rfl

theorem entryItems_sound {lexemes rest : List Lexeme} {entry : Partition × Offset}
    (read : entryItems lexemes = .ok (entry, rest)) :
    ∃ partitionTree offsetTree, lexemes = behindBracket [partitionTree, offsetTree] ++ rest ∧
      partitionTree.IsAttributes entry.1.attributes ∧ offsetTree.IsAttributes entry.2.attributes := by
  rw [entryItems] at read
  obtain ⟨⟨found, behindFirst⟩, readFirst, readRest⟩ := ok_of_bind read
  obtain ⟨rfl, -⟩ | ⟨partitionTree, partition, rfl, isPartition, spelledFirst⟩ :=
    nextItem_sound decodes_attributes readFirst
  · nomatch readRest
  obtain ⟨⟨found, behindSecond⟩, readSecond, readEnd⟩ := ok_of_bind readRest
  obtain ⟨rfl, -⟩ | ⟨offsetTree, offset, rfl, isOffset, spelledSecond⟩ :=
    nextItem_sound decodes_attributes readSecond
  · nomatch readEnd
  obtain ⟨⟨⟨⟩, after⟩, isEnd, finished⟩ := ok_of_bind readEnd
  cases finished
  rw [listEnd_eq_ok_iff] at isEnd
  refine ⟨partitionTree, offsetTree, ?_, isPartition, isOffset⟩
  rw [spelledFirst, spelledSecond, isEnd]
  simp [separator, behindBracket, laterItems]

theorem decodes_entry : Decodes Listing.entry Tree.IsEntry where
  complete {tree entry} isEntry rest := by
    cases isEntry with
    | @object members named _ _ partition offset names onePartition oneOffset isPartition isOffset =>
        have read : object entryFields {} (behindBrace members ++ rest) =
            .ok (⟨some ⟨partition⟩, some ⟨offset⟩⟩, rest) :=
          entryFields_isPair.object_eq_ok_iff.2 ⟨members, named, rfl, names,
            leaves_some_iff.2 ⟨_, onePartition, isPartition⟩, leaves_some_iff.2 ⟨_, oneOffset, isOffset⟩⟩
        rw [Tree.lexemes, List.cons_append, Listing.entry, read]
        rfl
    | list isPartition isOffset => exact entryItems_complete isPartition isOffset rest
  sound {lexemes entry rest} read := by
    rw [Listing.entry.eq_def] at read
    split at read
    · obtain ⟨⟨fields, behind⟩, readFields, readRest⟩ := ok_of_bind read
      obtain ⟨found, isFinished, finished⟩ := ok_of_bind readRest
      cases finished
      rw [finish_eq_ok_iff] at isFinished
      obtain ⟨members, named, rfl, names, leavesPartition, leavesOffset⟩ :=
        entryFields_isPair.object_eq_ok_iff.1 readFields
      rw [isFinished.1, leaves_some_iff] at leavesPartition
      rw [isFinished.2, leaves_some_iff] at leavesOffset
      obtain ⟨partitionTree, onePartition, isPartition⟩ := leavesPartition
      obtain ⟨offsetTree, oneOffset, isOffset⟩ := leavesOffset
      exact ⟨.object members, rfl, .object names onePartition oneOffset isPartition isOffset⟩
    · obtain ⟨partitionTree, offsetTree, rfl, isPartition, isOffset⟩ := entryItems_sound read
      exact ⟨.list [partitionTree, offsetTree], rfl, .list isPartition isOffset⟩
    · nomatch read

theorem decodes_table : Decodes Listing.decoder Tree.IsTable :=
  (decodes_entry.list.map SortedMap.ofList).of_iff fun tree table => by
    simp only [Tree.IsTable, SortedMap.holdsLast_iff]

end Listing

end PositionSync
