import PositionSync.Proofs.Command.Forgetting
import PositionSync.Proofs.Position.Order

/-!
# Showing the stored positions

Positions are printed in the order of their partitions, so what is printed depends on the table alone, not
on the order in which it was filled, written or listed. The printed text can be read again, so that it tells
the whole table.
-/

namespace PositionSync

namespace Command

section Sorting

/-- By the partitions, then by the offsets. -/
def entryOrder : Partition × Offset → Partition × Offset → Ordering :=
  compareLex (compareOn Prod.fst) (compareOn fun entry => entry.2.attributes)

instance : Std.TransCmp entryOrder := Std.instTransCmpCompareLex

theorem entryBefore_eq (first second : Partition × Offset) :
    entryBefore first second = (entryOrder first second).isLE :=
  rfl

theorem entryBefore_trans {first second third : Partition × Offset}
    (one : entryBefore first second = true) (other : entryBefore second third = true) :
    entryBefore first third = true := by
  rw [entryBefore_eq] at one other ⊢
  exact Std.TransCmp.isLE_trans one other

theorem entryBefore_total (first second : Partition × Offset) :
    (entryBefore first second || entryBefore second first) = true := by
  have swapped : entryOrder second first = (entryOrder first second).swap := Std.OrientedCmp.eq_swap
  rw [entryBefore_eq, entryBefore_eq, swapped]
  cases entryOrder first second <;> rfl

theorem entryBefore_antisymm {first second : Partition × Offset} (one : entryBefore first second = true)
    (other : entryBefore second first = true) : first = second := by
  rw [entryBefore_eq] at one other
  have same : entryOrder first second = .eq := Std.OrientedCmp.isLE_antisymm one other
  obtain ⟨samePartition, sameAttributes⟩ := Ordering.then_eq_eq.1 same
  apply Prod.ext
  · exact Std.LawfulEqOrd.eq_of_compare samePartition
  · exact congrArg Offset.mk (Std.LawfulEqOrd.eq_of_compare sameAttributes)

/-- Every listing of a table is sorted into the same one. -/
theorem mergeSort_of_perm {table : PositionTable} {listing : List (Partition × Offset)}
    (listed : listing.Perm table.toList) : listing.mergeSort entryBefore = table.toList := by
  have sorted : (listing.mergeSort entryBefore).Pairwise fun first second =>
      entryBefore first second = true := by
    apply List.pairwise_mergeSort
    · intro first second third one other
      exact entryBefore_trans one other
    · exact entryBefore_total
  have ascending : table.toList.Pairwise fun first second => entryBefore first second = true := by
    refine table.ascending.imp fun {first second} less => ?_
    rw [entryBefore, less]
    rfl
  exact List.Perm.eq_of_pairwise (fun _ _ _ _ => entryBefore_antisymm) sorted ascending
    ((List.mergeSort_perm listing entryBefore).trans listed)

theorem positionsValue_of_perm {table : PositionTable} {listing : List (Partition × Offset)}
    (listed : listing.Perm table.toList) :
    positionsValue listing = .list (table.toList.map entryValue) := by
  rw [positionsValue, mergeSort_of_perm listed]

/-- The entries of a table are kept in the order of their partitions. -/
theorem pairwise_before_toList (table : PositionTable) :
    table.toList.Pairwise fun first second => first.1.Before second.1 :=
  table.ascending.imp fun {first second} less => (Partition.compare_eq_lt_iff first.1 second.1).1 less

end Sorting

section Printing

/-- The text of a list that is a member of a printed message. -/
def listChars : OutputFormat → Json.Value → List Char
  | .compact, value => value.compactChars
  | .pretty, value => value.prettyChars 1

/-- The positions in a message, as they are printed. -/
def Message.positionsChars (format : OutputFormat) : Message → List Char
  | .positions _ _ listing | .state _ listing => listChars format (positionsValue listing)
  | .record .. | .forgotten _ => []

def Report.positionsChars (format : OutputFormat) (report : Report) : List Char :=
  report.messages.flatMap (Message.positionsChars format)

/-- What is printed around the positions has nothing to do with them. -/
theorem exists_around_positions (format : OutputFormat) (path workerId : String) :
    ∃ front back, ∀ listing, ((Message.positions path workerId listing).print format).toList =
      front ++ listChars format (positionsValue listing) ++ back := by
  cases format with
  | compact =>
      refine ⟨'\x7b' :: (Json.string "path" ++ ':' :: Json.string path ++ ',' ::
          (Json.string "positions" ++ [':'])),
        ',' :: Json.compactMembers [("type", .text "POSITIONS"), ("worker_id", .text workerId)] ++
          ['\n'], fun listing => ?_⟩
      simp [Message.print, Json.Value.compact, Message.value, Json.Value.compactChars,
        Json.compactMembers, listChars]
  | pretty =>
      refine ⟨'\x7b' :: (Json.newLine 1 ++ Json.string "path" ++ ':' :: ' ' :: Json.string path ++
          ',' :: (Json.newLine 1 ++ Json.string "positions" ++ [':', ' '])),
        ',' :: Json.prettyMembers 0 [("type", .text "POSITIONS"), ("worker_id", .text workerId)] ++
          ['\n'], fun listing => ?_⟩
      simp [Message.print, Json.Value.pretty, Message.value, Json.Value.prettyChars,
        Json.prettyMembers, listChars]

end Printing

section Reading

/-- The fields of an entry in the order in which they are printed. -/
def printedFields (entry : Partition × Offset) : List (String × Attributes) :=
  (Listing.fields entry).reverse

/-- Printed positions are read as their table. -/
theorem decode_listChars (format : OutputFormat) (listing : List (Partition × Offset)) :
    Json.decode Listing.decoder (Utf8.encodeChars (listChars format (.list (listing.map entryValue)))) =
      .ok (SortedMap.ofList listing) := by
  have spelled : (Json.Value.list (listing.map entryValue)).SpelledBy
      (Listing.lexemesIn printedFields listing) := Listing.spelledBy_lexemesIn printedFields listing
  have reads := Listing.reads_lexemesIn printedFields (fun _ => List.reverse_perm _) listing
  cases format with
  | compact => exact Json.decode_of_spells spelled.compact reads
  | pretty => exact Json.decode_of_spells (spelled.pretty 1) reads

/-- Different tables are printed differently. -/
theorem listChars_inj (format : OutputFormat) {table other : PositionTable} :
    listChars format (.list (table.toList.map entryValue)) =
      listChars format (.list (other.toList.map entryValue)) ↔ table = other := by
  constructor
  · intro same
    have read := decode_listChars format table.toList
    rw [same, decode_listChars, SortedMap.ofList_toList, SortedMap.ofList_toList] at read
    exact (Except.ok.inj read).symm
  · rintro rfl
    rfl

end Reading

/-- A table has been written to the position file of a configuration, listed in some order, and that file
holds the same as then. -/
def IsStored (config : WorkerConfig) (table : PositionTable) (files : FileSystem) : Prop :=
  ∃ moment listing before after, listing.Perm table.toList ∧
    (Store.mk config.positionPath table).persistListed moment listing before = (after, .ok ()) ∧
    files.read config.positionPath = after.read config.positionPath

theorem showPositions_of_isStored {config : WorkerConfig} {table : PositionTable} {files : FileSystem}
    (stored : IsStored config table files) :
    showPositions config files =
      ⟨.ok (), [.positions config.positionPath.text config.workerId table.toList], files⟩ := by
  obtain ⟨moment, listing, before, after, listed, persists, untouched⟩ := stored
  have loads : (Store.new config.positionPath).load files = .ok ⟨config.positionPath, table⟩ :=
    Store.load_of_persistListed (Store.isInMemory_positionPath config table) listed persists rfl untouched
  rw [showPositions, loads]

/-- A stored table is shown, with its positions between texts that do not depend on it. They are its
entries, each of them once, strictly ascending by partition, and the same for every order in which the table
is listed. Two stored tables are printed alike just if they hold the same positions. -/
theorem shown_positions_are_canonical (config : WorkerConfig) (format : OutputFormat) :
    ∃ front back, ∀ table files, IsStored config table files →
      (showPositions config files).result = .ok () ∧
      ((showPositions config files).text format).toList =
        front ++ (showPositions config files).positionsChars format ++ back ∧
      (∃ printed : List (Partition × Offset),
        (showPositions config files).positionsChars format =
          listChars format (.list (printed.map entryValue)) ∧
        printed.Pairwise (fun first second => first.1.Before second.1) ∧
        (∀ partition offset, (partition, offset) ∈ printed ↔ table.get? partition = some offset) ∧
        ∀ listing, listing.Perm table.toList →
          positionsValue listing = .list (printed.map entryValue)) ∧
      ∀ otherConfig other otherFiles, IsStored otherConfig other otherFiles →
        ((showPositions otherConfig otherFiles).positionsChars format =
            (showPositions config files).positionsChars format ↔
          ∀ partition, other.get? partition = table.get? partition) := by
  obtain ⟨front, back, around⟩ :=
    exists_around_positions format config.positionPath.text config.workerId
  have printedOf {config : WorkerConfig} {table : PositionTable} {files : FileSystem}
      (stored : IsStored config table files) : (showPositions config files).positionsChars format =
        listChars format (.list (table.toList.map entryValue)) := by
    rw [showPositions_of_isStored stored, ← positionsValue_of_perm .rfl]
    exact List.flatMap_singleton ..
  refine ⟨front, back, fun table files stored => ⟨?_, ?_, ⟨table.toList, printedOf stored,
    pairwise_before_toList table, fun _ _ => SortedMap.mem_toList_iff,
    fun _ listed => positionsValue_of_perm listed⟩, ?_⟩⟩
  · rw [showPositions_of_isStored stored]
  · rw [printedOf stored, ← positionsValue_of_perm .rfl, ← around, showPositions_of_isStored stored]
    simp [Report.text]
  · intro otherConfig other otherFiles otherStored
    rw [printedOf stored, printedOf otherStored, listChars_inj]
    exact ⟨fun same partition => by rw [same], SortedMap.ext_get?⟩

/-- Three positions that are written in descending order: the last characters of the texts are those with
the greatest code points, whatever code units they take. -/
theorem shown_positions_are_canonical_of_descending :
    let config := WorkerConfig.new "worker-1"
    let first : Partition × Offset := (⟨.ofList [("host", "a")]⟩, fileOffset 10)
    let second : Partition × Offset := (⟨.ofList [("host", "a"), ("path", "\uffff")]⟩, fileOffset 9)
    let third : Partition × Offset := (⟨.ofList [("host", "a"), ("path", "😀")]⟩, ⟨.empty⟩)
    let table : PositionTable := .ofList [second, first, third]
    let written := (Store.mk config.positionPath table).persistListed (.sound default)
      [third, second, first] .empty
    IsStored config table written.1 ∧ (showPositions config written.1).result = .ok () ∧
      (showPositions config written.1).positionsChars .compact =
        listChars .compact (.list ([first, second, third].map entryValue)) := by
  intro config first second third table written
  have listing : table.toList = [first, second, third] := by decide +kernel
  have listed : [third, second, first].Perm table.toList := by
    rw [listing]
    exact List.reverse_perm [first, second, third]
  have succeeds : written.2 = .ok () := by decide +kernel
  have stored : IsStored config table written.1 :=
    ⟨.sound default, _, .empty, written.1, listed, Prod.ext rfl succeeds, rfl⟩
  obtain ⟨_, _, shows⟩ := shown_positions_are_canonical config .compact
  obtain ⟨isShown, -, ⟨printed, text, -, -, canonical⟩, -⟩ := shows table written.1 stored
  refine ⟨stored, isShown, text.trans ?_⟩
  rw [← canonical _ listed, positionsValue_of_perm listed, listing]

end Command

end PositionSync
