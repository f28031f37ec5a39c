import Mathlib.Data.List.Permutation
import PositionSync.Position.Listing
import PositionSync.Proofs.Json.Reading
import PositionSync.Proofs.Json.Values
import PositionSync.Proofs.SortedMap

/-!
# Written listings are read back

Each part of a listing spells lexemes which the decoder of that part reads: attributes, entries and at
last the whole listing. This holds for compact and for indented text.
-/

namespace PositionSync

/-- The lexemes of written attributes. -/
def Attributes.lexemes (attributes : Attributes) : List Json.Lexeme :=
  .leftBrace ::
    Json.memberLexemes (attributes.entries.map fun entry => (entry.1, [Json.stringLexeme entry.2]))

namespace Attributes

theorem spelledBy_lexemes (attributes : Attributes) :
    attributes.value.SpelledBy attributes.lexemes :=
  .object (fun entry : String × String => (entry.1, .text entry.2))
    (fun entry => (entry.1, [Json.stringLexeme entry.2])) attributes.entries (fun _ _ => rfl)
    fun entry _ => .text entry.2

theorem reads_lexemes (attributes : Attributes) :
    Json.Reads decoder attributes.lexemes attributes := by
  intro rest
  rw [decoder, lexemes, Json.reads_textObject attributes.entries rest]
  change Except.ok (SortedMap.ofList attributes.toList, rest) = _
  rw [SortedMap.ofList_toList]

end Attributes

namespace Listing

/-- The two fields of an entry. They are written in this order in files and messages. -/
def fields (entry : Partition × Offset) : List (String × Attributes) :=
  [("partition", entry.1.attributes), ("offset", entry.2.attributes)]

/-- The lexemes of an object whose fields hold attributes. -/
def fieldLexemes (fields : List (String × Attributes)) : List Json.Lexeme :=
  .leftBrace :: Json.memberLexemes (fields.map fun field => (field.1, field.2.lexemes))

theorem spelledBy_fieldLexemes (fields : List (String × Attributes)) :
    (Json.Value.object (fields.map fun field => (field.1, field.2.value))).SpelledBy
      (fieldLexemes fields) :=
  .object (fun field : String × Attributes => (field.1, field.2.value))
    (fun field => (field.1, field.2.lexemes)) fields (fun _ _ => rfl)
    fun field _ => field.2.spelledBy_lexemes

theorem reads_partition (partition : Partition) (entry : PartialEntry) :
    Json.Reads (entryFields.read "partition" entry) partition.attributes.lexemes
      { entry with partition := some partition } := by
  intro rest
  change (Attributes.decoder _).map _ = _
  rw [partition.attributes.reads_lexemes rest]
  rfl

theorem reads_offset (offset : Offset) (entry : PartialEntry) :
    Json.Reads (entryFields.read "offset" entry) offset.attributes.lexemes
      { entry with offset := some offset } := by
  intro rest
  change (Attributes.decoder _).map _ = _
  rw [offset.attributes.reads_lexemes rest]
  rfl

/-- Two different fields are read one after the other, and what they fill is the entry. -/
theorem reads_fieldPair {first second : String × Attributes} {half whole : PartialEntry}
    {entry : Partition × Offset} (firstKnown : first.1 ∈ entryFields.known)
    (firstUnset : entryFields.isSet first.1 {} = false)
    (readsFirst : Json.Reads (entryFields.read first.1 {}) first.2.lexemes half)
    (secondKnown : second.1 ∈ entryFields.known) (secondUnset : entryFields.isSet second.1 half = false)
    (readsSecond : Json.Reads (entryFields.read second.1 half) second.2.lexemes whole)
    (finishes : whole.finish = .ok entry) :
    Json.Reads Listing.entry (fieldLexemes [first, second]) entry := by
  intro rest
  have comma := Json.members_comma entryFields first.1 firstKnown firstUnset readsFirst
  have ending := Json.members_end entryFields second.1 secondKnown secondUnset readsSecond
  simp only [fieldLexemes, List.map_cons, List.map_nil, Json.memberLexemes, List.cons_append,
    List.append_assoc, List.nil_append]
  change (Json.members entryFields _ {} _ >>= _) = _
  rw [comma, ending]
  change (whole.finish >>= _) = _
  rw [finishes]
  rfl

/-- The order of the two fields does not matter to a reader. -/
theorem reads_fieldLexemes {written : List (String × Attributes)} {entry : Partition × Offset}
    (isOrder : written.Perm (fields entry)) : Json.Reads Listing.entry (fieldLexemes written) entry := by
  obtain ⟨partition, offset⟩ := entry
  have partitionKnown : "partition" ∈ entryFields.known := by decide
  have offsetKnown : "offset" ∈ entryFields.known := by decide
  rcases List.perm_pair.1 isOrder with rfl | rfl
  · exact reads_fieldPair partitionKnown rfl (reads_partition partition {}) offsetKnown rfl
      (reads_offset offset _) rfl
  · exact reads_fieldPair offsetKnown rfl (reads_offset offset {}) partitionKnown rfl
      (reads_partition partition _) rfl

section AnyOrder

variable (written : Partition × Offset → List (String × Attributes))

/-- The lexemes of a listing, with the fields of each entry in the order in which they are written. -/
def lexemesIn (listing : List (Partition × Offset)) : List Json.Lexeme :=
  .leftBracket :: Json.itemLexemes (listing.map fun entry => fieldLexemes (written entry))

theorem spelledBy_lexemesIn (listing : List (Partition × Offset)) :
    (Json.Value.list (listing.map fun entry =>
      .object ((written entry).map fun field => (field.1, field.2.value)))).SpelledBy
        (lexemesIn written listing) :=
  .list _ (fun entry => fieldLexemes (written entry)) listing
    fun entry _ => spelledBy_fieldLexemes (written entry)

/-- A listing of a table is read as the table, in whatever order it is. -/
theorem reads_lexemesIn (isOrder : ∀ entry, (written entry).Perm (fields entry))
    (listing : List (Partition × Offset)) :
    Json.Reads decoder (lexemesIn written listing) (SortedMap.ofList listing) := by
  intro rest
  have whole := Json.reads_list listing (fun entry _ => reads_fieldLexemes (isOrder entry))
    (fun entry _ => ⟨.leftBrace, _, rfl, by decide⟩) rest
  rw [decoder, lexemesIn, whole]
  rfl

end AnyOrder

/-- The lexemes of a written listing. -/
def lexemes (listing : List (Partition × Offset)) : List Json.Lexeme :=
  lexemesIn fields listing

theorem spelledBy_lexemes (listing : List (Partition × Offset)) :
    (value listing).SpelledBy (lexemes listing) :=
  spelledBy_lexemesIn fields listing

theorem reads_listing (listing : List (Partition × Offset)) :
    Json.Reads decoder (lexemes listing) (SortedMap.ofList listing) :=
  reads_lexemesIn fields (fun _ => .rfl) listing

end Listing

end PositionSync
