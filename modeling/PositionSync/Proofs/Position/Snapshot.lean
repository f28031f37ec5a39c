import PositionSync.Position.Snapshot
import PositionSync.Proofs.Position.Listing
import PositionSync.Proofs.Time.Timestamp

/-!
# Position files are read back

A written position file is indented text. Its version and the time at which it was saved are well
formed, and its listing is read as the table, so the whole file is read as the table.
-/

namespace PositionSync.Snapshot

/-- The version as it is spelled. -/
def versionNumeral : Json.Numeral := ⟨false, [1], none, none⟩

/-- The lexemes of a position file whose table is listed in some order. -/
def listedLexemes (savedAt : Timestamp) (listing : List (Partition × Offset)) :
    List Json.Lexeme :=
  .leftBrace :: Json.memberLexemes
    [("version", [.number versionNumeral]), ("saved_at", [Json.stringLexeme savedAt.render]),
      ("positions", Listing.lexemes listing)]

/-- The version ends where the comma behind it begins. -/
theorem spells_version :
    Json.Spells (Nat.toDigits 10 version ++ [',']) [.number versionNumeral, .comma] where
  cut fuel rest := by
    rw [List.length_cons, List.length_singleton, Nat.add_comm]
    rfl
  length_le := by decide

theorem spells_listed (savedAt : Timestamp) (listing : List (Partition × Offset)) :
    Json.Spells ((listedValue savedAt listing).prettyChars 0) (listedLexemes savedAt listing) := by
  have name := Json.Spells.leftBrace.append
    ((Json.Spells.newLine 1).append (Json.Spells.string "version"))
  have versioned := name.append (Json.Spells.wideColon.append spells_version)
  have members := Json.spells_prettyMembers
    (fun member : String × Json.Value × List Json.Lexeme => (member.1, member.2.1))
    (fun member => (member.1, member.2.2))
    [("saved_at", .text savedAt.render, [Json.stringLexeme savedAt.render]),
      ("positions", Listing.value listing, Listing.lexemes listing)] 0 (fun _ _ => rfl) ?_
  · simpa [listedValue, listedLexemes, Json.memberLexemes, Json.Value.prettyChars,
      Json.prettyMembers] using versioned.append members
  · simp only [List.forall_mem_cons]
    exact ⟨(Json.Value.SpelledBy.text savedAt.render).pretty 1,
      (Listing.spelledBy_lexemes listing).pretty 1, List.forall_mem_nil _⟩

theorem reads_listed (savedAt : Timestamp) (listing : List (Partition × Offset)) :
    Json.Reads decoder (listedLexemes savedAt listing) (SortedMap.ofList listing) := by
  have readsVersion : Json.Reads (Draft.fields.read "version" {}) [.number versionNumeral]
      { version := some version } := fun rest => rfl
  have readsTime (text : String) (accepted : Timestamp.accepts text = true) :
      Json.Reads (Draft.fields.read "saved_at" { version := some version })
        [Json.stringLexeme text] { version := some version, savedAt := some () } := by
    intro rest
    change (timestamp _).map _ = _
    rw [timestamp, Json.reads_text "an RFC 3339 formatted date and time string" text rest]
    change Except.map _ (if Timestamp.accepts text then _ else _) = _
    rw [if_pos accepted]
    rfl
  have readsPositions :
      Json.Reads (Draft.fields.read "positions" { version := some version, savedAt := some () })
        (Listing.lexemes listing)
        ⟨some version, some (), some (SortedMap.ofList listing)⟩ := by
    intro rest
    change (Listing.decoder _).map _ = _
    rw [Listing.reads_listing listing rest]
    rfl
  have first := Json.members_comma Draft.fields "version" (by decide) rfl readsVersion
  have second := Json.members_comma Draft.fields "saved_at" (by decide) rfl
    (readsTime savedAt.render savedAt.accepts_render)
  have third := Json.members_end Draft.fields "positions" (by decide) rfl readsPositions
  intro rest
  simp only [listedLexemes, Json.memberLexemes, List.cons_append, List.append_assoc,
    List.nil_append] at first second third ⊢
  change (Json.members Draft.fields _ {} _ >>= _) = _
  rw [first, second, third]
  rfl

/-- A position file is read as its table, in whatever order the table was listed. -/
theorem decode_listed (savedAt : Timestamp) (listing : List (Partition × Offset)) :
    decode ((listedValue savedAt listing).prettyChars 0) = .ok (SortedMap.ofList listing) :=
  Json.decode_of_spells (spells_listed savedAt listing) (reads_listed savedAt listing)

end PositionSync.Snapshot
