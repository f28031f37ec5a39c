import PositionSync.Message.Wire
import PositionSync.Proofs.Position.Listing

/-!
# Messages survive the wire

A message is written through values of its own and read by decoders that know nothing of these.  The
whole object spells lexemes which the decoder of the envelope reads, as the listing in it does for the
decoder of listings.
-/

namespace PositionSync

namespace PositionMessage

/-- The lexemes of a message whose positions are listed in some order. -/
def listedLexemes (kind : MessageKind) (listing : List (Partition × Offset)) :
    List Json.Lexeme :=
  .leftBrace :: Json.memberLexemes
    [("kind", [Json.stringLexeme kind.tag]), ("positions", Listing.lexemes listing)]

theorem spelledBy_listedLexemes (kind : MessageKind) (listing : List (Partition × Offset)) :
    (listedValue kind listing).SpelledBy (listedLexemes kind listing) := by
  refine .object (fun member : String × Json.Value × List Json.Lexeme => (member.1, member.2.1))
    (fun member => (member.1, member.2.2))
    [("kind", .text kind.tag, [Json.stringLexeme kind.tag]),
      ("positions", Listing.value listing, Listing.lexemes listing)] (fun _ _ => rfl) ?_
  simp only [List.forall_mem_cons]
  exact ⟨.text kind.tag, Listing.spelledBy_lexemes listing, List.forall_mem_nil _⟩

theorem reads_listed (kind : MessageKind) (listing : List (Partition × Offset)) :
    Json.Reads Envelope.decoder (listedLexemes kind listing)
      (kind.tag, SortedMap.ofList listing) := by
  have readsKind (tag : String) : Json.Reads (Envelope.fields.read "kind" {})
      [Json.stringLexeme tag] { kind := some tag } := by
    intro rest
    change (Json.text "a string" _).map _ = _
    rw [Json.reads_text "a string" tag rest]
    rfl
  have readsPositions : Json.Reads (Envelope.fields.read "positions" { kind := some kind.tag })
      (Listing.lexemes listing)
      { kind := some kind.tag, positions := some (SortedMap.ofList listing) } := by
    intro rest
    change (Listing.decoder _).map _ = _
    rw [Listing.reads_listing listing rest]
    rfl
  have first := Json.members_comma Envelope.fields "kind" (by decide) rfl (readsKind kind.tag)
  have second := Json.members_end Envelope.fields "positions" (by decide) rfl readsPositions
  intro rest
  simp only [listedLexemes, Json.memberLexemes, List.cons_append, List.append_assoc,
    List.nil_append] at first second ⊢
  change (Json.members Envelope.fields _ {} _ >>= _) = _
  rw [first, second]
  rfl

/-- A message is read back from its octets, in whatever order its positions were listed. -/
theorem decode_encodeListed (kind : MessageKind) (listing : List (Partition × Offset)) :
    decode (encodeListed kind listing) = .ok ⟨kind, SortedMap.ofList listing⟩ := by
  have envelope := Json.decode_of_spells (spelledBy_listedLexemes kind listing).compact
    (reads_listed kind listing)
  have known : MessageKind.parse kind.tag = .ok kind := by
    rw [MessageKind.parse, MessageKind.ofName?_tag]
  rw [decode, encodeListed, envelope]
  change (MessageKind.parse kind.tag >>= _) = _
  rw [known]
  rfl

theorem decode_encode_self (message : PositionMessage) : decode message.encode = .ok message := by
  rw [encode, decode_encodeListed, SortedMap.ofList_toList]

/-- A message is the same on both ends of the wire, whichever order its positions were sent in. -/
theorem decode_encodeListed_of_perm (message : PositionMessage)
    {listing : List (Partition × Offset)} (order : listing.Perm message.positions.toList) :
    decode (encodeListed message.kind listing) = .ok message := by
  rw [decode_encodeListed, SortedMap.ofList_of_perm order]

/-- Two positions in descending order, whose texts have to be escaped. -/
theorem decode_encodeListed_of_descending :
    let later : Partition × Offset :=
      (⟨.ofList [("path", "b"), ("host", "\x00\t\"\\😀")]⟩, ⟨.ofList [("", "\x1f\x7f")]⟩)
    let earlier : Partition × Offset := (⟨.empty⟩, ⟨.empty⟩)
    let message : PositionMessage := ⟨.positionChange, .ofList [earlier, later]⟩
    [later, earlier].Perm message.positions.toList ∧
      decode (encodeListed .positionChange [later, earlier]) = .ok message := by
  intro later earlier message
  have order : [later, earlier].Perm message.positions.toList := by
    have listed : message.positions.toList = [earlier, later] := by decide +kernel
    rw [listed]
    exact List.Perm.swap earlier later []
  exact ⟨order, decode_encodeListed_of_perm message order⟩

end PositionMessage

end PositionSync
