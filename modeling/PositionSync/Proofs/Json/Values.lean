import PositionSync.Proofs.Json.Lexemes

/-!
# Both ways of writing a value

Indented text differs from compact text only by space between the lexemes. So a value spells the same
lexemes both ways, at any depth.
-/

namespace PositionSync.Json

namespace Spells

/-- Space spells nothing. -/
theorem space {chars : List Char} (blank : ∀ char ∈ chars, char = ' ' ∨ char = '\n') :
    Spells chars [] where
  cut fuel rest := by
    have allSpace : ∀ octet ∈ chars.flatMap Utf8.encodeChar, isSpace octet = true := by
      intro octet member
      obtain ⟨char, isChar, encoded⟩ := List.mem_flatMap.1 member
      rcases blank char isChar with rfl | rfl
      · rw [List.mem_singleton.1 encoded]
        rfl
      · rw [List.mem_singleton.1 encoded]
        rfl
    rw [List.length_nil, Nat.zero_add, List.nil_append]
    cases fuel with
    | zero => rfl
    | succ fuel => rw [lexemesWithin, lexemesWithin, List.dropWhile_append_of_pos allSpace]
  length_le := Nat.zero_le _

theorem newLine (depth : Nat) : Spells (Json.newLine depth) [] := by
  refine space fun char member => ?_
  rcases List.mem_cons.1 member with isEnd | isIndent
  · exact .inr isEnd
  · exact .inl (List.mem_replicate.1 isIndent).2

/-- The colon behind a name in indented text. -/
theorem wideColon : Spells [':', ' '] [.colon] :=
  colon.append (space (by simp))

end Spells

/-- A value spells certain lexemes, compactly as well as indented. -/
structure Value.SpelledBy (value : Value) (written : List Lexeme) : Prop where
  compact : Spells value.compactChars written
  pretty : ∀ depth, Spells (value.prettyChars depth) written

section Items

variable {α : Type} (value : α → Value) (written : α → List Lexeme) (items : List α)

theorem spells_prettyItems (depth : Nat)
    (spells : ∀ item ∈ items, Spells ((value item).prettyChars (depth + 1)) (written item)) :
    Spells (prettyItems depth (items.map value)) (itemLexemes (items.map written)) := by
  induction items with
  | nil => exact (Spells.newLine depth).append .rightBracket
  | cons item rest ih =>
      have first := (Spells.newLine (depth + 1)).append (spells item List.mem_cons_self)
      have later := ih fun other member => spells other (List.mem_cons_of_mem _ member)
      cases rest with
      | nil =>
          simpa [prettyItems, itemLexemes] using
            first.append ((Spells.newLine depth).append .rightBracket)
      | cons next rest =>
          simpa [prettyItems, itemLexemes] using first.append (Spells.comma.append later)

theorem Value.SpelledBy.list
    (spelled : ∀ item ∈ items, (value item).SpelledBy (written item)) :
    (Value.list (items.map value)).SpelledBy
      (.leftBracket :: itemLexemes (items.map written)) where
  compact := Spells.leftBracket.append
    (spells_items value written items fun item member => (spelled item member).compact)
  pretty depth := by
    have indented := spells_prettyItems value written items depth fun item member =>
      (spelled item member).pretty (depth + 1)
    cases items with
    | nil => exact Spells.leftBracket.append .rightBracket
    | cons item rest => exact Spells.leftBracket.append indented

end Items

theorem Value.SpelledBy.text (content : String) :
    (Value.text content).SpelledBy [stringLexeme content] where
  compact := by
    rw [Value.compactChars]
    exact .string content
  pretty depth := by
    rw [Value.prettyChars]
    exact .string content

section Members

variable {α : Type} (value : α → String × Value) (written : α → String × List Lexeme)
  (members : List α)

theorem spells_prettyMembers (depth : Nat)
    (sameName : ∀ member ∈ members, (value member).1 = (written member).1)
    (spells : ∀ member ∈ members,
      Spells ((value member).2.prettyChars (depth + 1)) (written member).2) :
    Spells (prettyMembers depth (members.map value)) (memberLexemes (members.map written)) := by
  induction members with
  | nil => exact (Spells.newLine depth).append .rightBrace
  | cons member rest ih =>
      have name : Spells (Json.string (value member).1) [stringLexeme (written member).1] :=
        sameName member List.mem_cons_self ▸ .string _
      have first := (Spells.newLine (depth + 1)).append
        (name.append (Spells.wideColon.append (spells member List.mem_cons_self)))
      have later := ih (fun other listed => sameName other (List.mem_cons_of_mem _ listed))
        fun other listed => spells other (List.mem_cons_of_mem _ listed)
      cases rest with
      | nil =>
          simpa [prettyMembers, memberLexemes] using
            first.append ((Spells.newLine depth).append .rightBrace)
      | cons next rest =>
          simpa [prettyMembers, memberLexemes] using first.append (Spells.comma.append later)

theorem Value.SpelledBy.object
    (sameName : ∀ member ∈ members, (value member).1 = (written member).1)
    (spelled : ∀ member ∈ members, (value member).2.SpelledBy (written member).2) :
    (Value.object (members.map value)).SpelledBy
      (.leftBrace :: memberLexemes (members.map written)) where
  compact := Spells.leftBrace.append (spells_members value written members sameName
    fun member listed => (spelled member listed).compact)
  pretty depth := by
    have indented := spells_prettyMembers value written members depth sameName
      fun member listed => (spelled member listed).pretty (depth + 1)
    cases members with
    | nil => exact Spells.leftBrace.append .rightBrace
    | cons member rest => exact Spells.leftBrace.append indented

end Members

end PositionSync.Json
