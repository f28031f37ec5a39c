import PositionSync.Json.Decoder
import PositionSync.Proofs.Json.Lexemes

/-!
# Reading written values

A decoder reads a value from lexemes if it takes exactly these off, whatever stands behind them.  A
decoder that reads the items of a list one by one reads the whole list, and a text that spells what a
decoder reads is decoded.
-/

namespace PositionSync.Json

/-- A decoder takes certain lexemes off as a value, whatever stands behind them. -/
def Reads {α : Type} (decoder : Decoder α) (written : List Lexeme) (value : α) : Prop :=
  ∀ rest, decoder (written ++ rest) = .ok (value, rest)

theorem stringText_written (text : String) :
    stringText (text.toList.flatMap charParts) = .ok text := by
  rw [stringText, textOf?_written]

theorem reads_text (expected text : String) :
    Reads (Json.text expected) [stringLexeme text] text := by
  intro rest
  rw [List.singleton_append, stringLexeme, Json.text, stringText_written]
  rfl

section Items

variable {α : Type} {item : Decoder α} {written : α → List Lexeme} {values : List α}

theorem items_written (reads : ∀ value ∈ values, Reads item (written value) value)
    (some : values ≠ []) (bound : List Lexeme) (enough : values.length ≤ bound.length)
    (rest : List Lexeme) :
    items item bound (itemLexemes (values.map written) ++ rest) = .ok (values, rest) := by
  induction values generalizing bound with
  | nil => exact absurd rfl some
  | cons value others ih =>
      have first := reads value List.mem_cons_self
      cases bound with
      | nil => simp at enough
      | cons _ bound =>
          cases others with
          | nil =>
              simp only [List.map_cons, List.map_nil, itemLexemes, List.append_assoc, items]
              rw [first]
              rfl
          | cons next others =>
              have later := ih (fun other member => reads other (List.mem_cons_of_mem _ member))
                (List.cons_ne_nil _ _) bound (Nat.le_of_succ_le_succ enough)
              simp only [List.map_cons] at later
              simp only [List.map_cons, itemLexemes, List.append_assoc, List.cons_append, items]
              rw [first]
              change (items item bound _ >>= _) = _
              rw [later]
              rfl

theorem length_le_itemLexemes (written : List (List Lexeme)) :
    written.length ≤ (itemLexemes written).length := by
  induction written with
  | nil => simp
  | cons item rest ih =>
      cases rest with
      | nil => simp [itemLexemes]
      | cons next rest =>
          simp only [List.length_cons, itemLexemes, List.length_append] at ih ⊢
          omega

private theorem list_of_item (item : Decoder α) {lexeme : Lexeme} {later : List Lexeme}
    (noEnd : lexeme ≠ .rightBracket) :
    list item (.leftBracket :: lexeme :: later) =
      items item (lexeme :: later) (lexeme :: later) := by
  cases lexeme with
  | rightBracket => exact absurd rfl noEnd
  | _ => rfl

/-- A list is read if its items are, none of which begins like the end of a list. -/
theorem reads_list (values : List α)
    (reads : ∀ value ∈ values, Reads item (written value) value)
    (opens : ∀ value ∈ values, ∃ lexeme later,
      written value = lexeme :: later ∧ lexeme ≠ .rightBracket) :
    Reads (list item) (.leftBracket :: itemLexemes (values.map written)) values := by
  intro rest
  cases values with
  | nil => rfl
  | cons value others =>
      obtain ⟨lexeme, later, begins, noEnd⟩ := opens value List.mem_cons_self
      have enough : (value :: others).length ≤
          (itemLexemes ((value :: others).map written) ++ rest).length := by
        have short := length_le_itemLexemes ((value :: others).map written)
        rw [List.length_map] at short
        rw [List.length_append]
        omega
      have whole := items_written reads (List.cons_ne_nil _ _) _ enough rest
      obtain ⟨behind, front⟩ : ∃ behind,
          itemLexemes ((value :: others).map written) ++ rest = lexeme :: behind := by
        cases others with
        | nil => exact ⟨later ++ [.rightBracket] ++ rest, by simp [itemLexemes, begins]⟩
        | cons next others => simp [itemLexemes, begins]
      rw [front] at whole
      rw [List.cons_append, front, list_of_item item noEnd]
      exact whole

end Items

theorem textMembers_written {entries : List (String × String)} (some : entries ≠ [])
    (bound : List Lexeme) (enough : entries.length ≤ bound.length) (rest : List Lexeme) :
    textMembers bound
        (memberLexemes (entries.map fun entry => (entry.1, [stringLexeme entry.2])) ++ rest) =
      .ok (entries, rest) := by
  induction entries generalizing bound with
  | nil => exact absurd rfl some
  | cons entry others ih =>
      have value := reads_text "a string" entry.2
      cases bound with
      | nil => simp at enough
      | cons _ bound =>
          cases others with
          | nil =>
              simp only [List.map_cons, List.map_nil, memberLexemes, List.append_assoc,
                List.cons_append]
              rw [stringLexeme, textMembers, stringText_written]
              change (memberValue _ _ >>= _) = _
              rw [memberValue, ← List.singleton_append, value]
              rfl
          | cons next others =>
              have later := ih (List.cons_ne_nil _ _) bound (Nat.le_of_succ_le_succ enough)
              simp only [List.map_cons] at later
              simp only [List.map_cons, memberLexemes, List.append_assoc, List.cons_append]
              rw [stringLexeme, textMembers, stringText_written]
              change (memberValue _ _ >>= _) = _
              rw [memberValue, ← List.singleton_append, value]
              change (textMembers bound _ >>= _) = _
              rw [later]
              rfl

theorem length_le_memberLexemes (written : List (String × List Lexeme)) :
    written.length ≤ (memberLexemes written).length := by
  induction written with
  | nil => simp
  | cons member rest ih =>
      cases rest with
      | nil => simp [memberLexemes]
      | cons next rest =>
          simp only [List.length_cons, memberLexemes, List.length_append] at ih ⊢
          omega

theorem reads_textObject (entries : List (String × String)) :
    Reads textObject
      (.leftBrace :: memberLexemes (entries.map fun entry => (entry.1, [stringLexeme entry.2])))
      entries := by
  intro rest
  cases entries with
  | nil => rfl
  | cons entry others =>
      have enough := length_le_memberLexemes
        ((entry :: others).map fun entry => (entry.1, [stringLexeme entry.2]))
      rw [List.length_map] at enough
      have whole := textMembers_written (List.cons_ne_nil entry others)
        (memberLexemes ((entry :: others).map fun entry => (entry.1, [stringLexeme entry.2])) ++
          rest) (by rw [List.length_append]; omega) rest
      rw [List.cons_append, ← whole]
      cases others with
      | nil => rfl
      | cons next others => rfl

section Members

variable {σ : Type} {fields : Fields σ} {name : String} {record next : σ} {written : List Lexeme}

private theorem field_written (known : name ∈ fields.known)
    (unset : fields.isSet name record = false)
    (reads : Reads (fields.read name record) written next) (rest : List Lexeme) :
    field fields name record (.colon :: (written ++ rest)) = .ok (next, rest) := by
  rw [field, if_pos known, unset]
  exact reads rest

/-- A field that has not been read yet is read, and the next member follows. -/
theorem members_comma (fields : Fields σ) (name : String) (known : name ∈ fields.known)
    (unset : fields.isSet name record = false)
    (reads : Reads (fields.read name record) written next) (first : Lexeme)
    (bound more : List Lexeme) :
    members fields (first :: bound) record
        (stringLexeme name :: .colon :: (written ++ .comma :: more)) =
      members fields bound next more := by
  rw [stringLexeme, members, stringText_written]
  change (field fields name record _ >>= _) = _
  rw [field_written known unset reads]
  rfl

/-- The last field is read, and the record is complete. -/
theorem members_end (fields : Fields σ) (name : String) (known : name ∈ fields.known)
    (unset : fields.isSet name record = false)
    (reads : Reads (fields.read name record) written next) (first : Lexeme)
    (bound rest : List Lexeme) :
    members fields (first :: bound) record
        (stringLexeme name :: .colon :: (written ++ .rightBrace :: rest)) = .ok (next, rest) := by
  rw [stringLexeme, members, stringText_written]
  change (field fields name record _ >>= _) = _
  rw [field_written known unset reads]
  rfl

end Members

private theorem lexemesWithin_nil (fuel : Nat) : lexemesWithin fuel [] = [] := by
  cases fuel <;> rfl

/-- A text is decoded if it spells what the decoder reads. -/
theorem decode_of_spells {α : Type} {decoder : Decoder α} {chars : List Char}
    {written : List Lexeme} {value : α} (spells : Spells chars written)
    (reads : Reads decoder written value) :
    decode decoder (Utf8.encodeChars chars) = .ok value := by
  have cut : lexemes (chars.flatMap Utf8.encodeChar) = written := by
    obtain ⟨extra, length⟩ := Nat.exists_eq_add_of_le spells.length_le
    have whole := spells.cut extra []
    rw [lexemesWithin_nil, List.append_nil, List.append_nil, ← length] at whole
    exact whole
  have taken := reads []
  rw [List.append_nil] at taken
  rw [decode, Utf8.encodeChars, cut, taken]
  rfl

end PositionSync.Json
