import PositionSync.Json.Value
import PositionSync.Yaml.Scalar

/-!
# JSON strings as quoted scalars

A JSON string is spelled with escapes that mean the same in a double quoted scalar. What it does not
escape stands for itself there, unless it is hidden from a YAML text or ends a line in it.
-/

namespace PositionSync.Yaml

/-- The characters that JSON leaves as they are, but that may not stand in a YAML text, or do not stand
for themselves there. -/
def isHidden (char : Char) : Bool :=
  let code := char.toNat
  (0x7F ≤ code && code ≤ 0x9F) || code = 0x2028 || code = 0x2029 || code = 0xFEFF ||
    code = 0xFFFE || code = 0xFFFF

theorem visible_of_any {text : List Char} (none : text.any isHidden = false) :
    ∀ char ∈ text, isHidden char = false := by
  simpa using none

/-- The number of octets of some characters. -/
def octetCount : List Char → Nat
  | [] => 0
  | char :: rest => char.utf8Size + octetCount rest

theorem octetCount_append (front back : List Char) :
    octetCount (front ++ back) = octetCount front + octetCount back := by
  induction front with
  | nil => simp [octetCount]
  | cons char front ih => simp [octetCount, ih, Nat.add_assoc]

namespace Cursor

variable (index line column : Nat)

theorem skip_append (chars behind : List Char) :
    (Cursor.mk (chars ++ behind) index line column).skip chars.length =
      ⟨behind, index + octetCount chars, line, column + chars.length⟩ := by
  induction chars generalizing index column with
  | nil => rfl
  | cons char chars ih =>
      have passed := ih (index + char.utf8Size) (column + 1)
      rw [List.cons_append, List.length_cons, skip]
      simp only [passed, octetCount, Cursor.mk.injEq, true_and]
      omega

/-- Where one gets by passing some characters of a line. -/
theorem skip_eq {cursor : Cursor} {chars behind : List Char}
    (stands : cursor.rest = chars ++ behind) :
    cursor.skip chars.length =
      ⟨behind, cursor.index + octetCount chars, cursor.line, cursor.column + chars.length⟩ := by
  obtain ⟨rest, index, line, column⟩ := cursor
  obtain rfl : rest = chars ++ behind := stands
  exact skip_append index line column chars behind

theorem step_cons {char : Char} (noBreak : isBreak char = false) (behind : List Char) :
    (Cursor.mk (char :: behind) index line column).step =
      ⟨behind, index + char.utf8Size, line, column + 1⟩ := by
  unfold step
  split
  · next isEmpty => cases isEmpty
  · next isPair =>
    obtain rfl := (List.cons.inj isPair).1
    cases noBreak
  · next isCons =>
    obtain ⟨rfl, rfl⟩ := List.cons.inj isCons
    rw [if_neg (by simp [noBreak])]

/-- A place with a text before it on its line. -/
structure InLine (cursor : Cursor) (rest : List Char) : Prop where
  stands : cursor.rest = rest
  inside : cursor.column ≠ 0

theorem InLine.skip {cursor : Cursor} {chars behind : List Char}
    (here : cursor.InLine (chars ++ behind)) : (cursor.skip chars.length).InLine behind := by
  rw [skip_eq here.stands]
  exact ⟨rfl, fun isFirst => here.inside (Nat.eq_zero_of_add_eq_zero_right isFirst)⟩

theorem InLine.skip_one {cursor : Cursor} {char : Char} {behind : List Char}
    (here : cursor.InLine (char :: behind)) : (cursor.skip 1).InLine behind := by
  rw [← List.singleton_append] at here
  exact here.skip

end Cursor

theorem takeBreak?_of_not_isBreak {char : Char} (noBreak : isBreak char = false)
    (behind : List Char) : takeBreak? (char :: behind) = none := by
  have different : char ≠ '\r' ∧ char ≠ '\u2028' ∧ char ≠ '\u2029' := by
    refine ⟨?_, ?_, ?_⟩ <;> (rintro rfl; cases noBreak)
  rw [takeBreak?.eq_2 _ _ fun _ isReturn => absurd isReturn different.1]
  simp [different, noBreak]

section Escapes

theorem hexDigit?_hexDigit {digit : Nat} (small : digit < 16) :
    hexDigit? (Json.hexDigit digit) = some digit := by
  revert digit
  decide

theorem charOfNumber?_toNat (char : Char) : charOfNumber? char.toNat = some char := by
  have valid : ¬ (0xD800 ≤ char.toNat ∧ char.toNat ≤ 0xDFFF ∨ 0x10FFFF < char.toNat) := by
    have isChar := char.valid
    simp only [UInt32.isValidChar, Nat.isValidChar] at isChar
    have same : char.val.toNat = char.toNat := rfl
    omega
  rw [charOfNumber?, if_neg valid, Char.ofNat_toNat]

theorem escape?_number {char : Char} (small : char.toNat < 0x20) (rest : List Char) :
    escape? ('u' :: '0' :: '0' :: Json.hexDigit (char.toNat / 16) ::
      Json.hexDigit (char.toNat % 16) :: rest) = some (char, 5) := by
  have high := hexDigit?_hexDigit (show char.toNat / 16 < 16 by omega)
  have low := hexDigit?_hexDigit (show char.toNat % 16 < 16 by omega)
  have zero : hexDigit? '0' = some 0 := by decide
  have number : char.toNat / 16 * 16 + char.toNat % 16 = char.toNat := by omega
  simp [escape?, numberEscape?, hexNumber?, high, low, zero, number, charOfNumber?_toNat]

theorem isBreak_eq_false {char : Char} (visible : isHidden char = false) (noFeed : char ≠ '\n')
    (noReturn : char ≠ '\r') : isBreak char = false := by
  rw [Bool.eq_false_iff]
  intro ends
  simp only [isBreak, Bool.or_eq_true, decide_eq_true_eq] at ends
  rcases ends with (((rfl | rfl) | rfl) | rfl) | rfl
  · exact noFeed rfl
  · exact noReturn rfl
  all_goals cases visible

/-- How a character is spelled in JSON: it stands for itself, or it is escaped behind a backslash. -/
theorem escapeChar_cases {char : Char} (visible : isHidden char = false) :
    (Json.escapeChar char = [char] ∧ char ≠ '"' ∧ char ≠ '\\' ∧ char ≠ '\t' ∧
      isBreak char = false) ∨
    ∃ spelled, Json.escapeChar char = '\\' :: spelled ∧ ∀ rest,
      takeBreak? (spelled ++ rest) = none ∧
      escape? (spelled ++ rest) = some (char, spelled.length) := by
  unfold Json.escapeChar
  split
  case h_8 _ noQuote noBackslash _ noTab noFeed _ noReturn =>
    split
    · next small =>
      exact .inr ⟨_, rfl, fun rest =>
        ⟨takeBreak?_of_not_isBreak (by decide) _, escape?_number small rest⟩⟩
    · refine .inl ⟨rfl, by simpa using noQuote, by simpa using noBackslash, by simpa using noTab, ?_⟩
      exact isBreak_eq_false visible (by simpa using noFeed) (by simpa using noReturn)
  all_goals exact .inr ⟨_, rfl, fun _ => ⟨takeBreak?_of_not_isBreak (by decide) _, rfl⟩⟩

theorem isAllowed_escapeChar {char other : Char} (visible : isHidden char = false)
    (member : other ∈ Json.escapeChar char) : isAllowed other = true := by
  have digit {number : Nat} (small : number < 16) : isAllowed (Json.hexDigit number) = true := by
    revert number
    decide
  unfold Json.escapeChar at member
  split at member
  case h_8 =>
    split at member
    · next small =>
      simp only [List.mem_cons, List.not_mem_nil, or_false] at member
      rcases member with rfl | rfl | rfl | rfl | rfl | rfl
      · decide
      · decide
      · decide
      · decide
      · exact digit (by omega)
      · exact digit (by omega)
    · next large =>
      obtain rfl := List.mem_singleton.1 member
      have valid := other.valid
      simp only [UInt32.isValidChar, Nat.isValidChar] at valid
      have same : other.val.toNat = other.toNat := rfl
      simp only [isHidden, Bool.or_eq_false_iff, Bool.and_eq_false_iff, decide_eq_false_iff_not]
        at visible
      simp only [isAllowed, Bool.or_eq_true, Bool.and_eq_true, decide_eq_true_eq]
      omega
  all_goals
    simp only [List.mem_cons, List.not_mem_nil, or_false] at member
    rcases member with rfl | rfl <;> decide

/-- A text whose characters are allowed can be read to its end. -/
theorem readablePart_eq {text : List Char} (allowed : ∀ char ∈ text, isAllowed char = true) :
    readablePart text = (text, false) := by
  have unbroken (finished count size : Nat) : readableCount? finished count size text = none := by
    induction text generalizing finished count size with
    | nil => rfl
    | cons char text ih =>
        obtain ⟨allowedHere, allowedLater⟩ := List.forall_mem_cons.1 allowed
        rw [readableCount?, if_pos allowedHere, if_pos allowedHere, ih allowedLater,
          ih allowedLater, ite_self]
  rw [readablePart, unbroken]

end Escapes

section Quoted

variable {latest bound behind : List Char} {first : Char} {index line column : Nat}

theorem quotedFrom_close (inside : column ≠ 0) :
    quotedFrom false (first :: bound) (.blanks latest) ⟨'"' :: behind, index, line, column⟩ =
      some (latest.reverse, ⟨behind, index + 1, line, column + 1⟩) := by
  have noBreak := takeBreak?_of_not_isBreak (show isBreak '"' = false by decide) behind
  simp only [quotedFrom, noBreak]
  simp [inside, isBlank, quotation, Gap.text, Cursor.skip, show '"'.utf8Size = 1 from rfl]

theorem quotedFrom_space :
    quotedFrom false (first :: bound) (.blanks latest) ⟨' ' :: behind, index, line, column⟩ =
      quotedFrom false bound (.blanks (' ' :: latest)) ⟨behind, index + 1, line, column + 1⟩ := by
  have stepped := Cursor.step_cons index line column (show isBreak ' ' = false by decide) behind
  simp only [quotedFrom, stepped]
  rfl

theorem quotedFrom_char {char : Char} (inside : column ≠ 0)
    (plain : char ≠ '"' ∧ char ≠ '\\' ∧ isBlank char = false ∧ isBreak char = false) :
    quotedFrom false (first :: bound) (.blanks latest) ⟨char :: behind, index, line, column⟩ =
      prepend (latest.reverse ++ [char]) (quotedFrom false bound .none
        ⟨behind, index + char.utf8Size, line, column + 1⟩) := by
  obtain ⟨noQuote, noBackslash, noBlank, noBreak⟩ := plain
  simp only [quotedFrom, takeBreak?_of_not_isBreak noBreak]
  simp [noQuote, noBackslash, noBlank, inside, quotation, Gap.text, Cursor.skip]

theorem quotedFrom_escape {char : Char} {spelled : List Char} (inside : column ≠ 0)
    (noBreak : takeBreak? (spelled ++ behind) = none)
    (escapes : escape? (spelled ++ behind) = some (char, spelled.length)) :
    quotedFrom false (first :: bound) (.blanks latest)
        ⟨'\\' :: spelled ++ behind, index, line, column⟩ =
      prepend (latest.reverse ++ [char]) (quotedFrom false bound .none
        ⟨behind, index + octetCount ('\\' :: spelled), line,
          column + ('\\' :: spelled).length⟩) := by
  have passed := Cursor.skip_append index line column ('\\' :: spelled) behind
  have noBreakHere := takeBreak?_of_not_isBreak (show isBreak '\\' = false by decide)
    (spelled ++ behind)
  rw [List.length_cons, Nat.add_comm] at passed
  rw [List.cons_append] at passed ⊢
  simp only [quotedFrom, noBreakHere, noBreak, escapes, passed]
  simp [inside, isBlank, quotation, Gap.text, Nat.add_comm]

/-- The inside of a JSON string is read as what it stands for. Inside a line no document ends, whatever
the string holds. -/
theorem quotedFrom_escaped {text : List Char} (visible : ∀ char ∈ text, isHidden char = false)
    (behind latest : List Char) {bound : List Char} {index line column : Nat} (inside : column ≠ 0)
    (enough : (text.flatMap Json.escapeChar).length < bound.length) :
    quotedFrom false bound (.blanks latest)
        ⟨text.flatMap Json.escapeChar ++ '"' :: behind, index, line, column⟩ =
      some (latest.reverse ++ text, ⟨behind, index + octetCount (text.flatMap Json.escapeChar) + 1,
        line, column + (text.flatMap Json.escapeChar).length + 1⟩) := by
  induction text generalizing latest bound index column with
  | nil =>
      obtain ⟨first, bound, rfl⟩ := List.exists_cons_of_length_pos enough
      rw [List.flatMap_nil, List.nil_append, quotedFrom_close inside, List.append_nil]
      rfl
  | cons char text ih =>
      obtain ⟨visibleHere, visibleLater⟩ := List.forall_mem_cons.1 visible
      obtain ⟨first, bound, rfl⟩ := List.exists_cons_of_length_pos (Nat.zero_lt_of_lt enough)
      rw [List.flatMap_cons, List.length_append, List.length_cons] at enough
      rw [List.flatMap_cons, List.append_assoc, octetCount_append, List.length_append]
      rcases escapeChar_cases visibleHere with ⟨spelled, noQuote, noBackslash, noTab, noBreak⟩ |
        ⟨tail, spelled, escapes⟩
      · rw [spelled, List.length_singleton] at enough
        have later (latest : List Char) : quotedFrom false bound (.blanks latest)
            ⟨text.flatMap Json.escapeChar ++ '"' :: behind, index + char.utf8Size, line,
              column + 1⟩ = _ := ih visibleLater latest (by omega) (by omega)
        rw [spelled, List.singleton_append]
        by_cases isSpace : char = ' '
        · subst isSpace
          rw [quotedFrom_space, show index + 1 = index + ' '.utf8Size from rfl, later]
          simp [octetCount, Nat.add_assoc, Nat.add_comm, Nat.add_left_comm]
        · -- Spaces wait until it is known that they do not end the line, all else is taken at once.
          have noBlank : isBlank char = false := by simp [isBlank, isSpace, noTab]
          rw [quotedFrom_char inside ⟨noQuote, noBackslash, noBlank, noBreak⟩, Gap.none, later]
          simp [prepend, octetCount, Nat.add_assoc, Nat.add_comm, Nat.add_left_comm]
      · rw [spelled, List.length_cons] at enough
        rw [spelled, quotedFrom_escape inside (escapes _).1 (escapes _).2, Gap.none,
          ih visibleLater [] (by omega) (by omega)]
        simp [prepend, Nat.add_assoc, Nat.add_comm, Nat.add_left_comm]

/-- A JSON string is a quoted scalar with the text of the string. -/
theorem quoted?_string {cursor : Cursor} {text : String}
    (stands : cursor.rest = Json.string text ++ behind)
    (visible : ∀ char ∈ text.toList, isHidden char = false) :
    quoted? false (cursor.skip 1) = some (text.toList, cursor.skip (Json.string text).length) := by
  let inner := text.toList.flatMap Json.escapeChar
  have chars : Json.string text ++ behind = ['"'] ++ (inner ++ '"' :: behind) := by
    simp [Json.string, inner]
  have opened := Cursor.skip_eq (stands.trans chars)
  have size : octetCount (Json.string text) = 1 + (octetCount inner + 1) := by
    rw [Json.string, List.cons_append, ← List.singleton_append, octetCount_append,
      octetCount_append]
    rfl
  have length : (Json.string text).length = inner.length + 2 := by simp [Json.string, inner]
  have read : quotedFrom false (inner ++ '"' :: behind) .none
      ⟨inner ++ '"' :: behind, cursor.index + 1, cursor.line, cursor.column + 1⟩ = _ :=
    quotedFrom_escaped visible behind [] (Nat.succ_ne_zero cursor.column) (by simp [inner])
  rw [Cursor.skip_eq stands, show 1 = ['"'].length from rfl, opened, quoted?]
  refine read.trans ?_
  simp only [List.reverse_nil, List.nil_append, size, length, inner, Option.some.injEq,
    Prod.mk.injEq, Cursor.mk.injEq, true_and]
  omega

end Quoted

section Plain

variable {indentation index line column : Nat} {behind : List Char}

/-- The characters of words have no meaning of their own. -/
theorem plain_of_isWordChar {char : Char} (word : isWordChar char = true) :
    isBlank char = false ∧ isBreak char = false ∧ char ≠ ':' ∧ endsInFlow char = false := by
  refine ⟨Bool.eq_false_iff.2 fun isBlank => ?_, Bool.eq_false_iff.2 fun isBreak => ?_, ?_,
    Bool.eq_false_iff.2 fun ends => ?_⟩
  · simp only [Yaml.isBlank, Bool.or_eq_true, decide_eq_true_eq] at isBlank
    rcases isBlank with rfl | rfl <;> cases word
  · simp only [Yaml.isBreak, Bool.or_eq_true, decide_eq_true_eq] at isBreak
    rcases isBreak with (((rfl | rfl) | rfl) | rfl) | rfl <;> cases word
  · rintro rfl
    cases word
  · simp only [endsInFlow, Bool.or_eq_true, decide_eq_true_eq] at ends
    rcases ends with (((rfl | rfl) | rfl) | rfl) | rfl <;> cases word

theorem plainFrom_char {char first : Char} {bound : List Char} (word : isWordChar char = true)
    (inside : column ≠ 0) :
    plainFrom true indentation (first :: bound) .none ⟨char :: behind, index, line, column⟩ =
      prepend [char] (plainFrom true indentation bound .none
        ⟨behind, index + char.utf8Size, line, column + 1⟩) := by
  obtain ⟨noBlank, noBreak, noColon, noEnd⟩ := plain_of_isWordChar word
  rw [plainFrom.eq_def]
  simp [noBlank, takeBreak?_of_not_isBreak noBreak, Cursor.step_cons _ _ _ noBreak, noColon, noEnd,
    inside, Gap.isNone, Gap.none, Gap.text]

theorem plainFrom_end {ending first : Char} {bound : List Char} (ends : endsInFlow ending = true)
    (inside : column ≠ 0) :
    plainFrom true indentation (first :: bound) .none ⟨ending :: behind, index, line, column⟩ =
      some ([], ⟨⟨ending :: behind, index, line, column⟩, false⟩) := by
  have plain : isBlank ending = false ∧ isBreak ending = false ∧ ending ≠ ':' := by
    simp only [endsInFlow, Bool.or_eq_true, decide_eq_true_eq] at ends
    rcases ends with (((rfl | rfl) | rfl) | rfl) | rfl <;> decide
  rw [plainFrom.eq_def]
  simp [plain, takeBreak?_of_not_isBreak plain.2.1, ends, inside, Gap.isNone, Gap.none, Gap.hasBreak]

theorem plainFrom_word {word bound : List Char} {ending : Char}
    (plain : ∀ char ∈ word, isWordChar char = true) (ends : endsInFlow ending = true)
    (inside : column ≠ 0) (enough : word.length < bound.length) :
    plainFrom true indentation bound .none ⟨word ++ ending :: behind, index, line, column⟩ =
      some (word, ⟨⟨ending :: behind, index + octetCount word, line, column + word.length⟩,
        false⟩) := by
  induction word generalizing bound index column with
  | nil =>
      obtain ⟨first, bound, rfl⟩ := List.exists_cons_of_length_pos enough
      exact plainFrom_end ends inside
  | cons char word ih =>
      obtain ⟨plainHere, plainLater⟩ := List.forall_mem_cons.1 plain
      obtain ⟨first, bound, rfl⟩ := List.exists_cons_of_length_pos (Nat.zero_lt_of_lt enough)
      rw [List.cons_append, plainFrom_char plainHere inside,
        ih plainLater (Nat.succ_ne_zero column) (Nat.lt_of_succ_lt_succ enough)]
      simp [prepend, octetCount, Nat.add_assoc, Nat.add_comm, Nat.add_left_comm]

/-- A word that a comma or a closing brace follows is a plain scalar. -/
theorem plain?_word {cursor : Cursor} {word : List Char} {ending : Char}
    (here : cursor.InLine (word ++ ending :: behind))
    (plain : ∀ char ∈ word, isWordChar char = true) (ends : endsInFlow ending = true) :
    plain? true indentation cursor = some (word, ⟨cursor.skip word.length, false⟩) := by
  rw [Cursor.skip_eq here.stands]
  obtain ⟨rest, index, line, column⟩ := cursor
  obtain rfl : rest = word ++ ending :: behind := here.stands
  exact plainFrom_word plain ends here.inside (by simp)

end Plain

end PositionSync.Yaml
