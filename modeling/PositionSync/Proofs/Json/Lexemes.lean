import PositionSync.Json.Lexeme
import PositionSync.Json.Value
import PositionSync.Proofs.Text.Utf8

/-!
# The lexemes of written values

A character inside a string is written in one of three ways: behind a backslash, by its number, or as
it is.  Each of them is cut off again as the parts that stand for the character.  From strings and
punctuation the lexemes of whole lists and objects are put together: a text spells its lexemes if it is
cut into them whatever stands behind it.
-/

namespace PositionSync.Json

/-- The parts that stand for a character inside a written string. -/
def charParts (char : Char) : List StringPart :=
  match char with
  | '"' => [.escaped 0x22]
  | '\\' => [.escaped 0x5C]
  | '\x08' => [.escaped 0x08]
  | '\t' => [.escaped 0x09]
  | '\n' => [.escaped 0x0A]
  | '\x0c' => [.escaped 0x0C]
  | '\r' => [.escaped 0x0D]
  | other =>
    if other.toNat < 0x20 then [.codeUnit other.toNat]
    else (Utf8.encodeChar other).map .octet

section Strings

variable {rest after : List UInt8} {parts : List StringPart}

theorem stringParts?_plain {octet : UInt8} (noQuote : octet ≠ 0x22) (noBackslash : octet ≠ 0x5C)
    (noControl : ¬octet < 0x20) (read : stringParts? rest = some (parts, after)) :
    stringParts? (octet :: rest) = some (.octet octet :: parts, after) := by
  rw [stringParts?.eq_def]
  simp [noBackslash, noControl, read]

theorem stringParts?_short {octet value : UInt8} (noNumber : octet ≠ 0x75)
    (short : shortEscape? octet = some value) (read : stringParts? rest = some (parts, after)) :
    stringParts? (0x5C :: octet :: rest) = some (.escaped value :: parts, after) := by
  rw [stringParts?.eq_def]
  simp [noNumber, short, read]

theorem stringParts?_number {first second third fourth : UInt8} {value : Nat}
    (number : codeUnit? first second third fourth = some value)
    (read : stringParts? rest = some (parts, after)) :
    stringParts? (0x5C :: 0x75 :: first :: second :: third :: fourth :: rest) =
      some (.codeUnit value :: parts, after) := by
  rw [stringParts?.eq_def]
  simp [number, read]

private theorem control_digits : ∀ code < 0x20,
    (hexDigit (code / 16)).toNat < 0x80 ∧ (hexDigit (code % 16)).toNat < 0x80 ∧
      codeUnit? 0x30 0x30 (hexDigit (code / 16)).toNat.toUInt8
        (hexDigit (code % 16)).toNat.toUInt8 = some code := by
  decide

private theorem octets_plain {octets : List UInt8}
    (plain : ∀ octet ∈ octets, octet ≠ 0x22 ∧ octet ≠ 0x5C ∧ ¬octet < 0x20)
    (read : stringParts? rest = some (parts, after)) :
    stringParts? (octets ++ rest) = some (octets.map .octet ++ parts, after) := by
  induction octets with
  | nil => exact read
  | cons octet octets ih =>
      obtain ⟨noQuote, noBackslash, noControl⟩ := plain octet List.mem_cons_self
      exact stringParts?_plain noQuote noBackslash noControl
        (ih fun other member => plain other (List.mem_cons_of_mem _ member))

theorem octet_ne_of_toNat_ne {octet other : UInt8} (differs : octet.toNat ≠ other.toNat) :
    octet ≠ other :=
  fun same => differs (congrArg UInt8.toNat same)

private theorem char_plain {char : Char} (noQuote : char ≠ '"') (noBackslash : char ≠ '\\')
    (noControl : ¬char.toNat < 0x20) :
    ∀ octet ∈ Utf8.encodeChar char, octet ≠ 0x22 ∧ octet ≠ 0x5C ∧ ¬octet < 0x20 := by
  intro octet member
  by_cases ascii : char.toNat < 0x80
  · rw [Utf8.encodeChar_ascii ascii, List.mem_singleton] at member
    have code : octet.toNat = char.toNat := by
      rw [member, Utf8.toNat_toUInt8 (by omega)]
    refine ⟨octet_ne_of_toNat_ne ?_, octet_ne_of_toNat_ne ?_, ?_⟩
    · rw [code]
      exact fun same => noQuote (Char.toNat_inj.1 same)
    · rw [code]
      exact fun same => noBackslash (Char.toNat_inj.1 same)
    · rw [UInt8.lt_iff_toNat_lt, code]
      exact noControl
  · have high := Utf8.encodeChar_high (by omega) octet member
    refine ⟨octet_ne_of_toNat_ne ?_, octet_ne_of_toNat_ne ?_, ?_⟩
    · change octet.toNat ≠ 0x22
      omega
    · change octet.toNat ≠ 0x5C
      omega
    · rw [UInt8.lt_iff_toNat_lt]
      change ¬octet.toNat < 0x20
      omega

/-- A written character is cut off as the parts that stand for it. -/
theorem stringParts?_escapeChar (char : Char) (read : stringParts? rest = some (parts, after)) :
    stringParts? ((escapeChar char).flatMap Utf8.encodeChar ++ rest) =
      some (charParts char ++ parts, after) := by
  rw [escapeChar.eq_def, charParts.eq_def]
  split
  · exact stringParts?_short (by decide) rfl read
  · exact stringParts?_short (by decide) rfl read
  · exact stringParts?_short (by decide) rfl read
  · exact stringParts?_short (by decide) rfl read
  · exact stringParts?_short (by decide) rfl read
  · exact stringParts?_short (by decide) rfl read
  · exact stringParts?_short (by decide) rfl read
  · next noQuote noBackslash _ _ _ _ _ =>
    by_cases control : char.toNat < 0x20
    · obtain ⟨high, low, number⟩ := control_digits char.toNat control
      simp only [if_pos control, List.flatMap_cons, List.flatMap_nil, Utf8.encodeChar_ascii high,
        Utf8.encodeChar_ascii low]
      exact stringParts?_number number read
    · simp only [if_neg control, List.flatMap_singleton]
      exact octets_plain (char_plain noQuote noBackslash control) read

/-- The parts of a written string end at its closing quote. -/
theorem stringParts?_written (chars : List Char) (rest : List UInt8) :
    stringParts? ((chars.flatMap escapeChar).flatMap Utf8.encodeChar ++ 0x22 :: rest) =
      some (chars.flatMap charParts, rest) := by
  induction chars with
  | nil => rfl
  | cons char chars ih =>
      rw [List.flatMap_cons, List.flatMap_append, List.append_assoc]
      exact stringParts?_escapeChar char ih

end Strings

theorem partOctets?_codeUnit {value : Nat} (noSurrogate : ¬(0xD800 ≤ value ∧ value ≤ 0xDFFF))
    (parts : List StringPart) :
    partOctets? (.codeUnit value :: parts) =
      (partOctets? parts).map (Utf8.encodeChar (Char.ofNat value) ++ ·) := by
  cases parts with
  | nil => simp [partOctets?, noSurrogate]
  | cons part parts =>
      cases part with
      | codeUnit low =>
          rw [partOctets?, if_neg (by omega), if_neg noSurrogate]
      | octet _ | escaped _ => simp [partOctets?, noSurrogate]

private theorem partOctets?_octets (octets : List UInt8) (parts : List StringPart) :
    partOctets? (octets.map .octet ++ parts) = (partOctets? parts).map (octets ++ ·) := by
  induction octets with
  | nil => simp
  | cons octet octets ih =>
      rw [List.map_cons, List.cons_append, partOctets?, ih, Option.map_map]
      rfl

/-- The parts that stand for a character have its octets. -/
theorem partOctets?_charParts (char : Char) (parts : List StringPart) :
    partOctets? (charParts char ++ parts) =
      (partOctets? parts).map (Utf8.encodeChar char ++ ·) := by
  rw [charParts.eq_def]
  split
  · rfl
  · rfl
  · rfl
  · rfl
  · rfl
  · rfl
  · rfl
  · split
    · next control =>
      rw [List.singleton_append, partOctets?_codeUnit (by omega), Char.ofNat_toNat]
    · exact partOctets?_octets (Utf8.encodeChar char) parts

/-- The lexeme of a written string. -/
def stringLexeme (text : String) : Lexeme :=
  .string (text.toList.flatMap charParts)

theorem textOf?_written (text : String) :
    textOf? (text.toList.flatMap charParts) = some text := by
  have octets (chars : List Char) :
      partOctets? (chars.flatMap charParts) = some (chars.flatMap Utf8.encodeChar) := by
    induction chars with
    | nil => rfl
    | cons char chars ih =>
        rw [List.flatMap_cons, partOctets?_charParts, ih]
        rfl
  rw [textOf?, octets]
  exact Utf8.decode?_encode text

/-- Text that is cut into certain lexemes, whatever stands behind it. -/
structure Spells (chars : List Char) (written : List Lexeme) : Prop where
  cut : ∀ fuel rest,
    lexemesWithin (written.length + fuel) (chars.flatMap Utf8.encodeChar ++ rest) =
      written ++ lexemesWithin fuel rest
  length_le : written.length ≤ (chars.flatMap Utf8.encodeChar).length

namespace Spells

theorem append {first second : List Char} {before after : List Lexeme}
    (spellsFirst : Spells first before) (spellsSecond : Spells second after) :
    Spells (first ++ second) (before ++ after) where
  cut fuel rest := by
    rw [List.flatMap_append, List.append_assoc, List.length_append, Nat.add_assoc,
      spellsFirst.cut, spellsSecond.cut, List.append_assoc]
  length_le := by
    rw [List.flatMap_append, List.length_append, List.length_append]
    exact Nat.add_le_add spellsFirst.length_le spellsSecond.length_le

private theorem of_lexeme? {chars : List Char} {lexeme : Lexeme} {octet : UInt8}
    {octets : List UInt8} (encoded : chars.flatMap Utf8.encodeChar = octet :: octets)
    (noSpace : isSpace octet = false)
    (read : ∀ rest, lexeme? (octet :: (octets ++ rest)) = some (lexeme, rest)) :
    Spells chars [lexeme] where
  cut fuel rest := by
    rw [encoded, List.cons_append, List.length_singleton, Nat.add_comm, lexemesWithin,
      List.dropWhile_cons_of_neg (by simp [noSpace])]
    simp only [read, List.singleton_append]
  length_le := by
    rw [encoded]
    exact Nat.le_add_left 1 octets.length

theorem leftBrace : Spells ['\x7b'] [.leftBrace] :=
  of_lexeme? rfl rfl fun _ => rfl

theorem rightBrace : Spells ['\x7d'] [.rightBrace] :=
  of_lexeme? rfl rfl fun _ => rfl

theorem leftBracket : Spells ['['] [.leftBracket] :=
  of_lexeme? rfl rfl fun _ => rfl

theorem rightBracket : Spells [']'] [.rightBracket] :=
  of_lexeme? rfl rfl fun _ => rfl

theorem colon : Spells [':'] [.colon] :=
  of_lexeme? rfl rfl fun _ => rfl

theorem comma : Spells [','] [.comma] :=
  of_lexeme? rfl rfl fun _ => rfl

theorem string (text : String) : Spells (Json.string text) [stringLexeme text] := by
  have encoded : (Json.string text).flatMap Utf8.encodeChar =
      0x22 :: ((text.toList.flatMap escapeChar).flatMap Utf8.encodeChar ++ [0x22]) := by
    rw [Json.string, List.cons_append, List.flatMap_cons, List.flatMap_append]
    rfl
  refine of_lexeme? encoded rfl fun rest => ?_
  rw [List.append_assoc]
  change (stringParts? _).map _ = _
  rw [List.singleton_append, stringParts?_written]
  rfl

end Spells

/-- The lexemes of the items of a list up to its end. -/
def itemLexemes : List (List Lexeme) → List Lexeme
  | [] => [.rightBracket]
  | [item] => item ++ [.rightBracket]
  | item :: next :: rest => item ++ .comma :: itemLexemes (next :: rest)

/-- The lexemes of the members of an object up to its end. -/
def memberLexemes : List (String × List Lexeme) → List Lexeme
  | [] => [.rightBrace]
  | [(name, value)] => stringLexeme name :: .colon :: value ++ [.rightBrace]
  | (name, value) :: next :: rest =>
    stringLexeme name :: .colon :: value ++ .comma :: memberLexemes (next :: rest)

theorem spells_items {α : Type} (value : α → Value) (written : α → List Lexeme) (items : List α)
    (spells : ∀ item ∈ items, Spells (value item).compactChars (written item)) :
    Spells (compactItems (items.map value)) (itemLexemes (items.map written)) := by
  induction items with
  | nil => exact .rightBracket
  | cons item rest ih =>
      have first := spells item List.mem_cons_self
      have later := ih fun other member => spells other (List.mem_cons_of_mem _ member)
      cases rest with
      | nil => exact first.append .rightBracket
      | cons next rest => exact first.append (Spells.comma.append later)

theorem spells_members {α : Type} (value : α → String × Value)
    (written : α → String × List Lexeme) (members : List α)
    (sameName : ∀ member ∈ members, (value member).1 = (written member).1)
    (spells : ∀ member ∈ members, Spells (value member).2.compactChars (written member).2) :
    Spells (compactMembers (members.map value)) (memberLexemes (members.map written)) := by
  induction members with
  | nil => exact .rightBrace
  | cons member rest ih =>
      have name : Spells (Json.string (value member).1) [stringLexeme (written member).1] :=
        sameName member List.mem_cons_self ▸ .string _
      have first := name.append (Spells.colon.append (spells member List.mem_cons_self))
      have later := ih (fun other listed => sameName other (List.mem_cons_of_mem _ listed))
        fun other listed => spells other (List.mem_cons_of_mem _ listed)
      cases rest with
      | nil => simpa [compactMembers, memberLexemes] using first.append .rightBrace
      | cons next rest =>
          simpa [compactMembers, memberLexemes] using first.append (Spells.comma.append later)

end PositionSync.Json
