import PositionSync.Proofs.Json.Lexemes

/-!
# What strings stand for

A character of a string is spelled by its octets, by a short escape, by its number, or by the numbers of
two surrogates.  The reader collects octets first and looks for characters in them afterwards.  No
character is put together across an escape that way, since the octets of an escape never go on with a
character that was begun before.
-/

namespace PositionSync.Json

/-- The octet that a part stands for by itself; a code unit stands for none. -/
def StringPart.octet? : StringPart → Option UInt8
  | .octet value | .escaped value => some value
  | .codeUnit _ => none

/-- The characters that the parts of a string stand for. -/
inductive StandFor : List StringPart → List Char → Prop
  | nil : StandFor [] []
  | octets {front rest : List StringPart} {char : Char} {chars : List Char}
      (spelled : front.map StringPart.octet? = (Utf8.encodeChar char).map some)
      (later : StandFor rest chars) : StandFor (front ++ rest) (char :: chars)
  | unit {value : Nat} {rest : List StringPart} {chars : List Char}
      (noSurrogate : ¬(0xD800 ≤ value ∧ value ≤ 0xDFFF)) (later : StandFor rest chars) :
      StandFor (.codeUnit value :: rest) (Char.ofNat value :: chars)
  | pair {high low : Nat} {rest : List StringPart} {chars : List Char}
      (isHigh : 0xD800 ≤ high ∧ high ≤ 0xDBFF) (isLow : 0xDC00 ≤ low ∧ low ≤ 0xDFFF)
      (later : StandFor rest chars) :
      StandFor (.codeUnit high :: .codeUnit low :: rest)
        (Char.ofNat (0x10000 + (high - 0xD800) * 0x400 + (low - 0xDC00)) :: chars)

theorem partOctets?_of_octet? {part : StringPart} {octet : UInt8} (alone : part.octet? = some octet)
    (rest : List StringPart) :
    partOctets? (part :: rest) = (partOctets? rest).map (octet :: ·) := by
  cases part with
  | octet value | escaped value =>
      cases alone
      rw [partOctets?]
  | codeUnit value => cases alone

theorem partOctets?_append {front : List StringPart} {octets : List UInt8}
    (spelled : front.map StringPart.octet? = octets.map some) (rest : List StringPart) :
    partOctets? (front ++ rest) = (partOctets? rest).map (octets ++ ·) := by
  induction front generalizing octets with
  | nil =>
      cases octets with
      | nil => simp
      | cons => nomatch spelled
  | cons part front ih =>
      cases octets with
      | nil => nomatch spelled
      | cons octet octets =>
          rw [List.map_cons, List.map_cons, List.cons.injEq] at spelled
          rw [List.cons_append, partOctets?_of_octet? spelled.1, ih spelled.2, Option.map_map]
          rfl

theorem partOctets?_pair {high low : Nat} (isHigh : 0xD800 ≤ high ∧ high ≤ 0xDBFF)
    (isLow : 0xDC00 ≤ low ∧ low ≤ 0xDFFF) (rest : List StringPart) :
    partOctets? (.codeUnit high :: .codeUnit low :: rest) = (partOctets? rest).map
      (Utf8.encodeChar (Char.ofNat (0x10000 + (high - 0xD800) * 0x400 + (low - 0xDC00))) ++ ·) := by
  rw [partOctets?, if_pos ⟨isHigh.1, isHigh.2, isLow.1, isLow.2⟩]

/-- Characters are read from the parts that stand for them. -/
theorem StandFor.reads {parts : List StringPart} {chars : List Char} (stand : StandFor parts chars) :
    ∃ octets, partOctets? parts = some octets ∧ Utf8.chars? octets = some chars := by
  induction stand with
  | nil => exact ⟨[], rfl, rfl⟩
  | octets spelled _ ih =>
      obtain ⟨octets, read, areChars⟩ := ih
      exact ⟨_, by rw [partOctets?_append spelled, read]; rfl,
        Utf8.chars?_encodeChar_append.2 ⟨_, rfl, areChars⟩⟩
  | unit noSurrogate _ ih =>
      obtain ⟨octets, read, areChars⟩ := ih
      exact ⟨_, by rw [partOctets?_codeUnit noSurrogate, read]; rfl,
        Utf8.chars?_encodeChar_append.2 ⟨_, rfl, areChars⟩⟩
  | pair isHigh isLow _ ih =>
      obtain ⟨octets, read, areChars⟩ := ih
      exact ⟨_, by rw [partOctets?_pair isHigh isLow, read]; rfl,
        Utf8.chars?_encodeChar_append.2 ⟨_, rfl, areChars⟩⟩

/-- A code unit that is read is a character, or one half of a pair that is. -/
theorem partOctets?_codeUnit_eq_some {value : Nat} {rest : List StringPart} {octets : List UInt8}
    (read : partOctets? (.codeUnit value :: rest) = some octets) :
    ∃ char behind more, octets = Utf8.encodeChar char ++ more ∧ partOctets? behind = some more ∧
      behind.length ≤ rest.length ∧
      ∀ chars, StandFor behind chars → StandFor (.codeUnit value :: rest) (char :: chars) := by
  by_cases surrogate : 0xD800 ≤ value ∧ value ≤ 0xDFFF
  · rcases rest with _ | ⟨_ | _ | low, rest⟩
    · simp [partOctets?, surrogate] at read
    · simp [partOctets?, surrogate] at read
    · simp [partOctets?, surrogate] at read
    · by_cases paired : 0xD800 ≤ value ∧ value ≤ 0xDBFF ∧ 0xDC00 ≤ low ∧ low ≤ 0xDFFF
      · have isHigh : 0xD800 ≤ value ∧ value ≤ 0xDBFF := ⟨paired.1, paired.2.1⟩
        rw [partOctets?_pair isHigh paired.2.2, Option.map_eq_some_iff] at read
        obtain ⟨more, readMore, rfl⟩ := read
        exact ⟨_, rest, more, rfl, readMore, Nat.le_succ _,
          fun chars stand => .pair isHigh paired.2.2 stand⟩
      · rw [partOctets?, if_neg paired, if_pos surrogate] at read
        cases read
  · rw [partOctets?_codeUnit surrogate, Option.map_eq_some_iff] at read
    obtain ⟨more, readMore, rfl⟩ := read
    exact ⟨_, rest, more, rfl, readMore, Nat.le_refl _, fun chars stand => .unit surrogate stand⟩

/-- The octets that go on with a character are parts by themselves. -/
theorem exists_parts_of_tail {parts : List StringPart} {tail behind : List UInt8}
    (read : partOctets? parts = some (tail ++ behind)) (tails : ∀ octet ∈ tail, Utf8.IsTail octet) :
    ∃ front back, parts = front ++ back ∧ front.map StringPart.octet? = tail.map some ∧
      partOctets? back = some behind := by
  induction tail generalizing parts with
  | nil => exact ⟨[], parts, rfl, rfl, read⟩
  | cons octet tail ih =>
      rcases parts with _ | ⟨part, parts⟩
      · nomatch read
      cases alone : part.octet? with
      | some value =>
          rw [partOctets?_of_octet? alone, Option.map_eq_some_iff] at read
          obtain ⟨octets, readRest, same⟩ := read
          rw [List.cons_append, List.cons.injEq] at same
          obtain ⟨rfl, rfl⟩ := same
          obtain ⟨front, back, rfl, spelled, readBack⟩ :=
            ih readRest fun other member => tails other (List.mem_cons_of_mem _ member)
          exact ⟨part :: front, back, rfl, by rw [List.map_cons, alone, spelled, List.map_cons], readBack⟩
      | none =>
          cases part with
          | codeUnit value =>
              -- A code unit begins a character of its own, which no further octet of one does.
              obtain ⟨char, _, more, same, -⟩ := partOctets?_codeUnit_eq_some read
              obtain ⟨lead, others, encoded, noTail, -⟩ := Utf8.exists_lead_of_encodeChar char
              rw [encoded, List.cons_append, List.cons_append, List.cons.injEq] at same
              exact absurd (tails octet List.mem_cons_self) (same.1 ▸ noTail)
          | _ => nomatch alone

/-- What is read from the parts of a string is what they stand for. -/
theorem standFor_of_reads : ∀ (parts : List StringPart) {octets : List UInt8} {chars : List Char},
    partOctets? parts = some octets → Utf8.chars? octets = some chars → StandFor parts chars
  | [], octets, chars, read, areChars => by
      cases read
      cases areChars
      exact .nil
  | part :: parts, octets, chars, read, areChars => by
      cases alone : part.octet? with
      | some value =>
          rw [partOctets?_of_octet? alone, Option.map_eq_some_iff] at read
          obtain ⟨octets, readRest, rfl⟩ := read
          -- The first character takes up whole parts, and the rest is read from the parts behind them.
          obtain ⟨char, behind, later, same, rfl, areLater⟩ :=
            Utf8.chars?_of_ne_nil (List.cons_ne_nil value octets) areChars
          obtain ⟨lead, tail, encoded, -, tails⟩ := Utf8.exists_lead_of_encodeChar char
          rw [encoded, List.cons_append, List.cons.injEq] at same
          obtain ⟨rfl, rfl⟩ := same
          obtain ⟨front, back, split, spelled, readBack⟩ := exists_parts_of_tail readRest tails
          have isShort : back.length ≤ parts.length := by
            rw [split, List.length_append]
            omega
          have spelledAll : (part :: front).map StringPart.octet? =
              (Utf8.encodeChar char).map some := by
            rw [List.map_cons, alone, spelled, encoded, List.map_cons]
          rw [split]
          exact StandFor.octets spelledAll (standFor_of_reads back readBack areLater)
      | none =>
          cases part with
          | codeUnit value =>
              obtain ⟨char, behind, more, rfl, readBehind, isShort, stand⟩ :=
                partOctets?_codeUnit_eq_some read
              obtain ⟨later, rfl, areLater⟩ := Utf8.chars?_encodeChar_append.1 areChars
              exact stand later (standFor_of_reads behind readBehind areLater)
          | _ => nomatch alone
termination_by parts => parts.length
decreasing_by
  all_goals
    rw [List.length_cons]
    omega

/-- A string has a text if its parts stand for the characters of this text, and else none. -/
theorem textOf?_eq_some_iff {parts : List StringPart} {text : String} :
    textOf? parts = some text ↔ StandFor parts text.toList := by
  rw [textOf?, Option.bind_eq_some_iff]
  constructor
  · rintro ⟨octets, read, decoded⟩
    rw [Utf8.decode?, Option.map_eq_some_iff] at decoded
    obtain ⟨chars, areChars, rfl⟩ := decoded
    rw [String.toList_ofList]
    exact standFor_of_reads parts read areChars
  · intro stand
    obtain ⟨octets, read, areChars⟩ := stand.reads
    refine ⟨octets, read, ?_⟩
    rw [Utf8.decode?, areChars, Option.map_some, String.ofList_toList]

end PositionSync.Json
