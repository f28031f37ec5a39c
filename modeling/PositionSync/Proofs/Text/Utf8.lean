import PositionSync.Text.Utf8

/-!
# Written texts are read back

A written character brings the reader from one place between characters to the next one, whatever
stands behind it.  So the octets of a text are well formed, and reading them gives the text.  The other
way round, octets that are read without a broken sequence begin with the octets of a character.
-/

namespace PositionSync.Utf8

theorem toNat_toUInt8 {value : Nat} (small : value < 256) : value.toUInt8.toNat = value := by
  change value % 256 = value
  exact Nat.mod_eq_of_lt small

private theorem start_two : ∀ lead < 0x20, 2 ≤ lead →
    start (0xC0 + lead).toUInt8 = ([], .within 1 0x80 0xBF lead) := by
  decide

private theorem start_three : ∀ lead < 0x10,
    start (0xE0 + lead).toUInt8 = ([], .within 2 (if lead = 0 then 0xA0 else 0x80)
      (if lead = 0xD then 0x9F else 0xBF) lead) := by
  decide

private theorem start_four : ∀ lead < 5,
    start (0xF0 + lead).toUInt8 = ([], .within 3 (if lead = 0 then 0x90 else 0x80)
      (if lead = 4 then 0x8F else 0xBF) lead) := by
  decide

private theorem tail_between (lowest highest : UInt8) (tail : Nat) (small : tail < 0x40)
    (above : lowest.toNat ≤ 0x80 + tail) (below : 0x80 + tail ≤ highest.toNat) :
    (lowest ≤ (0x80 + tail).toUInt8 ∧ (0x80 + tail).toUInt8 ≤ highest) ∧
      (0x80 + tail).toUInt8.toNat - 0x80 = tail := by
  have octet : (0x80 + tail).toUInt8.toNat = 0x80 + tail := toNat_toUInt8 (by omega)
  rw [UInt8.le_iff_toNat_le, UInt8.le_iff_toNat_le, octet]
  exact ⟨⟨above, below⟩, by omega⟩

private theorem step_more (more : Nat) (lowest highest : UInt8) (value tail : Nat)
    (small : tail < 0x40) (above : lowest.toNat ≤ 0x80 + tail)
    (below : 0x80 + tail ≤ highest.toNat) :
    step (.within (more + 2) lowest highest value) (0x80 + tail).toUInt8 =
      ([], .within (more + 1) 0x80 0xBF (value * 0x40 + tail)) := by
  obtain ⟨between, bits⟩ := tail_between lowest highest tail small above below
  simp only [step, if_pos between, bits]

private theorem step_last (value tail : Nat) (small : tail < 0x40) :
    step (.within 1 0x80 0xBF value) (0x80 + tail).toUInt8 =
      ([some (Char.ofNat (value * 0x40 + tail))], .idle) := by
  obtain ⟨between, bits⟩ := tail_between 0x80 0xBF tail small (by simp) (by simp; omega)
  simp only [step, if_pos between, bits]

theorem piecesFrom_cons (state : State) (octet : UInt8) (rest : List UInt8) :
    piecesFrom state (octet :: rest) =
      (step state octet).1 ++ piecesFrom (step state octet).2 rest := by
  cases state <;> rfl

private theorem step_idle (octet : UInt8) : step .idle octet = start octet :=
  rfl

private theorem surrogates_excluded (char : Char) : char.toNat < 0xD800 ∨ 0xDFFF < char.toNat := by
  have valid := char.valid
  have same : char.toNat = char.val.toNat := rfl
  simp only [UInt32.isValidChar, Nat.isValidChar] at valid
  omega

theorem code_bound (char : Char) : char.toNat < 0x110000 := by
  have valid := char.valid
  have same : char.toNat = char.val.toNat := rfl
  simp only [UInt32.isValidChar, Nat.isValidChar] at valid
  omega

theorem encodeChar_ascii {char : Char} (ascii : char.toNat < 0x80) :
    encodeChar char = [char.toNat.toUInt8] := by
  rw [encodeChar, if_pos ascii]

/-- The octets of a character beyond ASCII are all high. -/
theorem encodeChar_high {char : Char} (high : 0x80 ≤ char.toNat) :
    ∀ octet ∈ encodeChar char, 0x80 ≤ octet.toNat := by
  have bound : char.toNat < 0x110000 := code_bound char
  intro octet member
  rw [encodeChar, if_neg (by omega)] at member
  split at member
  · simp only [List.mem_cons, List.not_mem_nil, or_false] at member
    rcases member with rfl | rfl <;> rw [toNat_toUInt8 (by omega)] <;> omega
  split at member
  · simp only [List.mem_cons, List.not_mem_nil, or_false] at member
    rcases member with rfl | rfl | rfl <;> rw [toNat_toUInt8 (by omega)] <;> omega
  · simp only [List.mem_cons, List.not_mem_nil, or_false] at member
    rcases member with rfl | rfl | rfl | rfl <;> rw [toNat_toUInt8 (by omega)] <;> omega

/-- An octet of ASCII stands for itself alone. -/
theorem toNat_eq_of_mem_encodeChar {char : Char} {octet : UInt8} (member : octet ∈ encodeChar char)
    (ascii : octet.toNat < 0x80) : char.toNat = octet.toNat := by
  by_cases low : char.toNat < 0x80
  · rw [encodeChar_ascii low, List.mem_singleton] at member
    rw [member, toNat_toUInt8 (by omega)]
  · exact absurd (encodeChar_high (by omega) octet member) (by omega)

private theorem pieces_one (char : Char) (rest : List UInt8) (range : char.toNat < 0x80) :
    piecesFrom .idle (encodeChar char ++ rest) = some char :: piecesFrom .idle rest := by
  have octet : char.toNat.toUInt8.toNat = char.toNat := toNat_toUInt8 (by omega)
  have ascii : char.toNat.toUInt8 < 0x80 := by
    rw [UInt8.lt_iff_toNat_lt, octet]
    exact range
  have whole : start char.toNat.toUInt8 = ([some char], .idle) := by
    rw [start, if_pos ascii, octet, Char.ofNat_toNat]
  rw [encodeChar, if_pos range]
  simp only [List.cons_append, List.nil_append, piecesFrom_cons, step_idle, whole]

private theorem pieces_two (char : Char) (rest : List UInt8) (above : 0x80 ≤ char.toNat)
    (below : char.toNat < 0x800) :
    piecesFrom .idle (encodeChar char ++ rest) = some char :: piecesFrom .idle rest := by
  have lead := start_two (char.toNat / 0x40) (by omega) (by omega)
  have last := step_last (char.toNat / 0x40) (char.toNat % 0x40) (by omega)
  have code : char.toNat / 0x40 * 0x40 + char.toNat % 0x40 = char.toNat := by omega
  rw [code] at last
  rw [encodeChar, if_neg (by omega), if_pos below]
  simp only [List.cons_append, List.nil_append, piecesFrom_cons, step_idle, lead, last,
    Char.ofNat_toNat]

private theorem pieces_three (char : Char) (rest : List UInt8) (above : 0x800 ≤ char.toNat)
    (below : char.toNat < 0x10000) :
    piecesFrom .idle (encodeChar char ++ rest) = some char :: piecesFrom .idle rest := by
  have lead := start_three (char.toNat / 0x1000) (by omega)
  have surrogates := surrogates_excluded char
  have next := step_more 0 (if char.toNat / 0x1000 = 0 then 0xA0 else 0x80)
    (if char.toNat / 0x1000 = 0xD then 0x9F else 0xBF) (char.toNat / 0x1000)
    (char.toNat / 0x40 % 0x40) (by omega) (by split <;> simp; omega) (by split <;> simp <;> omega)
  have last := step_last (char.toNat / 0x1000 * 0x40 + char.toNat / 0x40 % 0x40)
    (char.toNat % 0x40) (by omega)
  have code : (char.toNat / 0x1000 * 0x40 + char.toNat / 0x40 % 0x40) * 0x40 +
      char.toNat % 0x40 = char.toNat := by omega
  rw [code] at last
  rw [encodeChar, if_neg (by omega), if_neg (by omega), if_pos below]
  simp only [List.cons_append, List.nil_append, piecesFrom_cons, step_idle, lead, next, last,
    Char.ofNat_toNat]

private theorem pieces_four (char : Char) (rest : List UInt8) (above : 0x10000 ≤ char.toNat) :
    piecesFrom .idle (encodeChar char ++ rest) = some char :: piecesFrom .idle rest := by
  have bound := code_bound char
  have lead := start_four (char.toNat / 0x40000) (by omega)
  have second := step_more 1 (if char.toNat / 0x40000 = 0 then 0x90 else 0x80)
    (if char.toNat / 0x40000 = 4 then 0x8F else 0xBF) (char.toNat / 0x40000)
    (char.toNat / 0x1000 % 0x40) (by omega) (by split <;> simp; omega)
    (by split <;> simp <;> omega)
  have third := step_more 0 0x80 0xBF
    (char.toNat / 0x40000 * 0x40 + char.toNat / 0x1000 % 0x40) (char.toNat / 0x40 % 0x40)
    (by omega) (by simp) (by simp; omega)
  have last := step_last
    ((char.toNat / 0x40000 * 0x40 + char.toNat / 0x1000 % 0x40) * 0x40 +
      char.toNat / 0x40 % 0x40) (char.toNat % 0x40) (by omega)
  have code : ((char.toNat / 0x40000 * 0x40 + char.toNat / 0x1000 % 0x40) * 0x40 +
      char.toNat / 0x40 % 0x40) * 0x40 + char.toNat % 0x40 = char.toNat := by omega
  rw [code] at last
  rw [encodeChar, if_neg (by omega), if_neg (by omega), if_neg (by omega)]
  simp only [List.cons_append, List.nil_append, piecesFrom_cons, step_idle, lead, second, third, last,
    Char.ofNat_toNat]

/-- A written character is read, and reading goes on between two characters. -/
theorem piecesFrom_encodeChar (char : Char) (rest : List UInt8) :
    piecesFrom .idle (encodeChar char ++ rest) = some char :: piecesFrom .idle rest := by
  by_cases one : char.toNat < 0x80
  · exact pieces_one char rest one
  by_cases two : char.toNat < 0x800
  · exact pieces_two char rest (by omega) two
  by_cases three : char.toNat < 0x10000
  · exact pieces_three char rest (by omega) three
  exact pieces_four char rest (by omega)

theorem piecesFrom_flatMap_encodeChar (chars : List Char) (rest : List UInt8) :
    piecesFrom .idle (chars.flatMap encodeChar ++ rest) =
      chars.map some ++ piecesFrom .idle rest := by
  induction chars with
  | nil => rfl
  | cons char chars ih =>
      rw [List.flatMap_cons, List.append_assoc, piecesFrom_encodeChar, ih]
      rfl

/-- The octets of characters are read back. -/
theorem chars?_encodeChars (chars : List Char) : chars? (encodeChars chars) = some chars := by
  have pieces := piecesFrom_flatMap_encodeChar chars []
  rw [List.append_nil] at pieces
  have whole : (chars.map some).mapM id = some chars := by
    clear pieces
    induction chars with
    | nil => rfl
    | cons char chars ih => simp [ih]
  rw [chars?, encodeChars, pieces]
  simp [piecesFrom, whole]

/-- The octets of a text are read back. -/
theorem decode?_encode (text : String) : decode? (encode text) = some text := by
  rw [decode?, encode, chars?_encodeChars, Option.map_some, String.ofList_toList]

/-- The number of a character is its own, unless it is one of the surrogates or too large. -/
theorem toNat_ofNat (code : Nat) (valid : code < 0xD800 ∨ 0xDFFF < code ∧ code < 0x110000) :
    (Char.ofNat code).toNat = code := by
  have isValid : code.isValidChar := by
    simp only [Nat.isValidChar]
    omega
  rw [Char.ofNat, dif_pos isValid]
  rfl

theorem toUInt8_eq {value : Nat} (octet : UInt8) (same : value = octet.toNat) :
    value.toUInt8 = octet := by
  rw [same, ← UInt8.toNat_inj, toNat_toUInt8 (UInt8.toNat_lt octet)]

/-- An octet that goes on with a character. -/
def IsTail (octet : UInt8) : Prop := 0x80 ≤ octet.toNat ∧ octet.toNat ≤ 0xBF

section Sequences

variable {lead second third fourth : UInt8}

private theorem encodeChar_of_two (high : 0xC2 ≤ lead.toNat) (low : lead.toNat < 0xE0)
    (isTail : IsTail second) :
    encodeChar (Char.ofNat ((lead.toNat - 0xC0) * 0x40 + (second.toNat - 0x80))) =
      [lead, second] := by
  unfold IsTail at isTail
  have code := toNat_ofNat ((lead.toNat - 0xC0) * 0x40 + (second.toNat - 0x80)) (by omega)
  rw [encodeChar, code, if_neg (by omega), if_pos (by omega), toUInt8_eq lead (by omega),
    toUInt8_eq second (by omega)]

private theorem encodeChar_of_three (high : 0xE0 ≤ lead.toNat) (low : lead.toNat < 0xF0)
    (isTail : IsTail second) (longEnough : lead.toNat = 0xE0 → 0xA0 ≤ second.toNat)
    (noSurrogate : lead.toNat = 0xED → second.toNat ≤ 0x9F) (isLast : IsTail third) :
    encodeChar (Char.ofNat (((lead.toNat - 0xE0) * 0x40 + (second.toNat - 0x80)) * 0x40 +
      (third.toNat - 0x80))) = [lead, second, third] := by
  unfold IsTail at isTail isLast
  have code := toNat_ofNat (((lead.toNat - 0xE0) * 0x40 + (second.toNat - 0x80)) * 0x40 +
    (third.toNat - 0x80)) (by omega)
  rw [encodeChar, code, if_neg (by omega), if_neg (by omega), if_pos (by omega),
    toUInt8_eq lead (by omega), toUInt8_eq second (by omega),
    toUInt8_eq third (by omega)]

private theorem encodeChar_of_four (high : 0xF0 ≤ lead.toNat) (low : lead.toNat < 0xF5)
    (isTail : IsTail second) (longEnough : lead.toNat = 0xF0 → 0x90 ≤ second.toNat)
    (inRange : lead.toNat = 0xF4 → second.toNat ≤ 0x8F) (isNext : IsTail third)
    (isLast : IsTail fourth) :
    encodeChar (Char.ofNat ((((lead.toNat - 0xF0) * 0x40 + (second.toNat - 0x80)) * 0x40 +
      (third.toNat - 0x80)) * 0x40 + (fourth.toNat - 0x80))) = [lead, second, third, fourth] := by
  unfold IsTail at isTail isNext isLast
  have code := toNat_ofNat ((((lead.toNat - 0xF0) * 0x40 + (second.toNat - 0x80)) * 0x40 +
    (third.toNat - 0x80)) * 0x40 + (fourth.toNat - 0x80)) (by omega)
  rw [encodeChar, code, if_neg (by omega), if_neg (by omega), if_neg (by omega),
    toUInt8_eq lead (by omega), toUInt8_eq second (by omega),
    toUInt8_eq third (by omega), toUInt8_eq fourth (by omega)]

/-- A character that is not broken goes on within its bounds. -/
private theorem exists_tail {missing value : Nat} {lowest highest : UInt8} {octets : List UInt8}
    (whole : none ∉ piecesFrom (.within missing lowest highest value) octets) :
    ∃ octet rest, octets = octet :: rest ∧ lowest.toNat ≤ octet.toNat ∧
      octet.toNat ≤ highest.toNat ∧
      (∀ more, missing = more + 2 →
        none ∉ piecesFrom (.within (more + 1) 0x80 0xBF (value * 0x40 + (octet.toNat - 0x80))) rest) := by
  rcases octets with _ | ⟨octet, rest⟩
  · exact absurd List.mem_cons_self whole
  rw [piecesFrom_cons, step] at whole
  split at whole
  · next between =>
    refine ⟨octet, rest, rfl, UInt8.le_iff_toNat_le.1 between.1, UInt8.le_iff_toNat_le.1 between.2, ?_⟩
    rintro more rfl
    simpa using whole
  · exact absurd (List.mem_append_left _ List.mem_cons_self) whole

private theorem exists_two {rest : List UInt8} (high : 0xC2 ≤ lead.toNat) (low : lead.toNat < 0xE0)
    (whole : none ∉ piecesFrom (.within 1 0x80 0xBF (lead.toNat - 0xC0)) rest) :
    ∃ char behind, lead :: rest = encodeChar char ++ behind := by
  obtain ⟨second, behind, rfl, above, below, -⟩ := exists_tail whole
  exact ⟨_, behind, by rw [encodeChar_of_two high low ⟨above, below⟩]; rfl⟩

private theorem exists_three {value : Nat} {lowest highest : UInt8} {rest : List UInt8}
    (high : 0xE0 ≤ lead.toNat) (low : lead.toNat < 0xF0)
    (bounds : 0x80 ≤ lowest.toNat ∧ highest.toNat ≤ 0xBF)
    (longEnough : lead.toNat = 0xE0 → 0xA0 ≤ lowest.toNat)
    (noSurrogate : lead.toNat = 0xED → highest.toNat ≤ 0x9F)
    (whole : none ∉ piecesFrom (.within 2 lowest highest value) rest) :
    ∃ char behind, lead :: rest = encodeChar char ++ behind := by
  obtain ⟨second, rest, rfl, above, below, whole⟩ := exists_tail whole
  obtain ⟨third, behind, rfl, aboveLast, belowLast, -⟩ := exists_tail (whole 0 rfl)
  have isTail : IsTail second := ⟨by omega, by omega⟩
  have encoded := encodeChar_of_three high low isTail (by omega) (by omega) ⟨aboveLast, belowLast⟩
  exact ⟨_, behind, by rw [encoded]; rfl⟩

private theorem exists_four {value : Nat} {lowest highest : UInt8} {rest : List UInt8}
    (high : 0xF0 ≤ lead.toNat) (low : lead.toNat < 0xF5)
    (bounds : 0x80 ≤ lowest.toNat ∧ highest.toNat ≤ 0xBF)
    (longEnough : lead.toNat = 0xF0 → 0x90 ≤ lowest.toNat)
    (inRange : lead.toNat = 0xF4 → highest.toNat ≤ 0x8F)
    (whole : none ∉ piecesFrom (.within 3 lowest highest value) rest) :
    ∃ char behind, lead :: rest = encodeChar char ++ behind := by
  obtain ⟨second, rest, rfl, above, below, whole⟩ := exists_tail whole
  obtain ⟨third, rest, rfl, aboveNext, belowNext, whole⟩ := exists_tail (whole 1 rfl)
  obtain ⟨fourth, behind, rfl, aboveLast, belowLast, -⟩ := exists_tail (whole 0 rfl)
  have isTail : IsTail second := ⟨by omega, by omega⟩
  have encoded := encodeChar_of_four high low isTail (by omega) (by omega) ⟨aboveNext, belowNext⟩
    ⟨aboveLast, belowLast⟩
  exact ⟨_, behind, by rw [encoded]; rfl⟩

/-- Octets in which no sequence is broken begin with a character. -/
theorem exists_encodeChar {octets : List UInt8} (nonempty : octets ≠ [])
    (whole : none ∉ piecesFrom .idle octets) :
    ∃ char rest, octets = encodeChar char ++ rest := by
  obtain ⟨lead, rest, rfl⟩ := List.exists_cons_of_ne_nil nonempty
  rw [piecesFrom_cons, step, start] at whole
  simp only [UInt8.lt_iff_toNat_lt, ← UInt8.toNat_inj, UInt8.reduceToNat] at whole
  split at whole
  · next ascii =>
    refine ⟨Char.ofNat lead.toNat, rest, ?_⟩
    have code := toNat_ofNat (lead.toNat) (by omega)
    rw [encodeChar, code, if_pos ascii, toUInt8_eq lead rfl]
    rfl
  split at whole
  · exact absurd (List.mem_append_left _ List.mem_cons_self) whole
  split at whole
  · exact exists_two (by omega) (by omega) whole
  split at whole
  · exact exists_three (by omega) (by omega) (by simp) (by simp) (by omega) whole
  split at whole
  · exact exists_three (by omega) (by omega) (by simp) (by omega) (by simp) whole
  split at whole
  · exact exists_three (by omega) (by omega) (by simp) (by omega) (by omega) whole
  split at whole
  · exact exists_four (by omega) (by omega) (by simp) (by simp) (by omega) whole
  split at whole
  · exact exists_four (by omega) (by omega) (by simp) (by omega) (by omega) whole
  split at whole
  · exact exists_four (by omega) (by omega) (by simp) (by omega) (by simp) whole
  · exact absurd (List.mem_append_left _ List.mem_cons_self) whole

end Sequences

/-- Only the first octet of a character can begin one. -/
theorem exists_lead_of_encodeChar (char : Char) : ∃ lead tail, encodeChar char = lead :: tail ∧
    ¬IsTail lead ∧ ∀ octet ∈ tail, IsTail octet := by
  have bound := code_bound char
  have isTail (bits : Nat) : IsTail (0x80 + bits % 0x40).toUInt8 := by
    rw [IsTail, toNat_toUInt8 (by omega)]
    omega
  have isLead {value : Nat} (small : value < 256) (noTail : value < 0x80 ∨ 0xBF < value) :
      ¬IsTail value.toUInt8 := by
    rw [IsTail, toNat_toUInt8 small]
    omega
  rw [encodeChar]
  split
  · exact ⟨_, _, rfl, isLead (by omega) (by omega), List.forall_mem_nil _⟩
  split
  · refine ⟨_, _, rfl, isLead (by omega) (by omega), ?_⟩
    exact List.forall_mem_singleton.2 (isTail _)
  split
  · refine ⟨_, _, rfl, isLead (by omega) (by omega), ?_⟩
    exact List.forall_mem_cons.2 ⟨isTail _, List.forall_mem_singleton.2 (isTail _)⟩
  · refine ⟨_, _, rfl, isLead (by omega) (by omega), ?_⟩
    exact List.forall_mem_cons.2
      ⟨isTail _, List.forall_mem_cons.2 ⟨isTail _, List.forall_mem_singleton.2 (isTail _)⟩⟩

private theorem mapM_id_eq_some {pieces : List (Option Char)} {chars : List Char} :
    pieces.mapM id = some chars ↔ pieces = chars.map some := by
  induction pieces generalizing chars with
  | nil => cases chars <;> simp
  | cons piece pieces ih =>
      cases piece with
      | none => cases chars <;> simp
      | some first =>
          cases chars with
          | nil => simp [Option.bind_eq_some_iff]
          | cons char chars =>
              simp only [List.mapM_cons, id, Option.bind_eq_bind, Option.bind_some, List.map_cons,
                List.cons.injEq, Option.some.injEq, ← ih]
              cases pieces.mapM id <;> simp

/-- Octets are read as characters if no sequence is broken in them. -/
theorem chars?_eq_some_iff {octets : List UInt8} {chars : List Char} :
    chars? octets = some chars ↔ piecesFrom .idle octets = chars.map some := by
  rw [chars?, mapM_id_eq_some]

theorem chars?_encodeChar_append {char : Char} {octets : List UInt8} {chars : List Char} :
    chars? (encodeChar char ++ octets) = some chars ↔
      ∃ later, chars = char :: later ∧ chars? octets = some later := by
  rw [chars?_eq_some_iff, piecesFrom_encodeChar]
  cases chars with
  | nil => simp
  | cons first later =>
      rw [List.map_cons, List.cons.injEq, Option.some.injEq, ← chars?_eq_some_iff]
      constructor
      · rintro ⟨rfl, read⟩
        exact ⟨later, rfl, read⟩
      · rintro ⟨_, same, read⟩
        cases same
        exact ⟨rfl, read⟩

/-- What is read from octets are characters that they were written for. -/
theorem chars?_of_ne_nil {octets : List UInt8} {chars : List Char} (nonempty : octets ≠ [])
    (read : chars? octets = some chars) : ∃ char rest later, octets = encodeChar char ++ rest ∧
      chars = char :: later ∧ chars? rest = some later := by
  have whole : none ∉ piecesFrom .idle octets := by
    rw [chars?_eq_some_iff.1 read]
    simp
  obtain ⟨char, rest, rfl⟩ := exists_encodeChar nonempty whole
  obtain ⟨later, rfl, readRest⟩ := chars?_encodeChar_append.1 read
  exact ⟨char, rest, later, rfl, rfl, readRest⟩

theorem chars?_eq_some_iff_encodeChars {octets : List UInt8} {chars : List Char} :
    chars? octets = some chars ↔ octets = encodeChars chars := by
  constructor
  · intro read
    induction chars generalizing octets with
    | nil =>
        rcases octets with _ | ⟨octet, octets⟩
        · rfl
        · obtain ⟨_, _, _, -, same, -⟩ := chars?_of_ne_nil (List.cons_ne_nil octet octets) read
          cases same
    | cons char chars ih =>
        have nonempty : octets ≠ [] := by
          rintro rfl
          cases read
        obtain ⟨first, rest, later, rfl, same, readRest⟩ := chars?_of_ne_nil nonempty read
        obtain ⟨rfl, rfl⟩ := List.cons.inj same
        rw [ih readRest, encodeChars, encodeChars, List.flatMap_cons]
  · rintro rfl
    exact chars?_encodeChars chars

end PositionSync.Utf8
