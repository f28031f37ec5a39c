import Mathlib.Data.List.TakeWhile
import Mathlib.Tactic.SplitIfs
import PositionSync.Proofs.Json.Lexemes

/-!
# How lexemes are spelled

The spelling of each kind of lexeme is given by rules of its own.  A reader that always cuts off as much
as it can agrees with them, since only a number can be continued by what stands behind it, and no value
puts one number directly behind another.
-/

namespace PositionSync.Json

/-- The octets that may stand between lexemes. -/
def IsBlank (octets : List UInt8) : Prop :=
  ∀ octet ∈ octets, octet = 0x20 ∨ octet = 0x09 ∨ octet = 0x0A ∨ octet = 0x0D

inductive IsHexDigit : UInt8 → Nat → Prop
  | decimal {value : Nat} (below : value < 10) : IsHexDigit (0x30 + value).toUInt8 value
  | capital {value : Nat} (below : value < 6) : IsHexDigit (0x41 + value).toUInt8 (10 + value)
  | small {value : Nat} (below : value < 6) : IsHexDigit (0x61 + value).toUInt8 (10 + value)

/-- The octets that may stand behind a backslash, and those that they stand for. -/
def shortEscapes : List (UInt8 × UInt8) :=
  [(0x22, 0x22), (0x5C, 0x5C), (0x2F, 0x2F), (0x62, 0x08), (0x66, 0x0C), (0x6E, 0x0A), (0x72, 0x0D),
    (0x74, 0x09)]

/-- How the parts of a string are spelled, one after the other. -/
inductive PartsSpelled : List StringPart → List UInt8 → Prop
  | nil : PartsSpelled [] []
  | octet {octet : UInt8} {parts : List StringPart} {octets : List UInt8} (noQuote : octet ≠ 0x22)
      (noBackslash : octet ≠ 0x5C) (noControl : ¬octet < 0x20) (later : PartsSpelled parts octets) :
      PartsSpelled (.octet octet :: parts) (octet :: octets)
  | short {letter value : UInt8} {parts : List StringPart} {octets : List UInt8}
      (listed : (letter, value) ∈ shortEscapes) (later : PartsSpelled parts octets) :
      PartsSpelled (.escaped value :: parts) (0x5C :: letter :: octets)
  | number {one two three four : UInt8} {first second third fourth : Nat} {parts : List StringPart}
      {octets : List UInt8} (isFirst : IsHexDigit one first) (isSecond : IsHexDigit two second)
      (isThird : IsHexDigit three third) (isFourth : IsHexDigit four fourth)
      (later : PartsSpelled parts octets) :
      PartsSpelled (.codeUnit (((first * 16 + second) * 16 + third) * 16 + fourth) :: parts)
        (0x5C :: 0x75 :: one :: two :: three :: four :: octets)

section Strings

theorem hexDigit?_eq_some_iff {octet : UInt8} {value : Nat} :
    hexDigit? octet = some value ↔ IsHexDigit octet value := by
  constructor
  · intro read
    rw [hexDigit?] at read
    simp only [UInt8.le_iff_toNat_le, UInt8.reduceToNat] at read
    split at read
    · obtain rfl : octet.toNat - 0x30 = value := Option.some.inj read
      have isDigit : IsHexDigit (0x30 + (octet.toNat - 0x30)).toUInt8 (octet.toNat - 0x30) :=
        .decimal (by omega)
      rwa [Utf8.toUInt8_eq octet (by omega)] at isDigit
    split at read
    · obtain rfl : octet.toNat - 0x41 + 10 = value := Option.some.inj read
      have isDigit : IsHexDigit (0x41 + (octet.toNat - 0x41)).toUInt8 (10 + (octet.toNat - 0x41)) :=
        .capital (by omega)
      rwa [Utf8.toUInt8_eq octet (by omega), Nat.add_comm 10] at isDigit
    split at read
    · obtain rfl : octet.toNat - 0x61 + 10 = value := Option.some.inj read
      have isDigit : IsHexDigit (0x61 + (octet.toNat - 0x61)).toUInt8 (10 + (octet.toNat - 0x61)) :=
        .small (by omega)
      rwa [Utf8.toUInt8_eq octet (by omega), Nat.add_comm 10] at isDigit
    · nomatch read
  · have decimals : ∀ value < 10, hexDigit? (0x30 + value).toUInt8 = some value := by decide
    have capitals : ∀ value < 6, hexDigit? (0x41 + value).toUInt8 = some (10 + value) := by decide
    have smalls : ∀ value < 6, hexDigit? (0x61 + value).toUInt8 = some (10 + value) := by decide
    rintro (below | below | below)
    · exact decimals _ below
    · exact capitals _ below
    · exact smalls _ below

theorem codeUnit?_eq_some_iff {one two three four : UInt8} {value : Nat} :
    codeUnit? one two three four = some value ↔ ∃ first second third fourth, IsHexDigit one first ∧
      IsHexDigit two second ∧ IsHexDigit three third ∧ IsHexDigit four fourth ∧
      ((first * 16 + second) * 16 + third) * 16 + fourth = value := by
  simp only [codeUnit?, Option.bind_eq_bind, Option.bind_eq_some_iff, hexDigit?_eq_some_iff,
    Option.pure_def, Option.some.injEq]
  constructor
  · rintro ⟨first, isFirst, second, isSecond, third, isThird, fourth, isFourth, same⟩
    exact ⟨first, second, third, fourth, isFirst, isSecond, isThird, isFourth, same⟩
  · rintro ⟨first, second, third, fourth, isFirst, isSecond, isThird, isFourth, same⟩
    exact ⟨first, isFirst, second, isSecond, third, isThird, fourth, isFourth, same⟩

theorem shortEscape?_eq_some_iff {letter value : UInt8} :
    shortEscape? letter = some value ↔ (letter, value) ∈ shortEscapes := by
  constructor
  · intro read
    rw [shortEscape?] at read
    split_ifs at read with isSame
    · cases read
      rcases isSame with rfl | rfl | rfl <;> simp [shortEscapes]
    all_goals
      cases read
      simp_all [shortEscapes]
  · intro listed
    simp only [shortEscapes, List.mem_cons, Prod.mk.injEq, List.not_mem_nil, or_false] at listed
    rcases listed with ⟨rfl, rfl⟩ | ⟨rfl, rfl⟩ | ⟨rfl, rfl⟩ | ⟨rfl, rfl⟩ | ⟨rfl, rfl⟩ |
      ⟨rfl, rfl⟩ | ⟨rfl, rfl⟩ | ⟨rfl, rfl⟩ <;> rfl

theorem PartsSpelled.read {parts : List StringPart} {octets : List UInt8}
    (spelled : PartsSpelled parts octets) (after : List UInt8) :
    stringParts? (octets ++ 0x22 :: after) = some (parts, after) := by
  induction spelled with
  | nil => rfl
  | octet noQuote noBackslash noControl _ ih =>
      exact stringParts?_plain noQuote noBackslash noControl ih
  | @short letter value _ _ listed _ ih =>
      have noNumber : letter ≠ 0x75 := by
        rintro rfl
        simp [shortEscapes] at listed
      exact stringParts?_short noNumber (shortEscape?_eq_some_iff.2 listed) ih
  | number isFirst isSecond isThird isFourth _ ih =>
      exact stringParts?_number (codeUnit?_eq_some_iff.2
        ⟨_, _, _, _, isFirst, isSecond, isThird, isFourth, rfl⟩) ih

theorem exists_partsSpelled {text after : List UInt8} {parts : List StringPart}
    (read : stringParts? text = some (parts, after)) :
    ∃ octets, PartsSpelled parts octets ∧ text = octets ++ 0x22 :: after := by
  fun_induction stringParts? text generalizing parts with
  | case1 => nomatch read
  | case2 rest =>
      cases read
      exact ⟨[], .nil, rfl⟩
  | case3 one two three four rest ih =>
      obtain ⟨value, isUnit, readRest⟩ := Option.bind_eq_some_iff.1 read
      obtain ⟨⟨later, behind⟩, readLater, same⟩ := Option.bind_eq_some_iff.1 readRest
      cases same
      obtain ⟨octets, spelled, rfl⟩ := ih readLater
      obtain ⟨_, _, _, _, isFirst, isSecond, isThird, isFourth, rfl⟩ := codeUnit?_eq_some_iff.1 isUnit
      exact ⟨_, .number isFirst isSecond isThird isFourth spelled, rfl⟩
  | case4 letter rest _ ih =>
      obtain ⟨value, isShort, readRest⟩ := Option.bind_eq_some_iff.1 read
      obtain ⟨⟨later, behind⟩, readLater, same⟩ := Option.bind_eq_some_iff.1 readRest
      cases same
      obtain ⟨octets, spelled, rfl⟩ := ih readLater
      exact ⟨_, .short (shortEscape?_eq_some_iff.1 isShort) spelled, rfl⟩
  | case5 => nomatch read
  | case6 octet rest noQuote _ _ plain ih =>
      obtain ⟨⟨later, behind⟩, readLater, same⟩ := Option.bind_eq_some_iff.1 read
      cases same
      obtain ⟨octets, spelled, rfl⟩ := ih readLater
      rw [not_or] at plain
      exact ⟨_, .octet noQuote plain.2 plain.1 spelled, rfl⟩

end Strings

/-- Digits as they are spelled. -/
def decimals (digits : List Nat) : List UInt8 := digits.map fun digit => (0x30 + digit).toUInt8

def AreDigits (digits : List Nat) : Prop := ∀ digit ∈ digits, digit < 10

/-- The whole part of a number: no zero stands in front of other digits. -/
inductive IsWhole : List Nat → Prop
  | zero : IsWhole [0]
  | positive {first : Nat} {later : List Nat} (nonzero : first ≠ 0) (digits : AreDigits (first :: later)) :
      IsWhole (first :: later)

inductive FractionSpelled : Option (List Nat) → List UInt8 → Prop
  | none : FractionSpelled none []
  | some {digits : List Nat} (nonempty : digits ≠ []) (areDigits : AreDigits digits) :
      FractionSpelled (some digits) (0x2E :: decimals digits)

/-- The sign of an exponent: a plus may be left out. -/
inductive SignSpelled : Bool → List UInt8 → Prop
  | minus : SignSpelled true [0x2D]
  | plus : SignSpelled false [0x2B]
  | none : SignSpelled false []

inductive ExponentSpelled : Option (Bool × List Nat) → List UInt8 → Prop
  | none : ExponentSpelled none []
  | some {letter : UInt8} {negative : Bool} {sign : List UInt8} {digits : List Nat}
      (isLetter : letter = 0x65 ∨ letter = 0x45) (isSign : SignSpelled negative sign)
      (nonempty : digits ≠ []) (areDigits : AreDigits digits) :
      ExponentSpelled (some (negative, digits)) (letter :: (sign ++ decimals digits))

/-- A number behind its sign. -/
inductive MagnitudeSpelled : Numeral → List UInt8 → Prop
  | mk (negative : Bool) {whole : List Nat} {fraction : Option (List Nat)}
      {exponent : Option (Bool × List Nat)} {fractionOctets exponentOctets : List UInt8}
      (isWhole : IsWhole whole) (isFraction : FractionSpelled fraction fractionOctets)
      (isExponent : ExponentSpelled exponent exponentOctets) :
      MagnitudeSpelled ⟨negative, whole, fraction, exponent⟩
        (decimals whole ++ (fractionOctets ++ exponentOctets))

section Numbers

/-- What stands behind digits that are cut off: no further digit. -/
def EndsDigits (text : List UInt8) : Prop :=
  ∀ octet behind, text = octet :: behind → decimalDigit? octet = none

/-- What stands behind a number that is cut off: nothing that would go on with it. -/
def EndsNumber (text : List UInt8) : Prop :=
  ∀ octet behind, text = octet :: behind →
    decimalDigit? octet = none ∧ octet ≠ 0x2E ∧ octet ≠ 0x65 ∧ octet ≠ 0x45

theorem endsNumber_cons_iff {octet : UInt8} {behind : List UInt8} : EndsNumber (octet :: behind) ↔
    decimalDigit? octet = none ∧ octet ≠ 0x2E ∧ octet ≠ 0x65 ∧ octet ≠ 0x45 :=
  ⟨fun ends => ends octet behind rfl, fun ends _ _ same => List.head_eq_of_cons_eq same ▸ ends⟩

theorem decimalDigit?_eq_some_iff {octet : UInt8} {digit : Nat} :
    decimalDigit? octet = some digit ↔ digit < 10 ∧ octet = (0x30 + digit).toUInt8 := by
  constructor
  · intro read
    rw [decimalDigit?] at read
    simp only [UInt8.le_iff_toNat_le, UInt8.reduceToNat] at read
    split at read
    · obtain rfl : octet.toNat - 0x30 = digit := Option.some.inj read
      exact ⟨by omega, (Utf8.toUInt8_eq octet (by omega)).symm⟩
    · nomatch read
  · have digits : ∀ digit < 10, decimalDigit? (0x30 + digit).toUInt8 = some digit := by decide
    rintro ⟨below, rfl⟩
    exact digits digit below

theorem takeDigits_decimals {digits : List Nat} (areDigits : AreDigits digits) {rest : List UInt8}
    (ends : EndsDigits rest) : takeDigits (decimals digits ++ rest) = (digits, rest) := by
  induction digits with
  | nil =>
      rcases rest with _ | ⟨octet, behind⟩
      · rfl
      · have noDigit := ends octet behind rfl
        simp only [decimals, List.map_nil, List.nil_append, takeDigits, noDigit]
  | cons digit digits ih =>
      obtain ⟨isDigit, areLater⟩ := List.forall_mem_cons.1 areDigits
      have read : decimalDigit? (0x30 + digit).toUInt8 = some digit :=
        decimalDigit?_eq_some_iff.2 ⟨isDigit, rfl⟩
      have later := ih areLater
      simp only [decimals] at later
      simp only [decimals, List.map_cons, List.cons_append, takeDigits, read, later]

theorem takeDigits_sound (text : List UInt8) :
    text = decimals (takeDigits text).1 ++ (takeDigits text).2 ∧ AreDigits (takeDigits text).1 := by
  induction text with
  | nil => exact ⟨rfl, List.forall_mem_nil _⟩
  | cons octet rest ih =>
      rw [takeDigits]
      split
      · next digit isDigit =>
        obtain ⟨below, rfl⟩ := decimalDigit?_eq_some_iff.1 isDigit
        exact ⟨congrArg (_ :: ·) ih.1, List.forall_mem_cons.2 ⟨below, ih.2⟩⟩
      · exact ⟨rfl, List.forall_mem_nil _⟩

theorem IsWhole.areDigits {whole : List Nat} (isWhole : IsWhole whole) : AreDigits whole := by
  cases isWhole with
  | zero => simp [AreDigits]
  | positive _ digits => exact digits

theorem wholePart?_eq_some {whole : List Nat} {rest : List UInt8} (isWhole : IsWhole whole)
    (ends : EndsDigits rest) : wholePart? (decimals whole ++ rest) = some (whole, rest) := by
  rw [wholePart?, takeDigits_decimals isWhole.areDigits ends]
  cases isWhole with
  | zero => rfl
  | @positive first later nonzero digits =>
      rcases later with _ | ⟨second, later⟩
      · rfl
      · rcases first with _ | first
        · exact absurd rfl nonzero
        · rfl

theorem wholePart?_sound {text rest : List UInt8} {whole : List Nat}
    (read : wholePart? text = some (whole, rest)) :
    IsWhole whole ∧ text = decimals whole ++ rest := by
  obtain ⟨spelled, areDigits⟩ := takeDigits_sound text
  rw [wholePart?] at read
  split at read
  · nomatch read
  · next digit behind taken =>
    cases read
    rw [taken] at spelled areDigits
    refine ⟨?_, spelled⟩
    by_cases isZero : digit = 0
    · exact isZero ▸ .zero
    · exact .positive isZero areDigits
  · nomatch read
  · next digits behind nonempty notAlone noZero taken =>
    cases read
    rw [taken] at spelled areDigits
    refine ⟨?_, spelled⟩
    rcases whole with _ | ⟨first, _ | ⟨second, later⟩⟩
    · exact absurd rfl nonempty
    · exact absurd rfl (notAlone first)
    · exact .positive (fun isZero => noZero second later (by rw [isZero])) areDigits

theorem FractionSpelled.endsDigits {fraction : Option (List Nat)} {octets rest : List UInt8}
    (spelled : FractionSpelled fraction octets) (ends : EndsDigits rest) : EndsDigits (octets ++ rest) := by
  cases spelled with
  | none => exact ends
  | some _ _ =>
      rintro octet behind same
      rw [← List.head_eq_of_cons_eq same]
      decide

theorem ExponentSpelled.endsDigits {exponent : Option (Bool × List Nat)} {octets rest : List UInt8}
    (spelled : ExponentSpelled exponent octets) (ends : EndsDigits rest) : EndsDigits (octets ++ rest) := by
  cases spelled with
  | none => exact ends
  | some isLetter _ _ _ =>
      rintro octet behind same
      rw [← List.head_eq_of_cons_eq same]
      rcases isLetter with rfl | rfl <;> decide

theorem fractionPart?_eq_some {fraction : Option (List Nat)} {octets rest : List UInt8}
    (spelled : FractionSpelled fraction octets) (ends : EndsDigits rest)
    (noPoint : ∀ behind, rest ≠ 0x2E :: behind) :
    fractionPart? (octets ++ rest) = some (fraction, rest) := by
  cases spelled with
  | none =>
      rw [List.nil_append, fractionPart?.eq_def]
      split
      · exact absurd rfl (noPoint _)
      · rfl
  | @some digits nonempty areDigits =>
      rw [List.cons_append, fractionPart?, takeDigits_decimals areDigits ends]
      rcases digits with _ | ⟨first, later⟩
      · exact absurd rfl nonempty
      · rfl

theorem fractionPart?_sound {fraction : Option (List Nat)} {text rest : List UInt8}
    (read : fractionPart? text = some (fraction, rest)) :
    ∃ octets, FractionSpelled fraction octets ∧ text = octets ++ rest := by
  rw [fractionPart?.eq_def] at read
  split at read
  · next text =>
    obtain ⟨spelled, areDigits⟩ := takeDigits_sound text
    split at read
    · nomatch read
    · next digits behind nonempty taken =>
      cases read
      rw [taken] at spelled areDigits
      exact ⟨_, .some nonempty areDigits, congrArg (_ :: ·) spelled⟩
  · cases read
    exact ⟨[], .none, rfl⟩

theorem exponentSign_sound (text : List UInt8) : ∃ octets,
    SignSpelled (exponentSign text).1 octets ∧ text = octets ++ (exponentSign text).2 := by
  rw [exponentSign.eq_def]
  split
  · exact ⟨_, .plus, rfl⟩
  · exact ⟨_, .minus, rfl⟩
  · exact ⟨_, .none, rfl⟩

theorem exponentSign_eq {negative : Bool} {octets : List UInt8} (spelled : SignSpelled negative octets)
    {digits : List Nat} (nonempty : digits ≠ []) (areDigits : AreDigits digits) (rest : List UInt8) :
    exponentSign (octets ++ (decimals digits ++ rest)) = (negative, decimals digits ++ rest) := by
  cases spelled with
  | minus => rfl
  | plus => rfl
  | none =>
      obtain ⟨first, later, rfl⟩ := List.exists_cons_of_ne_nil nonempty
      have noSign : ∀ digit < 10, (0x30 + digit).toUInt8 ≠ 0x2B ∧ (0x30 + digit).toUInt8 ≠ 0x2D := by
        decide
      obtain ⟨noPlus, noMinus⟩ := noSign first (areDigits first List.mem_cons_self)
      rw [List.nil_append, exponentSign.eq_def]
      split
      · next same => exact absurd (List.head_eq_of_cons_eq same) noPlus
      · next same => exact absurd (List.head_eq_of_cons_eq same) noMinus
      · rfl

theorem exponentPart?_eq_some {exponent : Option (Bool × List Nat)} {octets rest : List UInt8}
    (spelled : ExponentSpelled exponent octets) (ends : EndsNumber rest) :
    exponentPart? (octets ++ rest) = some (exponent, rest) := by
  cases spelled with
  | none =>
      rcases rest with _ | ⟨octet, behind⟩
      · rfl
      · obtain ⟨-, -, noSmall, noCapital⟩ := ends octet behind rfl
        rw [List.nil_append, exponentPart?, if_neg (not_or.2 ⟨noSmall, noCapital⟩)]
  | @some letter negative sign digits isLetter isSign nonempty areDigits =>
      have taken := takeDigits_decimals areDigits fun octet behind same => (ends octet behind same).1
      rw [List.cons_append, List.append_assoc, exponentPart?, if_pos isLetter,
        exponentSign_eq isSign nonempty areDigits, taken]
      rcases digits with _ | ⟨first, later⟩
      · exact absurd rfl nonempty
      · rfl

theorem exponentPart?_sound {exponent : Option (Bool × List Nat)} {text rest : List UInt8}
    (read : exponentPart? text = some (exponent, rest)) :
    ∃ octets, ExponentSpelled exponent octets ∧ text = octets ++ rest := by
  rw [exponentPart?.eq_def] at read
  split at read
  · cases read
    exact ⟨[], .none, rfl⟩
  · next octet text =>
    split at read
    · next isLetter =>
      obtain ⟨sign, isSign, spelledSign⟩ := exponentSign_sound text
      obtain ⟨spelled, areDigits⟩ := takeDigits_sound (exponentSign text).2
      split at read
      · nomatch read
      · next digits behind nonempty taken =>
        cases read
        rw [taken] at spelled areDigits
        refine ⟨_, .some isLetter isSign nonempty areDigits, ?_⟩
        rw [List.cons_append, List.append_assoc, ← spelled, ← spelledSign]
    · cases read
      exact ⟨[], .none, rfl⟩

theorem numeral?_eq_some {numeral : Numeral} {octets rest : List UInt8}
    (spelled : MagnitudeSpelled numeral octets) (ends : EndsNumber rest) :
    numeral? numeral.negative (octets ++ rest) = some (numeral, rest) := by
  obtain @⟨negative, _, _, _, _, exponentOctets, isWhole, isFraction, isExponent⟩ := spelled
  have endsDigits : EndsDigits rest := fun octet behind same => (ends octet behind same).1
  have endsFraction := isExponent.endsDigits endsDigits
  have noPoint : ∀ behind, exponentOctets ++ rest ≠ 0x2E :: behind := by
    intro behind same
    cases isExponent with
    | none => exact (ends _ behind same).2.1 rfl
    | some isLetter _ _ _ =>
        have isPoint := List.head_eq_of_cons_eq same
        rcases isLetter with rfl | rfl <;> exact absurd isPoint (by decide)
  rw [List.append_assoc, List.append_assoc, numeral?,
    wholePart?_eq_some isWhole (isFraction.endsDigits endsFraction)]
  change (fractionPart? _ >>= _) = _
  rw [fractionPart?_eq_some isFraction endsFraction noPoint]
  change (exponentPart? _ >>= _) = _
  rw [exponentPart?_eq_some isExponent ends]
  rfl

theorem numeral?_sound {negative : Bool} {numeral : Numeral} {text rest : List UInt8}
    (read : numeral? negative text = some (numeral, rest)) : numeral.negative = negative ∧
      ∃ octets, MagnitudeSpelled numeral octets ∧ text = octets ++ rest := by
  obtain ⟨⟨whole, behindWhole⟩, readWhole, readLater⟩ := Option.bind_eq_some_iff.1 read
  obtain ⟨⟨fraction, behindFraction⟩, readFraction, readLast⟩ := Option.bind_eq_some_iff.1 readLater
  obtain ⟨⟨exponent, behind⟩, readExponent, finished⟩ := Option.bind_eq_some_iff.1 readLast
  cases finished
  obtain ⟨isWhole, rfl⟩ := wholePart?_sound readWhole
  obtain ⟨fractionOctets, isFraction, rfl⟩ := fractionPart?_sound readFraction
  obtain ⟨exponentOctets, isExponent, rfl⟩ := exponentPart?_sound readExponent
  refine ⟨rfl, _, .mk negative isWhole isFraction isExponent, ?_⟩
  simp only [List.append_assoc]

end Numbers

/-- How a lexeme is spelled. -/
inductive Lexeme.IsSpelled : Lexeme → List UInt8 → Prop
  | leftBrace : IsSpelled .leftBrace [0x7B]
  | rightBrace : IsSpelled .rightBrace [0x7D]
  | leftBracket : IsSpelled .leftBracket [0x5B]
  | rightBracket : IsSpelled .rightBracket [0x5D]
  | colon : IsSpelled .colon [0x3A]
  | comma : IsSpelled .comma [0x2C]
  | null : IsSpelled .null [0x6E, 0x75, 0x6C, 0x6C]
  | boolTrue : IsSpelled (.boolean true) [0x74, 0x72, 0x75, 0x65]
  | boolFalse : IsSpelled (.boolean false) [0x66, 0x61, 0x6C, 0x73, 0x65]
  | string {parts : List StringPart} {octets : List UInt8} (spelled : PartsSpelled parts octets) :
      IsSpelled (.string parts) (0x22 :: (octets ++ [0x22]))
  | positive {numeral : Numeral} {octets : List UInt8} (isPositive : numeral.negative = false)
      (spelled : MagnitudeSpelled numeral octets) : IsSpelled (.number numeral) octets
  | negative {numeral : Numeral} {octets : List UInt8} (isNegative : numeral.negative = true)
      (spelled : MagnitudeSpelled numeral octets) : IsSpelled (.number numeral) (0x2D :: octets)

/-- A text is spelled by its lexemes with blanks before, between and behind them. -/
inductive Spelled : List Lexeme → List UInt8 → Prop
  | nil {blank : List UInt8} (isBlank : IsBlank blank) : Spelled [] blank
  | cons {blank octets rest : List UInt8} {lexeme : Lexeme} {later : List Lexeme}
      (isBlank : IsBlank blank) (isSpelled : lexeme.IsSpelled octets) (spelled : Spelled later rest) :
      Spelled (lexeme :: later) (blank ++ (octets ++ rest))

section Lexemes

theorem MagnitudeSpelled.exists_digit {numeral : Numeral} {octets : List UInt8}
    (spelled : MagnitudeSpelled numeral octets) :
    ∃ digit behind, digit < 10 ∧ octets = (0x30 + digit).toUInt8 :: behind := by
  obtain ⟨_, isWhole, _, _⟩ := spelled
  cases isWhole with
  | zero => exact ⟨0, _, by omega, rfl⟩
  | @positive first later _ digits => exact ⟨first, _, digits first List.mem_cons_self, rfl⟩

private theorem lexeme?_digit : ∀ {digit : Nat} (_ : digit < 10) (behind : List UInt8),
    lexeme? ((0x30 + digit).toUInt8 :: behind) =
      (numeral? false ((0x30 + digit).toUInt8 :: behind)).map
        fun (numeral, after) => (.number numeral, after)
  | 0, _, _ | 1, _, _ | 2, _, _ | 3, _, _ | 4, _, _ | 5, _, _ | 6, _, _ | 7, _, _ | 8, _, _
  | 9, _, _ => rfl

/-- A lexeme is cut off a text, provided that a number ends where its spelling does. -/
theorem Lexeme.IsSpelled.read {lexeme : Lexeme} {octets after : List UInt8}
    (spelled : lexeme.IsSpelled octets)
    (ends : ∀ numeral, lexeme = .number numeral → EndsNumber after) :
    lexeme? (octets ++ after) = some (lexeme, after) := by
  cases spelled with
  | string spelled =>
      rw [List.cons_append, List.append_assoc, lexeme?, List.singleton_append, spelled.read]
      rfl
  | @positive numeral octets isPositive spelled =>
      have read := numeral?_eq_some spelled (ends numeral rfl)
      obtain ⟨digit, behind, isDigit, rfl⟩ := spelled.exists_digit
      rw [isPositive] at read
      rw [List.cons_append] at read ⊢
      rw [lexeme?_digit isDigit, read]
      rfl
  | @negative numeral octets isNegative spelled =>
      have read := numeral?_eq_some spelled (ends numeral rfl)
      rw [isNegative] at read
      rw [List.cons_append, lexeme?, read]
      rfl
  | _ => rfl

theorem lexeme?_sound {text after : List UInt8} {lexeme : Lexeme}
    (read : lexeme? text = some (lexeme, after)) :
    ∃ octets, lexeme.IsSpelled octets ∧ text = octets ++ after := by
  rw [lexeme?.eq_def] at read
  split at read
  · nomatch read
  · cases read
    exact ⟨_, .leftBrace, rfl⟩
  · cases read
    exact ⟨_, .rightBrace, rfl⟩
  · cases read
    exact ⟨_, .leftBracket, rfl⟩
  · cases read
    exact ⟨_, .rightBracket, rfl⟩
  · cases read
    exact ⟨_, .colon, rfl⟩
  · cases read
    exact ⟨_, .comma, rfl⟩
  · obtain ⟨⟨parts, behind⟩, readParts, same⟩ := Option.map_eq_some_iff.1 read
    cases same
    obtain ⟨octets, spelled, rfl⟩ := exists_partsSpelled readParts
    exact ⟨_, .string spelled, by simp⟩
  · cases read
    exact ⟨_, .null, rfl⟩
  · cases read
    exact ⟨_, .boolTrue, rfl⟩
  · cases read
    exact ⟨_, .boolFalse, rfl⟩
  · obtain ⟨⟨numeral, behind⟩, readNumeral, same⟩ := Option.map_eq_some_iff.1 read
    cases same
    obtain ⟨isNegative, octets, spelled, rfl⟩ := numeral?_sound readNumeral
    exact ⟨_, .negative isNegative spelled, rfl⟩
  · obtain ⟨⟨numeral, behind⟩, readNumeral, same⟩ := Option.map_eq_some_iff.1 read
    cases same
    obtain ⟨isPositive, octets, spelled, rfl⟩ := numeral?_sound readNumeral
    exact ⟨_, .positive isPositive spelled, rfl⟩

/-- No lexeme begins with a blank, and a number is continued by a number only. -/
theorem Lexeme.IsSpelled.exists_head {lexeme : Lexeme} {octets : List UInt8}
    (spelled : lexeme.IsSpelled octets) : ∃ octet behind, octets = octet :: behind ∧
      isSpace octet = false ∧
      ((∀ numeral, lexeme ≠ .number numeral) → ∀ rest, EndsNumber (octet :: rest)) := by
  cases spelled with
  | positive isPositive spelled =>
      obtain ⟨digit, behind, isDigit, rfl⟩ := spelled.exists_digit
      have noSpace : ∀ digit < 10, isSpace (0x30 + digit).toUInt8 = false := by decide
      exact ⟨_, behind, rfl, noSpace digit isDigit, fun noNumber => absurd rfl (noNumber _)⟩
  | negative isNegative spelled => exact ⟨_, _, rfl, rfl, fun noNumber => absurd rfl (noNumber _)⟩
  | _ => exact ⟨_, _, rfl, rfl, fun _ _ => endsNumber_cons_iff.2 (by decide)⟩

theorem IsBlank.isSpace {blank : List UInt8} (isBlank : IsBlank blank) :
    ∀ octet ∈ blank, isSpace octet = true := by
  intro octet member
  rcases isBlank octet member with rfl | rfl | rfl | rfl <;> rfl

theorem isBlank_takeWhile (text : List UInt8) : IsBlank (text.takeWhile isSpace) := by
  intro octet member
  have space := List.mem_takeWhile_imp member
  simp only [isSpace, Bool.or_eq_true, decide_eq_true_eq, or_assoc] at space
  exact space

/-- Behind a number there is its end, unless another number follows. -/
theorem Spelled.endsNumber {lexemes : List Lexeme} {octets : List UInt8}
    (spelled : Spelled lexemes octets)
    (noNumber : ∀ numeral behind, lexemes ≠ .number numeral :: behind) : EndsNumber octets := by
  have endsBlank {blank : List UInt8} (isBlank : IsBlank blank) {octet : UInt8} {behind : List UInt8}
      (begins : blank = octet :: behind) (rest : List UInt8) : EndsNumber (octet :: rest) := by
    apply endsNumber_cons_iff.2
    rcases isBlank octet (begins ▸ List.mem_cons_self) with rfl | rfl | rfl | rfl <;> decide
  cases spelled with
  | nil isBlank =>
      rcases octets with _ | ⟨octet, behind⟩
      · exact nofun
      · exact endsBlank isBlank rfl behind
  | @cons blank octets rest lexeme later isBlank isSpelled _ =>
      rcases blank with _ | ⟨octet, behind⟩
      · obtain ⟨octet, behind, rfl, -, ends⟩ := isSpelled.exists_head
        exact ends (fun numeral same => noNumber numeral later (by rw [same])) (behind ++ rest)
      · exact endsBlank isBlank rfl _

/-- No lexeme is malformed, and no number stands directly behind another. -/
def IsOrderly : List Lexeme → Prop
  | [] => True
  | .malformed :: _ => False
  | .number _ :: rest => (∀ numeral behind, rest ≠ .number numeral :: behind) ∧ IsOrderly rest
  | _ :: rest => IsOrderly rest

theorem IsOrderly.malformed_notMem {lexemes : List Lexeme} (orderly : IsOrderly lexemes) :
    .malformed ∉ lexemes := by
  induction lexemes with
  | nil => exact List.not_mem_nil
  | cons lexeme rest ih =>
      rw [List.mem_cons, not_or]
      cases lexeme with
      | malformed => nomatch orderly
      | number => exact ⟨nofun, ih orderly.2⟩
      | _ => exact ⟨nofun, ih orderly⟩

theorem Spelled.lexemesWithin_eq {lexemes : List Lexeme} {octets : List UInt8}
    (spelled : Spelled lexemes octets) (orderly : IsOrderly lexemes) (fuel : Nat)
    (enough : octets.length ≤ fuel) : lexemesWithin fuel octets = lexemes := by
  induction spelled generalizing fuel with
  | @nil blank isBlank =>
      rcases fuel with _ | fuel
      · rfl
      · rw [lexemesWithin, List.dropWhile_eq_nil_iff.2 isBlank.isSpace]
  | @cons blank octets rest lexeme later isBlank isSpelled spelled ih =>
      obtain ⟨octet, behind, rfl, noSpace, -⟩ := isSpelled.exists_head
      rcases fuel with _ | fuel
      · simp at enough
      have orderlyLater : IsOrderly later := by
        cases lexeme with
        | malformed => cases isSpelled
        | number => exact orderly.2
        | _ => exact orderly
      have ends : ∀ numeral, lexeme = .number numeral → EndsNumber rest := by
        rintro numeral rfl
        exact spelled.endsNumber orderly.1
      have read := isSpelled.read ends
      simp only [List.length_append, List.length_cons] at enough
      rw [lexemesWithin, List.dropWhile_append_of_pos isBlank.isSpace, List.cons_append,
        List.dropWhile_cons_of_neg (by simp [noSpace])]
      rw [List.cons_append] at read
      simp only [read]
      rw [ih orderlyLater fuel (by omega)]

theorem spelled_lexemesWithin (fuel : Nat) (text : List UInt8) (enough : text.length ≤ fuel)
    (noMalformed : .malformed ∉ lexemesWithin fuel text) : Spelled (lexemesWithin fuel text) text := by
  induction fuel generalizing text with
  | zero =>
      obtain rfl := List.length_eq_zero_iff.1 (Nat.le_zero.1 enough)
      exact .nil (List.forall_mem_nil _)
  | succ fuel ih =>
      have isBlank := isBlank_takeWhile text
      have whole := List.takeWhile_append_dropWhile (p := isSpace) (l := text)
      rw [lexemesWithin] at noMalformed ⊢
      split at noMalformed
      · next isEnd =>
        rw [isEnd, List.append_nil] at whole
        exact .nil (whole ▸ isBlank)
      · next octet rest begins =>
        split at noMalformed
        · exact absurd List.mem_cons_self noMalformed
        · next lexeme after read =>
          obtain ⟨octets, isSpelled, spelled⟩ := lexeme?_sound read
          obtain ⟨first, behind, rfl, -⟩ := isSpelled.exists_head
          have isShort : after.length ≤ fuel := by
            rw [← whole, begins, spelled] at enough
            simp only [List.length_append, List.length_cons] at enough
            omega
          have later := ih after isShort fun member => noMalformed (List.mem_cons_of_mem _ member)
          rw [begins, spelled] at whole
          rw [← whole]
          exact .cons isBlank isSpelled later

end Lexemes

end PositionSync.Json
