import PositionSync.Proofs.Json.Decoding

/-!
# Which numbers are unsigned

A number without sign, fraction and exponent means what its digits stand for, and it is taken off as an
unsigned number if this fits into 32 bits. While digits are read, only those are kept that fit into 64
bits, so that no digit of such a number gets lost.
-/

namespace PositionSync.Json

/-- What digits stand for that follow a number. -/
def numberOf (value : Nat) (digits : List Nat) : Nat :=
  digits.foldl (fun value digit => value * 10 + digit) value

theorem numberOf_cons (value digit : Nat) (rest : List Nat) :
    numberOf value (digit :: rest) = numberOf (value * 10 + digit) rest :=
  rfl

theorem le_numberOf (value : Nat) (digits : List Nat) : value ≤ numberOf value digits := by
  induction digits generalizing value with
  | nil => exact Nat.le_refl value
  | cons digit rest ih =>
      have later := ih (value * 10 + digit)
      rw [numberOf_cons]
      omega

theorem appendDigits_of_fits {value : Nat} {power : Int} {digits : List Nat}
    (fits : numberOf value digits < 0x10000000000000000) :
    appendDigits 0 ⟨value, power⟩ digits = (⟨numberOf value digits, power⟩, []) := by
  induction digits generalizing value with
  | nil => rfl
  | cons digit rest ih =>
      rw [numberOf_cons] at fits
      have fitsNow := Nat.lt_of_le_of_lt (le_numberOf (value * 10 + digit) rest) fits
      rw [appendDigits, if_pos fitsNow, Int.add_zero, ih fits, numberOf_cons]

/-- Digits of which none is left stand for the number that has been read. -/
theorem digits_appendDigits {scaled : Scaled} {digits : List Nat}
    (complete : (appendDigits 0 scaled digits).2 = []) :
    (appendDigits 0 scaled digits).1.digits = numberOf scaled.digits digits := by
  induction digits generalizing scaled with
  | nil => rfl
  | cons digit rest ih =>
      rw [appendDigits] at complete ⊢
      split at complete
      · next fits =>
        rw [if_pos fits, ih complete, numberOf_cons]
      · cases complete

theorem value?_of_fits {whole : List Nat} (fits : numberOf 0 whole < 0x10000000000000000) :
    Numeral.value? ⟨false, whole, none, none⟩ = some (.whole (numberOf 0 whole)) := by
  simp [Numeral.value?, Numeral.scaled, appendDigits_of_fits fits, appendDigits]

/-- No floating point number is a whole one. -/
theorem map_signedFloat_ne_whole (negative : Bool) (magnitude : Option Float) (value : Nat) :
    magnitude.map (signedFloat negative) ≠ some (.whole value) := by
  cases magnitude with
  | none => simp
  | some magnitude => simp [signedFloat]

theorem value?_eq_whole {numeral : Numeral} {value : Nat}
    (isWhole : numeral.value? = some (.whole value)) :
    numeral = ⟨false, numeral.whole, none, none⟩ ∧ value = numberOf 0 numeral.whole := by
  obtain ⟨negative, whole, fraction, exponent⟩ := numeral
  cases exponent with
  | some parts =>
      obtain ⟨shrinks, digits⟩ := parts
      simp only [Numeral.value?] at isWhole
      split at isWhole
      · exact absurd isWhole (map_signedFloat_ne_whole _ _ _)
      · split at isWhole
        · cases isWhole
        · simp [signedFloat] at isWhole
  | none =>
      simp only [Numeral.value?] at isWhole
      split at isWhole
      · exact absurd isWhole (map_signedFloat_ne_whole _ _ _)
      · next plain =>
        rw [not_or] at plain
        obtain ⟨noFraction, complete⟩ := plain
        obtain rfl : fraction = none := by simpa using noFraction
        split at isWhole
        · next noSign =>
          cases isWhole
          obtain rfl : negative = false := noSign
          refine ⟨rfl, digits_appendDigits ?_⟩
          simpa [Numeral.scaled] using complete
        · split at isWhole
          · cases isWhole
          · simp [signedFloat] at isWhole

inductive Tree.IsUnsigned32 : Tree → Nat → Prop
  | number {whole : List Nat} (fits : numberOf 0 whole < 0x100000000) :
      IsUnsigned32 (.number ⟨false, whole, none, none⟩) (numberOf 0 whole)

theorem Decodes.unsigned32 : Decodes unsigned32 Tree.IsUnsigned32 where
  complete {tree value} isUnsigned rest := by
    obtain ⟨fits⟩ := isUnsigned
    rw [Tree.lexemes, List.singleton_append, Json.unsigned32, value?_of_fits (by omega)]
    exact if_pos fits
  sound {lexemes value rest} read := by
    rw [unsigned32.eq_def] at read
    split at read
    · next numeral behind =>
      split at read
      · next found isWhole =>
        split at read
        · next fits =>
          cases read
          obtain ⟨plain, rfl⟩ := value?_eq_whole isWhole
          refine ⟨.number numeral, rfl, ?_⟩
          rw [plain]
          exact .number fits
        · cases read
      · cases read
      · cases read
    · cases read

end PositionSync.Json
