import PositionSync.Decimal.Unsigned

/-!
# Unsigned numbers are read back

Reading digits from the left builds up the number that they stand for, and no number on the way is
larger than the last one. So a number that is allowed is read back from its decimal text.
-/

namespace PositionSync.Decimal

theorem digit?_of_isDigit {char : Char} (isDigit : char.isDigit = true) :
    digit? char = some (char.toNat - '0'.toNat) := by
  simp only [Char.isDigit, Bool.and_eq_true, decide_eq_true_eq] at isDigit
  exact if_pos isDigit

theorem isDigit_of_mem_toDigits {number : Nat} {digit : Char}
    (member : digit ∈ Nat.toDigits 10 number) : digit.isDigit = true :=
  Nat.isDigit_of_mem_toDigits (by decide) (by decide) member

theorem le_ofDigitChars (digits : List Char) (number : Nat) :
    number ≤ Nat.ofDigitChars 10 digits number := by
  rw [Nat.ofDigitChars_eq_ofDigitChars_zero]
  have positive : 0 < 10 ^ digits.length := Nat.pow_pos (by decide)
  have scaled : number ≤ 10 ^ digits.length * number := Nat.le_mul_of_pos_left number positive
  omega

theorem readDigits_of_digits {largest number : Nat} {digits : List Char}
    (allDigits : ∀ digit ∈ digits, digit.isDigit = true)
    (fits : Nat.ofDigitChars 10 digits number ≤ largest) :
    readDigits largest number digits = .ok (Nat.ofDigitChars 10 digits number) := by
  induction digits generalizing number with
  | nil => rfl
  | cons digit rest ih =>
      rw [Nat.ofDigitChars_cons, Nat.mul_comm 10 number] at fits ⊢
      have fitsNow : number * 10 + (digit.toNat - '0'.toNat) ≤ largest :=
        Nat.le_trans (le_ofDigitChars rest _) fits
      rw [readDigits, digit?_of_isDigit (allDigits digit List.mem_cons_self)]
      simp only [if_pos fitsNow]
      exact ih (fun other member => allDigits other (List.mem_cons_of_mem _ member)) fits

/-- A number that is not too large is read back. -/
theorem parse_render {largest number : Nat} (fits : number ≤ largest) :
    parse largest (render number) = .ok number := by
  have allDigits : ∀ digit ∈ Nat.toDigits 10 number, digit.isDigit = true :=
    fun _ => isDigit_of_mem_toDigits
  have digitsFit : Nat.ofDigitChars 10 (Nat.toDigits 10 number) 0 ≤ largest := by simpa using fits
  have read := readDigits_of_digits allDigits digitsFit
  rw [Nat.ofDigitChars_ten_toDigits] at read
  rw [parse, render, Nat.toList_repr]
  cases digits : Nat.toDigits 10 number with
  | nil => exact absurd digits Nat.toDigits_ne_nil
  | cons digit rest =>
      rw [digits] at read allDigits
      have noSign : digit ≠ '+' := by
        rintro rfl
        nomatch allDigits '+' List.mem_cons_self
      split
      · next none => nomatch none
      · next sign => exact absurd (List.cons.inj sign).1 noSign
      · next rest' sign => exact absurd (List.cons.inj sign).1 noSign
      · exact read

end PositionSync.Decimal
