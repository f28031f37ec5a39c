import PositionSync.Time.Timestamp

/-!
# Written points in time are accepted

A written point in time is read part by part. Every number is written with as many digits as are read,
and none of the characters is white space, so no part runs into the next one.
-/

namespace PositionSync.Timestamp

theorem isWhiteSpace_of_isDigit {char : Char} (isDigit : char.isDigit = true) :
    Text.isWhiteSpace char = false := by
  simp only [Char.isDigit, Bool.and_eq_true, decide_eq_true_eq, UInt32.le_iff_toNat_le] at isDigit
  have between : 48 ≤ char.toNat ∧ char.toNat ≤ 57 := isDigit
  simp only [Text.isWhiteSpace, Bool.or_eq_false_iff, Bool.and_eq_false_iff,
    decide_eq_false_iff_not]
  omega

section Padded

variable (width number : Nat)

theorem isDigit_of_mem_padded : ∀ digit ∈ padded width number, digit.isDigit = true := by
  intro digit member
  rcases List.mem_append.1 member with zero | digits
  · rw [(List.mem_replicate.1 zero).2]
    rfl
  · exact Nat.isDigit_of_mem_toDigits (by decide) (by decide) digits

theorem padded_ne_nil : padded width number ≠ [] :=
  List.append_ne_nil_of_right_ne_nil _ Nat.toDigits_ne_nil

theorem padded_eq_cons :
    ∃ digit later, padded width number = digit :: later ∧ digit.isDigit = true := by
  obtain ⟨digit, later, digits⟩ := List.exists_cons_of_ne_nil (padded_ne_nil width number)
  exact ⟨digit, later, digits, isDigit_of_mem_padded width number digit (by simp [digits])⟩

theorem ofDigitChars_padded : Nat.ofDigitChars 10 (padded width number) 0 = number := by
  rw [padded, Nat.ofDigitChars_append, Nat.ofDigitChars_replicate_zero, Nat.mul_zero,
    Nat.ofDigitChars_ten_toDigits]

variable {width number}

theorem length_padded (fits : (Nat.toDigits 10 number).length ≤ width) :
    (padded width number).length = width := by
  rw [padded, List.length_append, List.length_replicate, Nat.sub_add_cancel fits]

variable (rest : List Char)

theorem skipSpace_padded : skipSpace (padded width number ++ rest) = padded width number ++ rest := by
  obtain ⟨digit, later, digits, isDigit⟩ := padded_eq_cons width number
  rw [digits, List.cons_append, skipSpace,
    List.dropWhile_cons_of_neg (by simp [isWhiteSpace_of_isDigit isDigit])]

theorem digits?_padded (fits : (Nat.toDigits 10 number).length ≤ width) :
    digits? width (padded width number ++ rest) = some (number, rest) := by
  have length := length_padded fits
  have digits : ((padded width number ++ rest).takeWhile Char.isDigit).take width =
      padded width number := by
    rw [List.takeWhile_append_of_pos (isDigit_of_mem_padded width number), List.take_left' length]
  have value : (padded width number).foldl
      (fun value digit => value * 10 + (digit.toNat - '0'.toNat)) 0 = number := by
    simp only [Nat.mul_comm _ 10]
    exact ofDigitChars_padded width number
  rw [digits?, digits, value, List.drop_left]
  simp [padded_ne_nil]

theorem number?_padded (fits : (Nat.toDigits 10 number).length ≤ width) :
    number? width (padded width number ++ rest) = some (number, rest) := by
  rw [number?, skipSpace_padded, digits?_padded rest fits]

theorem year?_padded (fits : (Nat.toDigits 10 number).length ≤ 4) :
    year? (padded 4 number ++ rest) = some ((number : Int), rest) := by
  have whole := digits?_padded rest fits
  obtain ⟨digit, later, digits, isDigit⟩ := padded_eq_cons 4 number
  have noSign {sign : Char} {behind : List Char} (isSign : sign.isDigit = false) :
      padded 4 number ++ rest ≠ sign :: behind := by
    rw [digits, List.cons_append]
    intro same
    rw [(List.cons.inj same).1, isSign] at isDigit
    nomatch isDigit
  rw [year?, skipSpace_padded]
  split
  · next sign => exact absurd sign (noSign rfl)
  · next sign => exact absurd sign (noSign rfl)
  · rw [whole]
    rfl

/-- A fraction ends in front of what is no digit. -/
theorem fractionEnd?_fraction (nanosecond : Nat) :
    fractionEnd? (fraction nanosecond ++ ['Z']) = some ['Z'] := by
  have ends (width number : Nat) : fractionEnd? ('.' :: padded width number ++ ['Z']) =
      some ['Z'] := by
    obtain ⟨digit, later, digits, isDigit⟩ := padded_eq_cons width number
    have behind : (padded width number ++ ['Z']).dropWhile Char.isDigit = ['Z'] := by
      rw [List.dropWhile_append_of_pos (isDigit_of_mem_padded width number)]
      rfl
    rw [List.cons_append, fractionEnd?, behind]
    simp [digits, isDigit]
  rw [fraction]
  split
  · rfl
  · split
    · exact ends 3 _
    · split
      · exact ends 6 _
      · exact ends 9 _

end Padded

theorem daysInMonth_le (year : Int) (month : Nat) : daysInMonth year month ≤ 31 := by
  rw [daysInMonth.eq_def]
  split
  all_goals first | decide | (split <;> decide)

theorem isInRange_of_le {year : Nat} (le : year ≤ 9999) (month day secondOfDay : Nat)
    (offset : Int) : isInRange year month day secondOfDay offset = true := by
  have notFirst : (year : Int) ≠ firstYear := by
    rw [firstYear]
    omega
  have notLast : (year : Int) ≠ lastYear := by
    rw [lastYear]
    omega
  have between : firstYear ≤ (year : Int) ∧ (year : Int) ≤ lastYear := by
    rw [firstYear, lastYear]
    omega
  simp [isInRange, between, notFirst, notLast]

theorem getD_bind {α : Type} {read : Option α} {value : α} {next : α → Option Bool}
    (found : read = some value) (accepted : (next value).getD false = true) :
    (read >>= next).getD false = true := by
  rw [found]
  exact accepted

/-- Every written point in time is accepted. -/
theorem accepts_render (stamp : Timestamp) : accepts stamp.render = true := by
  have month := stamp.month_le
  have day := stamp.day_le
  have dayLe := daysInMonth_le stamp.year stamp.month
  have hour := stamp.hour_lt
  have minute := stamp.minute_lt
  have second := stamp.second_lt
  have hasDigits {number width : Nat} (positive : 0 < width) (small : number < 10 ^ width) :
      (Nat.toDigits 10 number).length ≤ width :=
    (Nat.length_toDigits_le_iff (by decide) positive).2 small
  have readYear (rest : List Char) :
      year? (padded 4 stamp.year ++ rest) = some ((stamp.year : Int), rest) :=
    year?_padded rest (hasDigits (by decide) (Nat.lt_succ_of_le stamp.year_le))
  have readTwo (number : Nat) (small : number < 100) (rest : List Char) :
      number? 2 (padded 2 number ++ rest) = some (number, rest) :=
    number?_padded rest (hasDigits (by decide) small)
  have readSeparator (char : Char) (noSpace : Text.isWhiteSpace char = false) (rest : List Char) :
      separator? char (char :: rest) = some rest := by
    simp [separator?, skipSpace, noSpace]
  have readDateEnd (rest : List Char) : dateEnd? ('T' :: rest) = some rest := rfl
  have readZone : offset? (skipSpace ['Z']) = some (0, []) := by decide
  have chars : stamp.render.toList = padded 4 stamp.year ++ '-' :: (padded 2 stamp.month ++
      '-' :: (padded 2 stamp.day ++ 'T' :: (padded 2 stamp.hour ++ ':' :: (padded 2 stamp.minute ++
      ':' :: (padded 2 stamp.second ++ (fraction stamp.nanosecond ++ ['Z'])))))) := by
    simp only [render, localChars, String.toList_ofList, List.append_assoc, List.cons_append]
  rw [accepts, chars]
  -- Each reading takes the part that was written for it and leaves those behind it.
  refine getD_bind (readYear _) ?_
  refine getD_bind (readSeparator '-' (by decide) _) ?_
  refine getD_bind (readTwo stamp.month (by omega) _) ?_
  refine getD_bind (readSeparator '-' (by decide) _) ?_
  refine getD_bind (readTwo stamp.day (by omega) _) ?_
  refine getD_bind (readDateEnd _) ?_
  refine getD_bind (readTwo stamp.hour (by omega) _) ?_
  refine getD_bind (readSeparator ':' (by decide) _) ?_
  refine getD_bind (readTwo stamp.minute (by omega) _) ?_
  refine getD_bind (readSeparator ':' (by decide) _) ?_
  refine getD_bind (readTwo stamp.second (by omega) _) ?_
  refine getD_bind (fractionEnd?_fraction _) ?_
  refine getD_bind readZone ?_
  simp [skipSpace, day, hour, minute, Nat.le_of_lt second, isInRange_of_le stamp.year_le]

end PositionSync.Timestamp
