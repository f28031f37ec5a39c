import PositionSync.Proofs.Yaml.Nodes

/-!
# Records written as JSON objects

A record is read from a JSON object member by member. A decimal number is written without a leading zero
and without a sign, so as a plain scalar it is read back.
-/

namespace PositionSync.Yaml

section Numbers

variable {largest number : Nat}

theorem hexDigit?_of_isDigit {char : Char} (isDigit : char.isDigit = true) :
    hexDigit? char = some (char.toNat - '0'.toNat) ∧ char.toNat - '0'.toNat < 10 := by
  simp only [Char.isDigit, Bool.and_eq_true, decide_eq_true_eq] at isDigit
  refine ⟨if_pos isDigit, ?_⟩
  have upper : char.toNat ≤ 57 := isDigit.2
  have zero : '0'.toNat = 48 := rfl
  omega

theorem radixDigits?_of_digits {digits : List Char}
    (allDigits : ∀ digit ∈ digits, digit.isDigit = true)
    (fits : Nat.ofDigitChars 10 digits number ≤ largest) :
    radixDigits? 10 largest number digits = some (Nat.ofDigitChars 10 digits number) := by
  induction digits generalizing number with
  | nil => rfl
  | cons digit rest ih =>
      obtain ⟨isDigit, restDigits⟩ := List.forall_mem_cons.1 allDigits
      obtain ⟨value, small⟩ := hexDigit?_of_isDigit isDigit
      rw [Nat.ofDigitChars_cons, Nat.mul_comm 10 number] at fits ⊢
      have fitsNow : number * 10 + (digit.toNat - '0'.toNat) ≤ largest :=
        Nat.le_trans (Decimal.le_ofDigitChars rest _) fits
      rw [radixDigits?, value]
      simp only [if_pos (And.intro small fitsNow)]
      exact ih restDigits fits

/-- Only the number zero begins with a zero. -/
theorem toDigits_eq_zero_cons {rest : List Char} (digits : Nat.toDigits 10 number = '0' :: rest) :
    rest = [] := by
  induction number using Nat.strongRecOn generalizing rest with
  | ind number ih =>
      by_cases small : number < 10
      · rw [Nat.toDigits_of_lt_base small] at digits
        exact (List.cons.inj digits).2.symm
      · have shorter : number / 10 < number := by omega
        rw [Nat.toDigits_of_base_le (by decide) (by omega)] at digits
        -- The digits in front of the last one are those of a number that is not zero.
        cases front : Nat.toDigits 10 (number / 10) with
        | nil => exact absurd front Nat.toDigits_ne_nil
        | cons first others =>
            rw [front, List.cons_append] at digits
            obtain rfl := (List.cons.inj digits).1
            obtain rfl := ih _ shorter front
            have isZero := Nat.ofDigitChars_ten_toDigits (n := number / 10)
            rw [front] at isZero
            have : 0 = number / 10 := isZero
            omega

/-- A number that is not too large is read back from its digits. -/
theorem unsigned?_toDigits (fits : number ≤ largest) :
    unsigned? largest (Nat.toDigits 10 number) = some number := by
  have allDigits : ∀ digit ∈ Nat.toDigits 10 number, digit.isDigit = true :=
    fun _ => Decimal.isDigit_of_mem_toDigits
  have digitsFit : Nat.ofDigitChars 10 (Nat.toDigits 10 number) 0 ≤ largest := by simpa using fits
  have read := radixDigits?_of_digits allDigits digitsFit
  have noZero := @toDigits_eq_zero_cons number
  rw [Nat.ofDigitChars_ten_toDigits] at read
  cases digits : Nat.toDigits 10 number with
  | nil => exact absurd digits Nat.toDigits_ne_nil
  | cons digit rest =>
      rw [digits] at read allDigits noZero
      have noSign : digit ≠ '+' ∧ digit ≠ '-' := by
        constructor <;> (rintro rfl; nomatch allDigits _ List.mem_cons_self)
      have alone {second : Char} {others : List Char} : digit :: rest ≠ '0' :: second :: others := by
        intro same
        obtain ⟨rfl, rfl⟩ := List.cons.inj same
        exact absurd (noZero rfl) (List.cons_ne_nil _ _)
      have unmarked : markedNumber? largest (digit :: rest) = none := by
        unfold markedNumber?
        split
        · next same => exact absurd same alone
        · next same => exact absurd same alone
        · next same => exact absurd same alone
        · rfl
      have unsigned : withoutSign (digit :: rest) = digit :: rest := by
        unfold withoutSign
        split
        · next same => exact absurd (List.cons.inj same).1 noSign.1
        · next same => exact absurd (List.cons.inj same).1 noSign.2
        · rfl
      have noLeadingZero : hasLeadingZero (digit :: rest) = false := by
        unfold hasLeadingZero
        rw [unsigned]
        split
        · next same => exact absurd same alone
        · rfl
      unfold unsigned?
      split
      · next same => exact absurd (List.cons.inj same).1 noSign.1
      · simpa [unmarked, noLeadingZero, radixNumber?] using read

/-- The digits of a number spell no word for an absent value. -/
theorem isAbsent_number (number : Nat) : (Atom.number number).scalar.isAbsent = .ok false := by
  let text := String.ofList (Nat.toDigits 10 number)
  have differs (word : String) (noNumber : word.toList.head?.any Char.isDigit = false) :
      text ≠ word := by
    rintro rfl
    rw [String.toList_ofList] at noNumber
    cases digits : Nat.toDigits 10 number with
    | nil => exact Nat.toDigits_ne_nil digits
    | cons first rest =>
        have isDigit : first.isDigit = true :=
          Decimal.isDigit_of_mem_toDigits (digits ▸ List.mem_cons_self)
        rw [digits] at noNumber
        exact absurd isDigit (Bool.eq_false_iff.1 noNumber)
  have absent : (text.isEmpty || isNullWord text) = false := by
    refine Bool.eq_false_iff.2 fun isWord => ?_
    simp only [isNullWord, Bool.or_eq_true, String.isEmpty_iff, List.contains_iff_mem,
      List.mem_cons, List.not_mem_nil, or_false] at isWord
    rcases isWord with word | word | word | word | word <;>
      exact differs _ (by decide) word
  simp only [Scalar.isAbsent, Atom.scalar, text] at absent ⊢
  simp [absent]

theorem optionalUnsigned64_number (place : Option String) (fits : number ≤ 0xFFFFFFFFFFFFFFFF) :
    Node.optionalUnsigned64 place (.scalar (Atom.number number).scalar) = .ok (some number) := by
  have read : (Node.scalar (Atom.number number).scalar).unsigned64 = .ok number := by
    simp only [Node.unsigned64, Atom.scalar, String.toList_ofList, unsigned?_toDigits fits]
    rfl
  rw [Node.optionalUnsigned64, isAbsent_number, read]
  rfl

end Numbers

/-- The record with one more member of an object. -/
def readMember {σ : Type} (fields : Fields σ) (record : σ) (member : String × Atom) :
    Except Fault σ :=
  if member.1 ∈ fields.known then
    if fields.isSet member.1 record then .error (.duplicateField member.1)
    else fields.read member.1 (some member.1) record (.scalar member.2.scalar)
  else .ok record

section Records

variable {σ α : Type} {fields : Fields σ} {object : List (String × Atom)}

/-- A member of a mapping of scalars. -/
theorem members_member (record : σ) (fuel : Nat) (member : String × Atom) (rest : List Node) :
    members fields (fuel + 1) record ((memberScalars member).map .scalar ++ rest) =
      readMember fields record member >>= fun record => members fields fuel record rest := by
  have name : nameOf (.scalar ⟨.doubleQuoted, none, member.1⟩) =
      .ok (member.1, some member.1) := rfl
  simp only [memberScalars, List.map_cons, List.map_nil, List.cons_append, List.nil_append,
    members, readMember, name, bind, Except.bind]
  by_cases known : member.1 ∈ fields.known
  · simp only [if_pos known]
    cases fields.isSet member.1 record <;> rfl
  · simp only [if_neg known]
    rfl

theorem members_object (record : σ) (fuel : Nat) :
    members fields (fuel + object.length + 1) record
        ((object.flatMap memberScalars).map .scalar ++ [.mappingEnd]) =
      object.foldlM (readMember fields) record := by
  induction object generalizing record with
  | nil => rfl
  | cons member object ih =>
      rw [List.flatMap_cons, List.map_append, List.append_assoc, List.length_cons,
        ← Nat.add_assoc fuel, members_member, List.foldlM_cons]
      exact congrArg _ (funext ih)

/-- A record is read from an object by its members, in their order. -/
theorem decode_object {empty : σ} {expected : String} {finish : σ → Except Fault α}
    (readable : ∀ member ∈ object, IsReadable member) :
    decode fields empty expected finish (String.ofList ('\x7b' :: memberChars object)) =
      object.foldlM (readMember fields) empty >>= finish := by
  have length : ((object.flatMap memberScalars).map Node.scalar ++ [Node.mappingEnd]).length =
      object.length + object.length + 1 := by
    simp [memberScalars, List.map_const', Nat.mul_two]
  have nodes : record fields empty expected (objectNodes object) =
      object.foldlM (readMember fields) empty := by
    rw [objectNodes, List.cons_append, record, length, members_object]
  rw [decode, String.toList_ofList, firstDocument_object readable]
  simp only [nodes]
  cases object.foldlM (readMember fields) empty with
  | error fault => rfl
  | ok record =>
      simp only [bind, Except.bind]
      cases finish record with
      | error fault => rfl
      | ok value => simp [objectNodes, pure, Except.pure]

end Records

end PositionSync.Yaml
