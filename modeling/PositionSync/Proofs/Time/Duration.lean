import Mathlib.Algebra.Group.Nat.Defs
import PositionSync.Time.Duration

/-!
# Multiples of spans in words

A span is kept in two words: its whole seconds, and the nanoseconds behind them. To multiply it, the two
are multiplied apart, and the whole seconds of the second product are carried over. Either the words of
the exact multiple come out, or there are none because it is too long.
-/

namespace PositionSync.Duration

instance : LE Duration := ⟨fun first second => first.nanoseconds ≤ second.nanoseconds⟩

instance : DecidableLE Duration := fun first second =>
  inferInstanceAs (Decidable (first.nanoseconds ≤ second.nanoseconds))

instance : LT Duration := ⟨fun first second => first.nanoseconds < second.nanoseconds⟩

instance : DecidableLT Duration := fun first second =>
  inferInstanceAs (Decidable (first.nanoseconds < second.nanoseconds))

theorem le_iff {first second : Duration} :
    first ≤ second ↔ first.nanoseconds ≤ second.nanoseconds :=
  Iff.rfl

theorem lt_iff {first second : Duration} :
    first < second ↔ first.nanoseconds < second.nanoseconds :=
  Iff.rfl

theorem le_antisymm {first second : Duration} (le : first ≤ second) (ge : second ≤ first) :
    first = second :=
  congrArg mk (Nat.le_antisymm le ge)

@[simp]
theorem nanoseconds_min (first second : Duration) :
    (first.min second).nanoseconds = Min.min first.nanoseconds second.nanoseconds :=
  rfl

def perSecond : Nat := 1000000000

/-- Whole seconds, and the nanoseconds behind them. -/
structure Words where
  seconds : UInt64
  nanoseconds : UInt32
  isFraction : nanoseconds.toNat < perSecond

def Words.span (words : Words) : Duration :=
  ⟨words.seconds.toNat * perSecond + words.nanoseconds.toNat⟩

theorem toNat_ofNat_fraction (number : Nat) :
    (UInt32.ofNat (number % perSecond)).toNat = number % perSecond := by
  have small : number % perSecond < perSecond := Nat.mod_lt _ (by decide)
  exact UInt32.toNat_ofNat_of_lt' (Nat.lt_trans small (by decide))

def words (span : Duration) : Words where
  seconds := .ofNat (span.nanoseconds / perSecond)
  nanoseconds := .ofNat (span.nanoseconds % perSecond)
  isFraction := by
    rw [toNat_ofNat_fraction]
    exact Nat.mod_lt _ (by decide)

theorem le_longest_iff {span : Duration} :
    span ≤ longest ↔ span.nanoseconds / perSecond < 2 ^ 64 := by
  rw [le_iff, Nat.div_lt_iff_lt_mul (by decide)]
  exact Nat.lt_succ_iff.symm

theorem toNat_seconds_words {span : Duration} (fits : span ≤ longest) :
    span.words.seconds.toNat = span.nanoseconds / perSecond :=
  UInt64.toNat_ofNat_of_lt' (le_longest_iff.1 fits)

theorem toNat_nanoseconds_words (span : Duration) :
    span.words.nanoseconds.toNat = span.nanoseconds % perSecond :=
  toNat_ofNat_fraction _

/-- A product or a sum of words, unless it has no room in a word. -/
def checked (exact : Nat) : Option UInt64 :=
  if exact < 2 ^ 64 then some (.ofNat exact) else none

theorem div_mul_perSecond (number factor : Nat) :
    number * factor / perSecond =
      number / perSecond * factor + number % perSecond * factor / perSecond := by
  have split : number * factor =
      number % perSecond * factor + perSecond * (number / perSecond * factor) := by
    rw [← Nat.mul_assoc, ← Nat.add_mul, Nat.mod_add_div]
  rw [split, Nat.add_mul_div_left _ _ (by decide), Nat.add_comm]

theorem mod_mul_perSecond (number factor : Nat) :
    number * factor % perSecond = number % perSecond * factor % perSecond :=
  (Nat.mod_mul_mod number factor perSecond).symm

theorem le_longest_times_iff {span : Duration} {factor : UInt32} :
    span.nanoseconds * factor.toNat ≤ longest.nanoseconds ↔
      span.nanoseconds / perSecond * factor.toNat +
        span.nanoseconds % perSecond * factor.toNat / perSecond < 2 ^ 64 := by
  rw [← div_mul_perSecond]
  change Duration.mk (span.nanoseconds * factor.toNat) ≤ longest ↔ _
  exact le_longest_iff

namespace Words

/-- The nanoseconds apart are multiplied in a word of 64 bits. -/
def fineProduct (words : Words) (factor : UInt32) : UInt64 :=
  words.nanoseconds.toUInt64 * factor.toUInt64

/-- This word has room for every such product. -/
theorem toNat_fineProduct (words : Words) (factor : UInt32) :
    (words.fineProduct factor).toNat = words.nanoseconds.toNat * factor.toNat := by
  have small : words.nanoseconds.toNat * factor.toNat < 2 ^ 64 :=
    calc words.nanoseconds.toNat * factor.toNat
        ≤ perSecond * 2 ^ 32 :=
          Nat.mul_le_mul (Nat.le_of_lt words.isFraction) (Nat.le_of_lt factor.toNat_lt)
      _ < 2 ^ 64 := by decide
  rw [fineProduct, UInt64.toNat_mul, UInt32.toNat_toUInt64, UInt32.toNat_toUInt64,
    Nat.mod_eq_of_lt small]

/-- Multiply the seconds, and add those that are carried over from the nanoseconds. -/
def times? (words : Words) (factor : UInt32) : Option Words := do
  let fine := (words.fineProduct factor).toNat
  let coarse ← checked (words.seconds.toNat * factor.toNat)
  let seconds ← checked (coarse.toNat + fine / perSecond)
  return {
    seconds
    nanoseconds := .ofNat (fine % perSecond)
    isFraction := by
      rw [toNat_ofNat_fraction]
      exact Nat.mod_lt _ (by decide) }

end Words

/-- The multiple is found in words: it is the exact one, and where there is none, the exact one would be
longer than any span. -/
theorem span_times?_words {span : Duration} (fits : span ≤ longest) (factor : UInt32) :
    (span.words.times? factor).map Words.span = span.times? factor := by
  have coarse := toNat_seconds_words fits
  have fine : (span.words.fineProduct factor).toNat =
      span.nanoseconds % perSecond * factor.toNat := by
    rw [Words.toNat_fineProduct, toNat_nanoseconds_words]
  simp only [Words.times?, coarse, fine, times?, le_longest_times_iff]
  by_cases exact : span.nanoseconds / perSecond * factor.toNat +
      span.nanoseconds % perSecond * factor.toNat / perSecond < 2 ^ 64
  · have small := Nat.lt_of_le_of_lt (Nat.le_add_right _ _) exact
    rw [if_pos exact, checked, if_pos small]
    simp only [Option.bind_eq_bind, Option.bind_some, UInt64.toNat_ofNat_of_lt' small]
    rw [checked, if_pos exact]
    refine congrArg (fun number => some (Duration.mk number)) ?_
    change (UInt64.ofNat _).toNat * perSecond + (UInt32.ofNat _).toNat = _
    rw [UInt64.toNat_ofNat_of_lt' exact, toNat_ofNat_fraction, ← div_mul_perSecond,
      ← mod_mul_perSecond, Nat.div_add_mod']
  · rw [if_neg exact, checked]
    split
    case isTrue small =>
      simp only [Option.bind_eq_bind, Option.bind_some, UInt64.toNat_ofNat_of_lt' small]
      rw [checked, if_neg exact]
      rfl
    case isFalse => rfl

end PositionSync.Duration
