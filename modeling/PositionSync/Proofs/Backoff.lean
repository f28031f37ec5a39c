import Mathlib.Data.Nat.Find
import Mathlib.Order.MinMax
import PositionSync.Backoff
import PositionSync.Proofs.Time.Duration

/-!
# Growing delays

A delay is the exact multiple of the first one, cut to the policy's bound. Only the multiplier has an end
of its own, the largest number of 32 bits. So a growing delay levels off at the bound, or at this multiple
of the first delay where the bound is greater.
-/

namespace PositionSync

namespace Backoff

/-- By what the first delay would be multiplied if multipliers had no end. -/
def growth : Backoff → Nat → Nat
  | .constant, _ => 1
  | .linear, attempt => attempt + 1
  | .exponential, attempt => 2 ^ attempt

theorem growth_le_growth (backoff : Backoff) {earlier later : Nat} (inOrder : earlier ≤ later) :
    backoff.growth earlier ≤ backoff.growth later := by
  cases backoff with
  | constant => exact Nat.le_refl 1
  | linear => exact Nat.succ_le_succ inOrder
  | exponential => exact Nat.pow_le_pow_right (by decide) inOrder

theorem growth_positive (backoff : Backoff) (attempt : Nat) : 0 < backoff.growth attempt := by
  cases backoff with
  | constant => exact Nat.one_pos
  | linear => exact Nat.succ_pos attempt
  | exponential => exact Nat.two_pow_pos attempt

theorem growth_lt_growth {backoff : Backoff} (grows : backoff ≠ .constant) {earlier later : Nat}
    (before : earlier < later) : backoff.growth earlier < backoff.growth later := by
  cases backoff with
  | constant => exact absurd rfl grows
  | linear => exact Nat.succ_lt_succ before
  | exponential => exact Nat.pow_lt_pow_right (by decide) before

theorem lt_growth {backoff : Backoff} (grows : backoff ≠ .constant) (attempt : Nat) :
    attempt < backoff.growth attempt := by
  cases backoff with
  | constant => exact absurd rfl grows
  | linear => exact Nat.lt_succ_self attempt
  | exponential => exact Nat.lt_two_pow_self

/-- A multiplier is exact up to the largest number of 32 bits, and stays there. -/
theorem toNat_factor (backoff : Backoff) (attempt : UInt32) :
    (backoff.factor attempt).toNat = min (backoff.growth attempt.toNat) largestFactor.toNat := by
  have largest : largestFactor.toNat = 2 ^ 32 - 1 := rfl
  cases backoff with
  | constant => rfl
  | linear =>
      simp only [factor, growth]
      split
      case isTrue isLargest =>
        subst isLargest
        rfl
      case isFalse notLargest =>
        have bounded := attempt.toNat_lt
        have smaller : attempt.toNat ≠ largestFactor.toNat := mt UInt32.toNat.inj notLargest
        rw [UInt32.toNat_add, largest]
        rw [largest] at smaller
        change (attempt.toNat + 1) % 2 ^ 32 = _
        omega
  | exponential =>
      simp only [factor, growth]
      split
      case isTrue few =>
        have few : attempt.toNat < 32 := few
        have fits : 2 ^ attempt.toNat < 2 ^ 32 := Nat.pow_lt_pow_right (by decide) few
        rw [UInt32.toNat_shiftLeft, Nat.mod_eq_of_lt few, largest]
        change 1 <<< attempt.toNat % 2 ^ 32 = _
        rw [Nat.one_shiftLeft, Nat.mod_eq_of_lt fits]
        omega
      case isFalse many =>
        have many : 32 ≤ attempt.toNat := Nat.le_of_not_lt many
        have tooLarge : 2 ^ 32 ≤ 2 ^ attempt.toNat := Nat.pow_le_pow_right (by decide) many
        rw [largest]
        omega

end Backoff

namespace RetryPolicy

variable {policy : RetryPolicy}

/-- A multiple of the first delay, however long. -/
def multiple (policy : RetryPolicy) (factor : Nat) : Duration :=
  ⟨policy.initial.nanoseconds * factor⟩

/-- That a multiple is longer than any span does not matter, as it is longer than the bound. -/
theorem delay_eq_of_factor (boundFits : policy.bound ≤ .longest) (attempt : UInt32) :
    policy.delay attempt =
      policy.bound.min (policy.multiple (policy.backoff.factor attempt).toNat) := by
  by_cases isSpan : policy.initial.nanoseconds * (policy.backoff.factor attempt).toNat ≤
      Duration.longest.nanoseconds
  · simp only [delay, Duration.times?, if_pos isSpan]
    exact congrArg Duration.mk (Nat.min_comm ..)
  · simp only [delay, Duration.times?, if_neg isSpan]
    have longer := Nat.le_trans boundFits (Nat.le_of_not_le isSpan)
    exact congrArg Duration.mk (Nat.min_eq_left longer).symm

theorem delay_eq (boundFits : policy.bound ≤ .longest) (attempt : UInt32) :
    policy.delay attempt = policy.bound.min
      (policy.multiple (min (policy.backoff.growth attempt.toNat) (2 ^ 32 - 1))) := by
  rw [delay_eq_of_factor boundFits, Backoff.toNat_factor]
  rfl

/-- A delay as it is found in words. -/
def delayInWords (policy : RetryPolicy) (attempt : UInt32) : Duration :=
  match policy.initial.words.times? (policy.backoff.factor attempt) with
  | some words => words.span.min policy.bound
  | none => policy.bound

theorem delayInWords_eq (initialFits : policy.initial ≤ .longest) (attempt : UInt32) :
    policy.delayInWords attempt = policy.delay attempt := by
  rw [delay, delayInWords, ← Duration.span_times?_words initialFits]
  cases policy.initial.words.times? (policy.backoff.factor attempt) with
  | none => rfl
  | some words => rfl

theorem nanoseconds_delay (boundFits : policy.bound ≤ .longest) (attempt : UInt32) :
    (policy.delay attempt).nanoseconds = min policy.bound.nanoseconds
      (policy.initial.nanoseconds * min (policy.backoff.growth attempt.toNat) (2 ^ 32 - 1)) :=
  congrArg Duration.nanoseconds (delay_eq boundFits attempt)

theorem delay_le_bound (boundFits : policy.bound ≤ .longest) (attempt : UInt32) :
    policy.delay attempt ≤ policy.bound := by
  rw [Duration.le_iff, nanoseconds_delay boundFits]
  exact Nat.min_le_left ..

theorem delay_le_delay (boundFits : policy.bound ≤ .longest) {earlier later : UInt32}
    (inOrder : earlier ≤ later) : policy.delay earlier ≤ policy.delay later := by
  have grown : min (policy.backoff.growth earlier.toNat) (2 ^ 32 - 1) ≤
      min (policy.backoff.growth later.toNat) (2 ^ 32 - 1) :=
    min_le_min (policy.backoff.growth_le_growth inOrder) (Nat.le_refl _)
  rw [Duration.le_iff, nanoseconds_delay boundFits, nanoseconds_delay boundFits]
  exact min_le_min (Nat.le_refl _) (Nat.mul_le_mul_left _ grown)

theorem initial_min_bound_le_delay (boundFits : policy.bound ≤ .longest) (attempt : UInt32) :
    policy.initial.min policy.bound ≤ policy.delay attempt := by
  have atLeastOne : 1 ≤ min (policy.backoff.growth attempt.toNat) (2 ^ 32 - 1) :=
    Nat.le_min.2 ⟨policy.backoff.growth_positive _, by decide⟩
  rw [Duration.le_iff, nanoseconds_delay boundFits, Duration.nanoseconds_min]
  refine Nat.le_min.2 ⟨Nat.min_le_right .., Nat.le_trans (Nat.min_le_left ..) ?_⟩
  exact Nat.le_mul_of_pos_right _ atLeastOne

/-- Delays never get shorter and stay between the first one and the bound. Each is the exact multiple of
the first one, cut to the bound, although it is found in words: the unchecked product among them always has
room in its word, and where a checked one has no room, the bound is the answer for the exact multiple as
well. -/
theorem delays_are_exact_and_ascend (initialFits : policy.initial ≤ .longest)
    (boundFits : policy.bound ≤ .longest) {earlier later : UInt32} (inOrder : earlier ≤ later) :
    policy.delay earlier ≤ policy.delay later ∧ policy.delay later ≤ policy.bound ∧
      policy.initial.min policy.bound ≤ policy.delay earlier ∧
      policy.delay earlier = policy.bound.min
        (policy.multiple (min (policy.backoff.growth earlier.toNat) (2 ^ 32 - 1))) ∧
      policy.delayInWords earlier = policy.delay earlier ∧
      (policy.initial.words.fineProduct (policy.backoff.factor earlier)).toNat =
        policy.initial.words.nanoseconds.toNat * (policy.backoff.factor earlier).toNat :=
  ⟨delay_le_delay boundFits inOrder, delay_le_bound boundFits later,
    initial_min_bound_le_delay boundFits earlier, delay_eq boundFits earlier,
    delayInWords_eq initialFits earlier, Duration.Words.toNat_fineProduct ..⟩

/-- The first delay is half of the longest span. From the second doubling on, multiples are longer than
any span. -/
def nearLongest : RetryPolicy :=
  .exponential ⟨Duration.longest.nanoseconds / 2⟩ .longest

theorem delays_are_exact_and_ascend_of_nearLongest :
    nearLongest.delay 1 ≤ nearLongest.delay 2 ∧
      nearLongest.delay 1 = Duration.longest.min (nearLongest.multiple 2) ∧
      nearLongest.delayInWords 1 = nearLongest.delay 1 ∧ nearLongest.delay 2 = .longest := by
  have initialFits : nearLongest.initial ≤ .longest := by decide
  have boundFits : nearLongest.bound ≤ .longest := by decide
  have inOrder : (1 : UInt32) ≤ 2 := by decide
  obtain ⟨ascends, -, -, isExact, inWords, -⟩ :=
    delays_are_exact_and_ascend initialFits boundFits inOrder
  exact ⟨ascends, isExact, inWords, by decide⟩

/-- Where growing delays end: at the bound, or at the greatest multiple of the first delay. -/
def plateau (policy : RetryPolicy) : Duration :=
  policy.bound.min (policy.multiple (2 ^ 32 - 1))

theorem delay_le_plateau (boundFits : policy.bound ≤ .longest) (attempt : UInt32) :
    policy.delay attempt ≤ policy.plateau := by
  rw [Duration.le_iff, nanoseconds_delay boundFits]
  exact min_le_min (Nat.le_refl _) (Nat.mul_le_mul_left _ (Nat.min_le_right ..))

theorem delay_largest (grows : policy.backoff ≠ .constant) (boundFits : policy.bound ≤ .longest) :
    policy.delay 0xFFFFFFFF = policy.plateau := by
  have grown : 2 ^ 32 - 1 < policy.backoff.growth (2 ^ 32 - 1) := Backoff.lt_growth grows _
  rw [delay_eq boundFits]
  change policy.bound.min (policy.multiple (min (policy.backoff.growth (2 ^ 32 - 1)) _)) = _
  rw [Nat.min_eq_right (Nat.le_of_lt grown), plateau]

/-- As long as a delay has not levelled off, every later one is longer. -/
theorem delay_lt_delay (grows : policy.backoff ≠ .constant)
    (positive : 0 < policy.initial.nanoseconds) (boundFits : policy.bound ≤ .longest)
    {earlier later : UInt32} (before : earlier < later)
    (below : policy.delay earlier < policy.plateau) :
    policy.delay earlier < policy.delay later := by
  rw [Duration.lt_iff, nanoseconds_delay boundFits] at below
  rw [Duration.lt_iff, nanoseconds_delay boundFits, nanoseconds_delay boundFits]
  have belowBound := Nat.lt_of_lt_of_le below (Nat.min_le_left ..)
  have belowMost := Nat.lt_of_lt_of_le below (Nat.min_le_right ..)
  have uncut := (min_lt_iff.1 belowBound).resolve_left (Nat.lt_irrefl _)
  rw [Nat.min_eq_right (Nat.le_of_lt uncut)] at belowMost ⊢
  have notMost := Nat.lt_of_mul_lt_mul_left belowMost
  have growing : policy.backoff.growth earlier.toNat < policy.backoff.growth later.toNat :=
    Backoff.growth_lt_growth grows before
  have greater : min (policy.backoff.growth earlier.toNat) (2 ^ 32 - 1) <
      min (policy.backoff.growth later.toNat) (2 ^ 32 - 1) := by omega
  exact Nat.lt_min.2 ⟨uncut, Nat.mul_lt_mul_of_pos_left greater positive⟩

theorem exists_first_plateau (grows : policy.backoff ≠ .constant)
    (boundFits : policy.bound ≤ .longest) :
    ∃ last : UInt32, policy.delay last = policy.plateau ∧
      ∀ attempt < last, policy.delay attempt < policy.plateau := by
  have levelsOff : ∃ number, policy.delay (.ofNat number) = policy.plateau :=
    ⟨0xFFFFFFFF, delay_largest grows boundFits⟩
  have counted : Nat.find levelsOff < 2 ^ 32 :=
    Nat.lt_succ_of_le (Nat.find_min' levelsOff (delay_largest grows boundFits))
  refine ⟨.ofNat (Nat.find levelsOff), Nat.find_spec levelsOff, fun attempt before => ?_⟩
  have earlier : attempt.toNat < Nat.find levelsOff := by
    rwa [UInt32.lt_iff_toNat_lt, UInt32.toNat_ofNat_of_lt' counted] at before
  have notYet := Nat.find_min levelsOff earlier
  rw [UInt32.ofNat_toNat] at notYet
  refine Nat.lt_of_le_of_ne (delay_le_plateau boundFits attempt) fun same => notYet ?_
  exact congrArg Duration.mk same

/-- A growing delay gets longer with every attempt until it levels off, at the bound or at the greatest
multiple of the first delay. So the bound is reached and kept, unless it is greater than that multiple: such
a bound is never reached. -/
theorem growing_delays_level_off (grows : policy.backoff ≠ .constant)
    (positive : 0 < policy.initial.nanoseconds) (boundFits : policy.bound ≤ .longest) :
    ∃ last : UInt32,
      (∀ attempt, last ≤ attempt →
        policy.delay attempt = policy.bound.min (policy.multiple (2 ^ 32 - 1))) ∧
      (∀ earlier later, earlier < later → later ≤ last →
        policy.delay earlier < policy.delay later) ∧
      (policy.bound ≤ policy.multiple (2 ^ 32 - 1) →
        ∀ attempt, last ≤ attempt → policy.delay attempt = policy.bound) ∧
      (policy.multiple (2 ^ 32 - 1) < policy.bound →
        ∀ attempt, policy.delay attempt < policy.bound) := by
  obtain ⟨last, level, below⟩ := exists_first_plateau grows boundFits
  have stays (attempt : UInt32) (behind : last ≤ attempt) : policy.delay attempt = policy.plateau :=
    Duration.le_antisymm (delay_le_plateau boundFits attempt)
      (level ▸ delay_le_delay boundFits behind)
  refine ⟨last, stays, fun earlier later before upToLast => ?_, fun low attempt behind => ?_,
    fun high attempt => ?_⟩
  · exact delay_lt_delay grows positive boundFits before
      (below earlier (Nat.lt_of_lt_of_le before upToLast))
  · rw [stays attempt behind]
    exact congrArg Duration.mk (Nat.min_eq_left low)
  · exact Nat.lt_of_le_of_lt
      (Nat.le_trans (delay_le_plateau boundFits attempt) (Nat.min_le_right ..)) high

/-- From a nanosecond on, delays that double reach a bound of 2 ^ 32 - 1 nanoseconds, but not the next
one. -/
theorem growing_delays_level_off_around_greatest_multiple :
    (∃ last : UInt32, ∀ attempt, last ≤ attempt →
      (exponential ⟨1⟩ ⟨2 ^ 32 - 1⟩).delay attempt = ⟨2 ^ 32 - 1⟩) ∧
    ∀ attempt, (exponential ⟨1⟩ ⟨2 ^ 32⟩).delay attempt < ⟨2 ^ 32⟩ := by
  have grows : (exponential ⟨1⟩ ⟨2 ^ 32 - 1⟩).backoff ≠ .constant := by decide
  have growsToo : (exponential ⟨1⟩ ⟨2 ^ 32⟩).backoff ≠ .constant := by decide
  obtain ⟨last, -, -, reached, -⟩ := growing_delays_level_off grows (by decide) (by decide)
  obtain ⟨-, -, -, -, notReached⟩ := growing_delays_level_off growsToo (by decide) (by decide)
  exact ⟨⟨last, reached (by decide)⟩, notReached (by decide)⟩

/-- With a first delay of a nanosecond, delays end before they reach ten seconds, even if they double. If
they grow by a nanosecond each, they end right before 2 ^ 32 nanoseconds. -/
theorem delays_level_off_below_bound :
    (¬ ∃ last : UInt32, ∀ attempt, last ≤ attempt →
      (exponential ⟨1⟩ (.ofSeconds 10)).delay attempt = .ofSeconds 10) ∧
    ¬ ∃ last : UInt32, ∀ attempt, last ≤ attempt →
      (RetryPolicy.mk .linear ⟨1⟩ ⟨2 ^ 32⟩ none).delay attempt = ⟨2 ^ 32⟩ := by
  have upToLargest (last : UInt32) : last ≤ 0xFFFFFFFF := Nat.le_of_lt_succ last.toNat_lt
  refine ⟨fun ⟨last, reached⟩ => ?_, fun ⟨last, reached⟩ => ?_⟩
  · exact absurd (reached _ (upToLargest last)) (by decide)
  · exact absurd (reached _ (upToLargest last)) (by decide)

end RetryPolicy

end PositionSync
