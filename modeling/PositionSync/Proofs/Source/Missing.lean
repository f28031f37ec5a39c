import Mathlib.Algebra.Group.Nat.Defs
import PositionSync.Source.FileSource

/-!
# Counting attempts at a missing file

While its file is missing, a source waits after one attempt and then makes the next one, up to the number
that its policy allows. It counts the failed attempts in 32 bits. A policy with a bound ends before the count
leaves its range. A policy without one goes on for ever, and then the count starts over, and the delays
with it.
-/

namespace PositionSync

namespace RetryPolicy

variable {policy : RetryPolicy} {failed : Nat}

/-- Whether there is another attempt after some failed ones. There is always a first one. -/
def GoesOn (policy : RetryPolicy) (failed : Nat) : Prop :=
  ∀ most, policy.maxAttempts = some most → failed < max most.toNat 1

theorem GoesOn.of_le {later : Nat} (goesOn : policy.GoesOn later) (before : failed ≤ later) :
    policy.GoesOn failed :=
  fun most bounded => Nat.lt_of_le_of_lt before (goesOn most bounded)

theorem goesOn_of_unbounded (unbounded : policy.maxAttempts = none) (failed : Nat) :
    policy.GoesOn failed := by
  simp [GoesOn, unbounded]

/-- A bound is a number of 32 bits, so one more attempt than the failed ones can be counted. -/
theorem GoesOn.counted (goesOn : policy.GoesOn failed) (bounded : policy.maxAttempts.isSome) :
    failed + 1 < 2 ^ 32 := by
  obtain ⟨most, bounded⟩ := Option.isSome_iff_exists.1 bounded
  have fewer := goesOn most bounded
  have := most.toNat_lt
  omega

theorem isSome_of_not_goesOn (endsHere : ¬ policy.GoesOn failed) : policy.maxAttempts.isSome := by
  rw [← Option.ne_none_iff_isSome]
  exact fun unbounded => endsHere (goesOn_of_unbounded unbounded failed)

theorem not_isExhausted_of_goesOn (goesOn : policy.GoesOn (failed + 1)) :
    policy.isExhausted (.ofNat (failed + 1)) = false := by
  rw [isExhausted]
  split
  case h_1 most bounded =>
    have fewer := goesOn most bounded
    have counted : failed + 1 < 2 ^ 32 :=
      Nat.lt_of_succ_lt (goesOn.counted (by simp [bounded]))
    rw [decide_eq_false_iff_not, UInt32.le_iff_toNat_le, UInt32.toNat_ofNat_of_lt' counted]
    omega
  case h_2 => rfl

theorem isExhausted_of_not_goesOn (counted : failed < 2 ^ 32) (endsHere : ¬ policy.GoesOn failed) :
    policy.isExhausted (.ofNat failed) = true := by
  obtain ⟨most, bounded, enough⟩ : ∃ most, policy.maxAttempts = some most ∧
      max most.toNat 1 ≤ failed := by
    simpa only [GoesOn, Classical.not_forall, exists_prop, Nat.not_lt] using endsHere
  simp only [isExhausted, bounded]
  rw [decide_eq_true_iff, UInt32.le_iff_toNat_le, UInt32.toNat_ofNat_of_lt' counted]
  exact Nat.le_trans (Nat.le_max_left ..) enough

end RetryPolicy

namespace FileSource

section Missing

variable {source : FileSource} {files : FileSystem}

/-- An attempt at a missing file counts, and the delay after it is that of the count before. -/
theorem attempt_of_missing (missing : files.lookup source.settings.file = .error .notFound)
    (stored : Option Offset) (failed : UInt32) :
    source.attempt files stored failed =
      if source.settings.retry.isExhausted (failed + 1) then
        .failed (.fileNotFound source.settings.file.text)
      else .pause (source.settings.retry.delay failed) (failed + 1) := by
  simp only [attempt, missing, UInt32.add_sub_cancel]

variable {reads : OpenFile → List ReadResult} {request : Request} {failed : Nat}

theorem openFor_of_goesOn (missing : files.lookup source.settings.file = .error .notFound)
    (stored : Option Offset) (goesOn : source.settings.retry.GoesOn (failed + 1)) :
    source.openFor files reads stored request (.ofNat failed) =
      (.pause (source.settings.retry.delay (.ofNat failed))
        (.retry request (.ofNat (failed + 1))), source) := by
  have notExhausted : source.settings.retry.isExhausted (.ofNat failed + 1) = false :=
    (congrArg _ (UInt32.ofNat_add failed 1)).symm.trans (RetryPolicy.not_isExhausted_of_goesOn goesOn)
  rw [UInt32.ofNat_add]
  simp [openFor, attempt_of_missing missing, notExhausted]

theorem openFor_of_not_goesOn (missing : files.lookup source.settings.file = .error .notFound)
    (stored : Option Offset) (counted : failed + 1 < 2 ^ 32)
    (endsHere : ¬ source.settings.retry.GoesOn (failed + 1)) :
    source.openFor files reads stored request (.ofNat failed) =
      (.done (.error (.fileNotFound source.settings.file.text)), source) := by
  have exhausted : source.settings.retry.isExhausted (.ofNat failed + 1) = true :=
    (congrArg _ (UInt32.ofNat_add failed 1)).symm.trans
      (RetryPolicy.isExhausted_of_not_goesOn counted endsHere)
  simp [openFor, attempt_of_missing missing, exhausted]

end Missing

section Looks

variable (source : FileSource) (files : Nat → FileSystem) (reads : OpenFile → List ReadResult)
  (stored : Nat → Option Offset) (request : Request)

/-- How far a request that opens the file has got with one of its looks at the files, the first of which has
the number zero. -/
def progressAt : Nat → Progress
  | 0 => (source.openFor (files 0) reads (stored 0) request 0).1
  | look + 1 =>
    match progressAt look with
    | .done result => .done result
    | .pause _ next => (source.resume (files (look + 1)) reads (stored (look + 1)) next).1

variable {source files}

theorem progressAt_of_goesOn
    (missing : ∀ look, (files look).lookup source.settings.file = .error .notFound) {look : Nat}
    (goesOn : source.settings.retry.GoesOn (look + 1)) :
    source.progressAt files reads stored request look =
      .pause (source.settings.retry.delay (.ofNat look)) (.retry request (.ofNat (look + 1))) := by
  induction look with
  | zero =>
      rw [progressAt]
      exact congrArg Prod.fst (openFor_of_goesOn (missing 0) (stored 0) goesOn)
  | succ look ih =>
      rw [progressAt, ih (goesOn.of_le (Nat.le_succ _))]
      exact congrArg Prod.fst (openFor_of_goesOn (missing _) (stored _) goesOn)

theorem progressAt_of_not_goesOn
    (missing : ∀ look, (files look).lookup source.settings.file = .error .notFound) {look : Nat}
    (endsHere : ¬ source.settings.retry.GoesOn (look + 1)) :
    source.progressAt files reads stored request look =
      .done (.error (.fileNotFound source.settings.file.text)) := by
  induction look with
  | zero =>
      rw [progressAt]
      exact congrArg Prod.fst (openFor_of_not_goesOn (missing 0) (stored 0) (by decide) endsHere)
  | succ look ih =>
      rw [progressAt]
      by_cases goesOn : source.settings.retry.GoesOn (look + 1)
      · rw [progressAt_of_goesOn reads stored request missing goesOn]
        have counted := goesOn.counted (RetryPolicy.isSome_of_not_goesOn endsHere)
        exact congrArg Prod.fst (openFor_of_not_goesOn (missing _) (stored _) counted endsHere)
      · rw [ih goesOn]

/-- As long as the file is missing, a source goes on up to the bound of its policy, and then it gives up.
With a bound, the count of the failed attempts is right throughout, and there is always room to count one
more. Without one it is not: the source never ends, and both its count and its delays start over after
2 ^ 32 attempts. -/
theorem count_is_right_iff_bounded
    (missing : ∀ look, (files look).lookup source.settings.file = .error .notFound) :
    (∀ look, source.settings.retry.GoesOn (look + 1) →
      source.progressAt files reads stored request look =
        .pause (source.settings.retry.delay (.ofNat look)) (.retry request (.ofNat (look + 1)))) ∧
    (∀ look, ¬ source.settings.retry.GoesOn (look + 1) →
      source.progressAt files reads stored request look =
        .done (.error (.fileNotFound source.settings.file.text))) ∧
    ((∀ look span failed,
      source.progressAt files reads stored request look = .pause span (.retry request failed) →
        failed.toNat = look + 1 ∧ failed.toNat + 1 < 2 ^ 32) ↔
      source.settings.retry.maxAttempts.isSome) := by
  have goesOn (look : Nat) (goes : source.settings.retry.GoesOn (look + 1)) :=
    progressAt_of_goesOn reads stored request missing goes
  have endsAt (look : Nat) (endsHere : ¬ source.settings.retry.GoesOn (look + 1)) :=
    progressAt_of_not_goesOn reads stored request missing endsHere
  refine ⟨goesOn, endsAt, fun isRight => ?_, fun bounded look span failed paused => ?_⟩
  · rw [← Option.ne_none_iff_isSome]
    intro unbounded
    have startsOver := goesOn 0xFFFFFFFF (RetryPolicy.goesOn_of_unbounded unbounded _)
    exact absurd (isRight _ _ _ startsOver).1 (by decide)
  · by_cases goes : source.settings.retry.GoesOn (look + 1)
    · rw [goesOn look goes] at paused
      obtain ⟨-, next⟩ := Progress.pause.inj paused
      obtain ⟨-, rfl⟩ := Resume.retry.inj next
      have room := goes.counted bounded
      rw [UInt32.toNat_ofNat_of_lt' (Nat.lt_of_succ_lt room)]
      exact ⟨rfl, room⟩
    · rw [endsAt look goes] at paused
      exact absurd paused nofun

end Looks

section Waiting

/-- A source that waits for a file between one and two milliseconds after each attempt. -/
def waiting (maxAttempts : Option UInt32) : FileSource :=
  let settings := SourceSettings.new (.ofText "log")
  .new { settings with
    retry := ⟨.exponential, .ofMilliseconds 1, .ofMilliseconds 2, maxAttempts⟩ }

theorem waiting_misses (maxAttempts : Option UInt32) :
    FileSystem.empty.lookup (waiting maxAttempts).settings.file = .error .notFound :=
  rfl

/-- With three attempts, the last one is the look with the number two. -/
theorem count_is_right_iff_bounded_of_three :
    (waiting (some 3)).progressAt (fun _ => .empty) (fun _ => []) (fun _ => none) .openFile 2 =
        .done (.error (.fileNotFound "log")) ∧
      (∀ look span failed,
        (waiting (some 3)).progressAt (fun _ => .empty) (fun _ => []) (fun _ => none) .openFile look =
          .pause span (.retry .openFile failed) →
            failed.toNat = look + 1 ∧ failed.toNat + 1 < 2 ^ 32) := by
  obtain ⟨-, endsAt, isRight⟩ := count_is_right_iff_bounded (fun _ => []) (fun _ => none) .openFile
    fun _ => waiting_misses (some 3)
  have endsHere : ¬ (waiting (some 3)).settings.retry.GoesOn 3 := fun goesOn =>
    absurd (goesOn 3 rfl) (by decide)
  have name : (waiting (some 3)).settings.file.text = "log" := by decide +kernel
  exact ⟨(endsAt 2 endsHere).trans (by rw [name]), isRight.2 rfl⟩

/-- The attempt with the number 2 ^ 32 is not counted any more: the count is back at zero, and the attempt
after it is followed by the first delay again. -/
theorem count_starts_over :
    (waiting none).progressAt (fun _ => .empty) (fun _ => []) (fun _ => none) .openFile 0xFFFFFFFE =
        .pause (.ofMilliseconds 2) (.retry .openFile 0xFFFFFFFF) ∧
      (waiting none).progressAt (fun _ => .empty) (fun _ => []) (fun _ => none) .openFile 0xFFFFFFFF =
        .pause (.ofMilliseconds 2) (.retry .openFile 0) ∧
      (waiting none).progressAt (fun _ => .empty) (fun _ => []) (fun _ => none) .openFile 0x100000000 =
        .pause (.ofMilliseconds 1) (.retry .openFile 1) := by
  have goesOn (look : Nat) := progressAt_of_goesOn (fun _ => []) (fun _ => none) .openFile
    (fun _ => waiting_misses none) (RetryPolicy.goesOn_of_unbounded rfl (look + 1))
  exact ⟨goesOn _, goesOn _, goesOn _⟩

end Waiting

end FileSource

end PositionSync
