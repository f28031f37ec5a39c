import Mathlib.Data.List.Infix
import PositionSync.Proofs.Source.Missing
import PositionSync.Source.Follower

/-!
# Waiting for a missing file

A source that is to open a missing file looks for it again and again, with the delays of its policy between
its looks. It does so until the file is there, the attempts are used up, or it is cancelled in a pause. What
it does is noted, and from the notes it is seen that there are no other looks and no other pauses.
-/

namespace PositionSync.Follower

section Frames

variable (follower : Follower) (moment : Moment)

@[simp]
theorem source_meet (incident : Incident) : (follower.meet incident).source = follower.source := by
  cases incident <;> rfl

theorem source_foldl_meet (due : List (Instant × Incident)) (follower : Follower) :
    (due.foldl (fun current (_, incident) => current.meet incident) follower).source =
      follower.source := by
  induction due generalizing follower with
  | nil => rfl
  | cons entry due ih => rw [List.foldl_cons, ih, source_meet]

@[simp]
theorem source_meetDue : follower.meetDue.source = follower.source :=
  source_foldl_meet ..

theorem source_waitUntil (heedful : Bool) (deadline : Instant) (agenda : List (Instant × Incident))
    (follower : Follower) :
    (waitUntil moment heedful deadline agenda follower).2.source = follower.source := by
  induction agenda generalizing follower with
  | nil => rfl
  | cons entry later ih =>
      simp only [waitUntil]
      split
      case isTrue => rfl
      case isFalse =>
        split
        case isTrue => exact source_meet ..
        case isFalse => exact (ih _).trans (source_meet ..)

@[simp]
theorem source_sleep (span : Duration) :
    (follower.sleep moment span).source = follower.source :=
  source_waitUntil ..

@[simp]
theorem source_pause (span : Duration) :
    (follower.pause moment span).2.source = follower.source := by
  rw [pause]
  split
  case isTrue => rfl
  case isFalse => exact source_waitUntil ..

end Frames

/-- Whether a cancellation is met before an instant. -/
def CancelsBefore (deadline : Instant) (agenda : List (Instant × Incident)) : Prop :=
  ∃ entry ∈ agenda.takeWhile fun entry => entry.1 < deadline, entry.2 = .cancel

/-- Whether a pause is cut short: the source is cancelled already, or before the pause is over. -/
def IsCutShort (follower : Follower) (span : Duration) : Prop :=
  follower.cancelled = true ∨ CancelsBefore (follower.deadline span) follower.agenda

instance (follower : Follower) (span : Duration) : Decidable (follower.IsCutShort span) :=
  inferInstanceAs (Decidable (_ ∨ ∃ entry ∈ List.takeWhile _ _, _))

section CuttingShort

variable {moment : Moment} {deadline instant : Instant} {incident : Incident}
  {agenda later : List (Instant × Incident)} {follower : Follower} {span : Duration}

theorem not_cancelsBefore_of_le (tooLate : deadline ≤ instant) :
    ¬ CancelsBefore deadline ((instant, incident) :: later) := by
  simp [CancelsBefore, Nat.not_lt.2 tooLate]

theorem cancelsBefore_cons_iff (ahead : ¬ deadline ≤ instant) :
    CancelsBefore deadline ((instant, incident) :: later) ↔
      incident = .cancel ∨ CancelsBefore deadline later := by
  simp [CancelsBefore, List.takeWhile_cons_of_pos, Nat.not_le.1 ahead]

theorem waitUntil_cancel (ahead : ¬ deadline ≤ instant) :
    (waitUntil moment true deadline ((instant, .cancel) :: later) follower).1 = false := by
  simp only [waitUntil, if_neg ahead]
  rfl

/-- A change of the files goes by in an active wait. -/
theorem waitUntil_change (heedful : Bool) (ahead : ¬ deadline ≤ instant)
    (active : follower.cancelled = false) (change : FileChange) :
    waitUntil moment heedful deadline ((instant, .change change) :: later) follower =
      waitUntil moment heedful deadline later
        ((follower.advanceTo moment instant).meet (.change change)) := by
  have stillActive : ((follower.advanceTo moment instant).meet (.change change)).cancelled = false :=
    active
  simp only [waitUntil, if_neg ahead, stillActive, Bool.and_false]
  rfl

theorem waitUntil_of_cancelsBefore (active : follower.cancelled = false)
    (cancels : CancelsBefore deadline agenda) :
    (waitUntil moment true deadline agenda follower).1 = false := by
  induction agenda generalizing follower with
  | nil => simp [CancelsBefore] at cancels
  | cons entry later ih =>
      obtain ⟨instant, incident⟩ := entry
      have ahead : ¬ deadline ≤ instant := fun tooLate => not_cancelsBefore_of_le tooLate cancels
      cases incident with
      | cancel => exact waitUntil_cancel ahead
      | change change =>
          rw [waitUntil_change true ahead active change]
          exact ih active (((cancelsBefore_cons_iff ahead).1 cancels).resolve_left nofun)

/-- Without a cancellation it makes no difference whether one is heeded. -/
theorem waitUntil_of_not_cancelsBefore (active : follower.cancelled = false)
    (noneBefore : ¬ CancelsBefore deadline agenda) :
    waitUntil moment true deadline agenda follower =
      (true, (waitUntil moment false deadline agenda follower).2) := by
  induction agenda generalizing follower with
  | nil => rfl
  | cons entry later ih =>
      obtain ⟨instant, incident⟩ := entry
      by_cases tooLate : deadline ≤ instant
      · simp only [waitUntil, if_pos tooLate]
      · obtain ⟨notCancel, noneLater⟩ := not_or.1 (mt (cancelsBefore_cons_iff tooLate).2 noneBefore)
        cases incident with
        | cancel => exact absurd rfl notCancel
        | change change =>
            rw [waitUntil_change true tooLate active, waitUntil_change false tooLate active]
            exact ih active noneLater

theorem pause_of_isCutShort (moment : Moment) (cut : follower.IsCutShort span) :
    (follower.pause moment span).1 = false := by
  rw [pause]
  split
  case isTrue => rfl
  case isFalse active =>
    exact waitUntil_of_cancelsBefore (Bool.not_eq_true _ ▸ active) (cut.resolve_left active)

theorem pause_of_whole (moment : Moment) (whole : ¬ follower.IsCutShort span) :
    follower.pause moment span = (true, follower.sleep moment span) := by
  obtain ⟨active, noneBefore⟩ := not_or.1 whole
  rw [pause, if_neg active,
    waitUntil_of_not_cancelsBefore (Bool.not_eq_true _ ▸ active) noneBefore, sleep]

end CuttingShort

/-- What the file's name leads to at the moment. -/
def find (follower : Follower) : Except FileFault FileNode :=
  follower.cluster.files.lookup follower.source.settings.file

/-- What a request does on its way: it looks for the file, or it sleeps. -/
inductive Deed where
  | look (found : Except FileFault FileNode)
  | sleep (span : Duration)
  /-- A cancellation has ended the sleep before its span was over. -/
  | cutSleep (span : Duration)
deriving DecidableEq

/-- The look with which a request goes on after a pause. -/
def looksAfter (follower : Follower) : FileSource.Resume → List Deed
  | .retry .. => [.look follower.meetDue.find]
  | .answer => []

/-- An outcome, with notes of what has been done before. -/
abbrev Noted := List Deed × Except Error (List Record) × Follower

/-- Note what has been done even before. -/
def Noted.behind (deeds : List Deed) (noted : Noted) : Noted := (deeds ++ noted.1, noted.2)

theorem Noted.behind_snd (deeds : List Deed) (noted : Noted) : (noted.behind deeds).2 = noted.2 :=
  rfl

theorem Noted.behind_behind (first deeds : List Deed) (noted : Noted) :
    (noted.behind deeds).behind first = noted.behind (first ++ deeds) := by
  rw [behind, behind, behind, List.append_assoc]

/-- As `finish`, with notes of what is done. -/
def finishNoting (moment : Moment) : Nat → FileSource.Progress → Follower → Noted
  | _, .done result, follower => ([], result, follower)
  | 0, .pause .., follower => ([], .error .cancelled, follower)
  | fuel + 1, .pause span next, follower =>
    match follower.pause moment span with
    | (false, paused) => ([.cutSleep span], .error .cancelled, paused)
    | (true, paused) =>
      let (progress, resumed) := paused.resume next
      (finishNoting moment fuel progress resumed).behind (.sleep span :: paused.looksAfter next)

theorem finishNoting_snd (moment : Moment) (fuel : Nat) (progress : FileSource.Progress)
    (follower : Follower) :
    (finishNoting moment fuel progress follower).2 = finish moment fuel progress follower := by
  induction fuel generalizing progress follower with
  | zero => cases progress <;> rfl
  | succ fuel ih =>
      cases progress with
      | done result => rfl
      | pause span next =>
          rw [finishNoting, finish]
          rcases follower.pause moment span with ⟨_ | _, paused⟩
          · rfl
          · exact ih ..

/-- As `request`, for opening the file, with notes of what is done. -/
def openNoting (follower : Follower) (moment : Moment) : Noted :=
  let begun := follower.begin .openFile
  (finishNoting moment begun.2.patience begun.1 begun.2).behind [.look follower.meetDue.find]

theorem request_eq (follower : Follower) (moment : Moment) (request : FileSource.Request) :
    follower.request moment request =
      finish moment (follower.begin request).2.patience (follower.begin request).1
        (follower.begin request).2 := by
  -- The patience is a large number, which must not be unfolded.
  delta Follower.request
  generalize follower.begin request = begun
  obtain ⟨progress, begun⟩ := begun
  rfl

theorem openNoting_snd (follower : Follower) (moment : Moment) :
    (follower.openNoting moment).2 = follower.request moment .openFile := by
  rw [openNoting, Noted.behind_snd, finishNoting_snd, request_eq]

/-- Open the file after some failed attempts, as far as it goes at once. -/
def lookFor (ready : Follower) (failed : UInt32) : FileSource.Progress × Follower :=
  let files := ready.cluster.files
  let (progress, source) := ready.source.openFor files (·.reads files) ready.stored .openFile failed
  (progress, { ready with source })

theorem begin_openFile (follower : Follower) :
    follower.begin .openFile = follower.meetDue.lookFor 0 :=
  rfl

section Looking

variable {follower : Follower} {moment : Moment} {count fuel : Nat}

/-- The delay behind a look for the file that was in vain. -/
def delayBehind (follower : Follower) (look : Nat) : Duration :=
  follower.source.settings.retry.delay (.ofNat look)

/-- The follower at one of its looks for the file, the first of which has the number zero, if it sleeps after
each as its policy says, whatever happens meanwhile. -/
def atLook (moment : Moment) (follower : Follower) : Nat → Follower
  | 0 => follower.meetDue
  | look + 1 =>
    ((follower.atLook moment look).sleep moment (follower.delayBehind look)).meetDue

@[simp]
theorem source_atLook (moment : Moment) (follower : Follower) (look : Nat) :
    (follower.atLook moment look).source = follower.source := by
  induction look with
  | zero => exact source_meetDue follower
  | succ look ih => rw [atLook, source_meetDue, source_sleep, ih]

@[simp]
theorem delayBehind_atLook (moment : Moment) (follower : Follower) (look count : Nat) :
    (follower.atLook moment look).delayBehind count = follower.delayBehind count := by
  rw [delayBehind, source_atLook, delayBehind]

/-- Whether the pause behind a look is cut short. -/
def IsCutShortAt (moment : Moment) (follower : Follower) (look : Nat) : Prop :=
  (follower.atLook moment look).IsCutShort (follower.delayBehind look)

instance (moment : Moment) (follower : Follower) (look : Nat) :
    Decidable (follower.IsCutShortAt moment look) :=
  inferInstanceAs (Decidable (IsCutShort _ _))

/-- Looks in vain, each with the whole pause behind it. -/
def rounds (follower : Follower) (count : Nat) : List Deed :=
  (List.range count).flatMap fun look =>
    [.look (.error .notFound), .sleep (follower.delayBehind look)]

/-- Whether the follower gets to its next look behind each of some first ones. -/
structure Waits (moment : Moment) (follower : Follower) (count : Nat) : Prop where
  missing : ∀ look < count, (follower.atLook moment look).find = .error .notFound
  goesOn : follower.source.settings.retry.GoesOn count
  whole : ∀ look < count, ¬ follower.IsCutShortAt moment look

theorem lookFor_of_goesOn {ready : Follower} (missing : ready.find = .error .notFound)
    (goesOn : ready.source.settings.retry.GoesOn (count + 1)) :
    ready.lookFor (.ofNat count) =
      (.pause (ready.delayBehind count) (.retry .openFile (.ofNat (count + 1))), ready) := by
  rw [lookFor, FileSource.openFor_of_goesOn missing _ goesOn]
  rfl

theorem lookFor_of_not_goesOn {ready : Follower} (missing : ready.find = .error .notFound)
    (counted : count + 1 < 2 ^ 32) (endsHere : ¬ ready.source.settings.retry.GoesOn (count + 1)) :
    ready.lookFor (.ofNat count) =
      (.done (.error (.fileNotFound ready.source.settings.file.text)), ready) := by
  rw [lookFor, FileSource.openFor_of_not_goesOn missing _ counted endsHere]

/-- Go on after some failed attempts until the file is opened or not, with notes. -/
def search (moment : Moment) (fuel : Nat) (ready : Follower) (failed : UInt32) : Noted :=
  finishNoting moment fuel (ready.lookFor failed).1 (ready.lookFor failed).2

theorem openNoting_eq (moment : Moment) (follower : Follower) :
    follower.openNoting moment =
      (search moment (follower.meetDue.lookFor 0).2.patience follower.meetDue 0).behind
        [.look follower.meetDue.find] := by
  rw [openNoting, begin_openFile, search]

theorem finishNoting_of_whole {span : Duration} (failed : UInt32)
    (whole : ¬ follower.IsCutShort span) :
    finishNoting moment (fuel + 1) (.pause span (.retry .openFile failed)) follower =
      (search moment fuel (follower.sleep moment span).meetDue failed).behind
        [.sleep span, .look (follower.sleep moment span).meetDue.find] := by
  rw [finishNoting, pause_of_whole moment whole]
  rfl

theorem finishNoting_of_isCutShort {span : Duration} (next : FileSource.Resume)
    (cut : follower.IsCutShort span) :
    finishNoting moment (fuel + 1) (.pause span next) follower =
      ([.cutSleep span], .error .cancelled, (follower.pause moment span).2) := by
  have isCut := pause_of_isCutShort moment cut
  rw [finishNoting]
  revert isCut
  rcases follower.pause moment span with ⟨_ | _, paused⟩
  · exact fun _ => rfl
  · exact nofun

/-- One look in vain, and the whole pause behind it. -/
theorem search_of_whole
    (missing : (follower.atLook moment count).find = .error .notFound)
    (goesOn : follower.source.settings.retry.GoesOn (count + 1))
    (whole : ¬ follower.IsCutShortAt moment count) :
    search moment (fuel + 1) (follower.atLook moment count) (.ofNat count) =
      (search moment fuel (follower.atLook moment (count + 1)) (.ofNat (count + 1))).behind
        [.sleep (follower.delayBehind count), .look (follower.atLook moment (count + 1)).find] := by
  have sameSource := source_atLook moment follower count
  rw [search, lookFor_of_goesOn missing (sameSource ▸ goesOn), delayBehind_atLook]
  exact finishNoting_of_whole _ whole

theorem Waits.of_succ (waits : Waits moment follower (count + 1)) :
    Waits moment follower count where
  missing look before := waits.missing look (Nat.lt_succ_of_lt before)
  goesOn := waits.goesOn.of_le (Nat.le_succ count)
  whole look before := waits.whole look (Nat.lt_succ_of_lt before)

/-- Up to a look, nothing is done but to look in vain and to sleep. -/
theorem search_of_waits (waits : Waits moment follower count) :
    (search moment (fuel + count) follower.meetDue 0).behind [.look follower.meetDue.find] =
      (search moment fuel (follower.atLook moment count) (.ofNat count)).behind
        (follower.rounds count ++ [.look (follower.atLook moment count).find]) := by
  induction count generalizing fuel with
  | zero => rfl
  | succ count ih =>
      have missing := waits.missing count (Nat.lt_succ_self count)
      have whole := waits.whole count (Nat.lt_succ_self count)
      have onceMore : follower.rounds (count + 1) = follower.rounds count ++
          [.look (.error .notFound), .sleep (follower.delayBehind count)] := by
        rw [rounds, List.range_succ, List.flatMap_append, List.flatMap_singleton, rounds]
      have before := @ih (fuel + 1) waits.of_succ
      rw [Nat.add_right_comm, search_of_whole missing waits.goesOn whole, Noted.behind_behind,
        missing] at before
      rw [← Nat.add_assoc, before, onceMore, List.append_assoc, List.append_assoc]
      rfl

theorem exists_patience (follower : Follower) (counted : count < 2 ^ 32) :
    ∃ fuel, follower.patience = fuel + 1 + count := by
  refine ⟨follower.patience - (count + 1), ?_⟩
  have enough : 2 ^ 32 ≤ follower.patience := Nat.le_add_left ..
  omega

theorem openNoting_of_waits (waits : Waits moment follower count) (counted : count < 2 ^ 32) :
    ∃ fuel, follower.openNoting moment =
      (search moment (fuel + 1) (follower.atLook moment count) (.ofNat count)).behind
        (follower.rounds count ++ [.look (follower.atLook moment count).find]) := by
  obtain ⟨fuel, patient⟩ := exists_patience (follower.meetDue.lookFor 0).2 counted
  exact ⟨fuel, by rw [openNoting_eq, patient, search_of_waits waits]⟩

/-- What opening comes to if the file is not missing: it is open at the stored position, unless there is no
such position, or something else is wrong with the file. -/
def answer (ready : Follower) : Except Error (List Record) × Follower :=
  match ready.find with
  | .ok node =>
    match storedPosition ready.stored with
    | .ok position =>
      (.ok [], { ready with source := ready.source.openAt node position ready.cluster.files })
    | .error error => (.error error, ready)
  | .error fault => (.error (.io fault.message), ready)

theorem lookFor_of_found {ready : Follower} (found : ready.find ≠ .error .notFound)
    (failed : UInt32) : ready.lookFor failed = (.done ready.answer.1, ready.answer.2) := by
  rw [find] at found
  rw [lookFor, FileSource.openFor, FileSource.attempt, answer, find]
  cases looked : ready.cluster.files.lookup ready.source.settings.file with
  | error fault =>
      cases fault with
      | notFound => exact absurd looked found
      | _ => rfl
  | ok node => cases storedPosition ready.stored <;> rfl

/-- The file is there at last, or something else is wrong with it. -/
theorem openNoting_of_found (waits : Waits moment follower count) (counted : count < 2 ^ 32)
    (found : (follower.atLook moment count).find ≠ .error .notFound) :
    follower.openNoting moment =
      (follower.rounds count ++ [.look (follower.atLook moment count).find],
        (follower.atLook moment count).answer) := by
  obtain ⟨fuel, noted⟩ := openNoting_of_waits waits counted
  rw [noted, search, lookFor_of_found found, finishNoting, Noted.behind, List.append_nil]

/-- All attempts are used up. -/
theorem openNoting_of_exhausted (waits : Waits moment follower count)
    (counted : count + 1 < 2 ^ 32)
    (missing : (follower.atLook moment count).find = .error .notFound)
    (endsHere : ¬ follower.source.settings.retry.GoesOn (count + 1)) :
    follower.openNoting moment =
      (follower.rounds count ++ [.look (.error .notFound)],
        .error (.fileNotFound follower.source.settings.file.text), follower.atLook moment count) := by
  obtain ⟨fuel, noted⟩ := openNoting_of_waits waits (Nat.lt_of_succ_lt counted)
  have sameSource := source_atLook moment follower count
  rw [noted, search, lookFor_of_not_goesOn missing counted (sameSource ▸ endsHere), finishNoting,
    Noted.behind, List.append_nil, missing, sameSource]

/-- A cancellation ends the pause behind a look. -/
theorem openNoting_of_isCutShort (waits : Waits moment follower count)
    (counted : count < 2 ^ 32)
    (missing : (follower.atLook moment count).find = .error .notFound)
    (goesOn : follower.source.settings.retry.GoesOn (count + 1))
    (cut : follower.IsCutShortAt moment count) :
    follower.openNoting moment =
      (follower.rounds count ++
          [.look (.error .notFound), .cutSleep (follower.delayBehind count)],
        .error .cancelled,
        ((follower.atLook moment count).pause moment (follower.delayBehind count)).2) := by
  obtain ⟨fuel, noted⟩ := openNoting_of_waits waits counted
  have sameSource := source_atLook moment follower count
  rw [noted, search, lookFor_of_goesOn missing (sameSource ▸ goesOn), delayBehind_atLook,
    finishNoting_of_isCutShort _ cut, Noted.behind, missing, List.append_assoc]
  rfl

end Looking

section Failing

/-- Unless the file is opened at once, the source is as before. -/
theorem lookFor_cases (ready : Follower) (failed : UInt32) :
    (∃ error, ready.lookFor failed = (.done (.error error), ready)) ∨
      (∃ source, ready.lookFor failed = (.done (.ok []), { ready with source })) ∨
      ∃ span again, ready.lookFor failed = (.pause span (.retry .openFile again), ready) := by
  rw [lookFor, FileSource.openFor]
  cases ready.source.attempt ready.cluster.files ready.stored failed with
  | opened source =>
      refine .inr (.inl ⟨source, ?_⟩)
      cases isOpen : source.file with
      | none => simp only [isOpen]
      | some file => simp only [isOpen, FileSource.proceed]
  | failed error => exact .inl ⟨error, rfl⟩
  | pause span again => exact .inr (.inr ⟨span, again, rfl⟩)

theorem finish_done (moment : Moment) (fuel : Nat) (result : Except Error (List Record))
    (follower : Follower) : finish moment fuel (.done result) follower = (result, follower) := by
  cases fuel <;> rfl

theorem source_finish_of_error {moment : Moment} {error : Error} (fuel : Nat)
    (ready : Follower) (failed : UInt32)
    (fails : (finish moment fuel (ready.lookFor failed).1 (ready.lookFor failed).2).1 =
      .error error) :
    (finish moment fuel (ready.lookFor failed).1 (ready.lookFor failed).2).2.source =
      ready.source := by
  rcases ready.lookFor_cases failed with ⟨cause, looked⟩ | ⟨source, looked⟩ |
    ⟨span, again, looked⟩
  · rw [looked, finish_done]
  · rw [looked, finish_done] at fails
    exact absurd fails nofun
  · rw [looked] at fails ⊢
    cases fuel with
    | zero => rfl
    | succ fuel =>
        have sameSource := source_pause ready moment span
        simp only [finish] at fails ⊢
        revert fails sameSource
        rcases ready.pause moment span with ⟨_ | _, paused⟩
        · exact fun _ sameSource => sameSource
        · intro fails sameSource
          have goesOn := source_finish_of_error fuel paused.meetDue again fails
          exact goesOn.trans ((source_meetDue paused).trans sameSource)

/-- Opening that fails leaves the source as it was. -/
theorem source_request_of_error {follower : Follower} {moment : Moment} {error : Error}
    (fails : (follower.request moment .openFile).1 = .error error) :
    (follower.request moment .openFile).2.source = follower.source := by
  rw [request_eq, begin_openFile] at fails ⊢
  rw [source_finish_of_error _ _ _ fails, source_meetDue]

end Failing

/-- As long as the policy of a source allows it, opening makes one attempt after the other at a missing
file, and sleeps in between exactly as long as the policy says. It ends with the first attempt at which the
file is not missing. If the policy does not allow as many, its last attempt ends it instead, and so does a
cancellation during a sleep, without another attempt. If opening fails, the source is as before. -/
theorem waiting_follows_policy (follower : Follower) (moment : Moment) {misses : Nat}
    (counted : misses < 2 ^ 32 - 1)
    (missing : ∀ look < misses, (follower.atLook moment look).find = .error .notFound) :
    ((follower.atLook moment misses).find ≠ .error .notFound →
      follower.source.settings.retry.GoesOn misses →
      (∀ look < misses, ¬ follower.IsCutShortAt moment look) →
      follower.openNoting moment =
        (follower.rounds misses ++ [.look (follower.atLook moment misses).find],
          (follower.atLook moment misses).answer)) ∧
    (∀ most, follower.source.settings.retry.maxAttempts = some most →
      max most.toNat 1 ≤ misses →
      (∀ look < max most.toNat 1 - 1, ¬ follower.IsCutShortAt moment look) →
      follower.openNoting moment =
        (follower.rounds (max most.toNat 1 - 1) ++ [.look (.error .notFound)],
          .error (.fileNotFound follower.source.settings.file.text),
          follower.atLook moment (max most.toNat 1 - 1))) ∧
    (∀ look < misses, follower.source.settings.retry.GoesOn (look + 1) →
      (∀ earlier < look, ¬ follower.IsCutShortAt moment earlier) →
      follower.IsCutShortAt moment look →
      follower.openNoting moment =
        (follower.rounds look ++
            [.look (.error .notFound), .cutSleep (follower.delayBehind look)],
          .error .cancelled,
          ((follower.atLook moment look).pause moment (follower.delayBehind look)).2)) ∧
    (follower.openNoting moment).2 = follower.request moment .openFile ∧
    ∀ error, (follower.request moment .openFile).1 = .error error →
      (follower.request moment .openFile).2.source = follower.source := by
  refine ⟨fun found goesOn whole => ?_, fun most bounded enough whole => ?_,
    fun look before goesOn whole cut => ?_, openNoting_snd follower moment,
    fun error fails => source_request_of_error fails⟩
  · exact openNoting_of_found ⟨missing, goesOn, whole⟩ (Nat.lt_of_lt_of_le counted (by decide)) found
  · obtain ⟨last, isLast⟩ : ∃ last, max most.toNat 1 = last + 1 :=
      Nat.exists_eq_succ_of_ne_zero (by omega)
    rw [isLast] at enough whole ⊢
    have goesOn : follower.source.settings.retry.GoesOn last := fun other isMost => by
      obtain rfl := Option.some.inj (bounded.symm.trans isMost)
      omega
    have endsHere : ¬ follower.source.settings.retry.GoesOn (last + 1) := fun goes => by
      have := goes most bounded
      omega
    have missingSoFar (look : Nat) (before : look < last) :=
      missing look (Nat.lt_trans before enough)
    exact openNoting_of_exhausted ⟨missingSoFar, goesOn, whole⟩ (by omega) (missing last enough)
      endsHere
  · have missingSoFar (earlier : Nat) (isEarlier : earlier < look) :=
      missing earlier (Nat.lt_trans isEarlier before)
    exact openNoting_of_isCutShort ⟨missingSoFar, goesOn.of_le (Nat.le_succ look), whole⟩ (by omega)
      (missing look before) goesOn cut

section Latecomer

/-- A worker that opens a file with delays of 10, 20, 40 and again 40 milliseconds. The file is made after
50 milliseconds. -/
def latecomer (maxAttempts : Option UInt32) (cancellation : List (Instant × Incident)) :
    Follower :=
  let settings := SourceSettings.new (.ofText "log")
  let retry := ⟨.exponential, .ofMilliseconds 10, .ofMilliseconds 40, maxAttempts⟩
  { cluster := .new .new .empty [.new "positions" "worker" .inMemory .never]
    source := .new { settings with retry }
    cancelled := false
    agenda := cancellation ++ [(50000000, .change (.write (.ofText "log") [97, 10]))] }

/-- The file is found at the look after 70 milliseconds. Only two attempts, or a cancellation in the second
sleep, end it before. -/
theorem waiting_follows_policy_of_latecomer :
    let missed : Deed := .look (.error .notFound)
    ((latecomer none []).openNoting Timestamp.epoch).1 =
        [missed, .sleep (.ofMilliseconds 10), missed, .sleep (.ofMilliseconds 20),
          missed, .sleep (.ofMilliseconds 40), .look (.ok (.file 0))] ∧
      ((latecomer none []).request Timestamp.epoch .openFile).1 = .ok [] ∧
      ((latecomer (some 2) []).openNoting Timestamp.epoch).1 =
        [missed, .sleep (.ofMilliseconds 10), missed] ∧
      ((latecomer (some 2) []).request Timestamp.epoch .openFile).1 = .error (.fileNotFound "log") ∧
      ((latecomer (some 3) [(15000000, .cancel)]).openNoting Timestamp.epoch).1 =
        [missed, .sleep (.ofMilliseconds 10), missed, .cutSleep (.ofMilliseconds 20)] ∧
      ((latecomer (some 3) [(15000000, .cancel)]).request Timestamp.epoch .openFile).1 =
        .error .cancelled := by
  intro missed
  have counted : 3 < 2 ^ 32 - 1 := by decide
  obtain ⟨found, -, -, opened, -⟩ := waiting_follows_policy (latecomer none []) Timestamp.epoch counted
    (by decide +kernel)
  obtain ⟨-, exhausted, -, gaveUp, -⟩ := waiting_follows_policy (latecomer (some 2) []) Timestamp.epoch
    counted (by decide +kernel)
  obtain ⟨-, -, cut, cancelled, -⟩ := waiting_follows_policy
    (latecomer (some 3) [(15000000, .cancel)]) Timestamp.epoch counted (by decide +kernel)
  have found := found (by decide +kernel) nofun (by decide +kernel)
  have exhausted := exhausted 2 rfl (by decide) (by decide +kernel)
  have cut := cut 1 (by decide) (fun most bounded => by obtain rfl := Option.some.inj bounded; decide)
    (by decide +kernel) (by decide +kernel)
  rw [← opened, ← gaveUp, ← cancelled, found, exhausted, cut]
  exact ⟨by decide +kernel, by decide +kernel, by decide +kernel, by decide +kernel,
    by decide +kernel, rfl⟩

end Latecomer

end PositionSync.Follower
