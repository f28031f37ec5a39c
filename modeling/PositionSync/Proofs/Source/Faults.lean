import Mathlib.Data.List.Nodup
import PositionSync.Proofs.Decimal.Unsigned
import PositionSync.Proofs.SortedMap
import PositionSync.Proofs.Source.Polling

/-!
# Polls with failing reads

A read that fails ends its poll. The lines that the poll has taken off the file by then are not handed
out, but the source is behind them. So they are skipped: what later polls hand out follows behind them.
-/

namespace PositionSync

theorem fileOffset_injective : Function.Injective fileOffset := by
  intro position other same
  have kept (number : Nat) : (fileOffset number).attributes.get? nextPositionKey =
      some (Decimal.render number) := SortedMap.get?_insert_self ..
  have sameText : Decimal.render position = Decimal.render other :=
    Option.some.inj ((kept position).symm.trans (same ▸ kept other))
  have read := Decimal.parse_render (Nat.le_max_left position other)
  rw [sameText, Decimal.parse_render (Nat.le_max_right position other)] at read
  exact (Except.ok.inj read).symm

namespace Splits

variable {partition : Partition} {start : Nat} {data rest : List UInt8} {lines : List SplitLine}

/-- A line takes octets, so the position behind it is not the one in front of it. -/
theorem offset_of_mem_recordsOf (splits : Splits data lines rest) {record : Record}
    (member : record ∈ recordsOf partition start lines) :
    ∃ position, start < position ∧ record.offset = fileOffset position := by
  induction splits generalizing start with
  | stop data => simp at member
  | line split later ih =>
      have used := (splitLine?_used split).1
      rw [recordsOf_cons, List.mem_cons] at member
      rcases member with rfl | member
      · exact ⟨_, Nat.lt_add_of_pos_right used, rfl⟩
      · obtain ⟨position, behind, same⟩ := ih member
        exact ⟨position, by omega, same⟩

theorem nodup_recordsOf (splits : Splits data lines rest) :
    (recordsOf partition start lines).Nodup := by
  induction splits generalizing start with
  | stop data => exact List.nodup_nil
  | line split later ih =>
      rw [recordsOf_cons, List.nodup_cons]
      refine ⟨fun member => ?_, ih⟩
      obtain ⟨position, behind, same⟩ := later.offset_of_mem_recordsOf member
      exact Nat.ne_of_lt behind (fileOffset_injective same)

end Splits

theorem nodup_recordsFrom (path : Path) (start : Nat) (content : List UInt8) :
    (recordsFrom path start content).Nodup :=
  (splits_allLines _).nodup_recordsOf

/-- A poll, and the records of the lines that it has taken off the file. -/
structure Share where
  poll : Poll
  records : List Record

namespace Share

/-- A poll hands out all that it has taken, or it fails before its batch is full. -/
inductive IsProper (batchSize : Nat) : Share → Prop where
  | handedOut {records : List Record} (present : List UInt8) (atMost : records.length ≤ batchSize) :
      IsProper batchSize ⟨⟨some (.ok records), present⟩, records⟩
  | failed {records : List Record} (present : List UInt8) (message : String)
      (notFull : records.length < batchSize) :
      IsProper batchSize ⟨⟨some (.error (.io message)), present⟩, records⟩

/-- Whether lines have been taken by a poll that failed. -/
def IsLost (share : Share) : Prop :=
  (∃ error, share.poll.answer = some (.error error)) ∧ share.records ≠ []

theorem IsProper.handsOut_or_isLost {batchSize : Nat} {share : Share}
    (proper : share.IsProper batchSize) :
    share.poll.records = share.records ∧ ¬ share.IsLost ∨ share.poll.records = [] ∧ share.IsLost := by
  cases proper with
  | handedOut present atMost => exact .inl ⟨rfl, by simp [IsLost]⟩
  | @failed records present message notFull =>
      by_cases empty : records = []
      · exact .inl ⟨empty.symm, fun isLost => isLost.2 empty⟩
      · exact .inr ⟨rfl, ⟨_, rfl⟩, empty⟩

def taken (shares : List Share) : List Record := shares.flatMap Share.records

section Skipping

variable {batchSize : Nat} {shares : List Share}

theorem handed_sublist_taken (proper : ∀ share ∈ shares, share.IsProper batchSize) :
    (handed (shares.map Share.poll)).Sublist (taken shares) := by
  induction shares with
  | nil => exact .slnil
  | cons share shares ih =>
      have later := ih fun other member => proper other (List.mem_cons_of_mem _ member)
      refine List.Sublist.append ?_ later
      rcases (proper share List.mem_cons_self).handsOut_or_isLost with ⟨same, -⟩ | ⟨nothing, -⟩
      · rw [same]
      · rw [nothing]
        exact List.nil_sublist _

/-- Something behind a gap does not begin with the gap. -/
theorem eq_nil_of_isPrefix_append {gap behind records : List Record} (isGap : gap ≠ [])
    (distinct : (gap ++ behind).Nodup) (isBehind : records ⊆ behind)
    (isPrefix : records <+: gap ++ behind) : records = [] := by
  cases records with
  | nil => rfl
  | cons record more =>
      obtain ⟨first, others, rfl⟩ := List.exists_cons_of_ne_nil isGap
      rw [List.cons_append, List.cons_prefix_cons] at isPrefix
      obtain ⟨rfl, -⟩ := isPrefix
      rw [List.cons_append, List.nodup_cons] at distinct
      exact absurd (List.mem_append_right others (isBehind List.mem_cons_self)) distinct.1

/-- As long as nothing is handed out after a loss nothing has been skipped, and no longer. -/
theorem handed_isPrefix_taken_iff (proper : ∀ share ∈ shares, share.IsProper batchSize)
    (distinct : (taken shares).Nodup) :
    handed (shares.map Share.poll) <+: taken shares ↔
      shares.Pairwise fun earlier later => earlier.IsLost → later.poll.records = [] := by
  induction shares with
  | nil => simp [handed]
  | cons share shares ih =>
      have properLater (other : Share) (member : other ∈ shares) : other.IsProper batchSize :=
        proper other (List.mem_cons_of_mem _ member)
      have goesOn := ih properLater distinct.of_append_right
      have allHanded : handed ((share :: shares).map Share.poll) =
          share.poll.records ++ handed (shares.map Share.poll) := rfl
      have allTaken : taken (share :: shares) = share.records ++ taken shares := rfl
      rw [List.pairwise_cons, allHanded, allTaken, ← goesOn]
      rcases (proper share List.mem_cons_self).handsOut_or_isLost with
        ⟨same, notLost⟩ | ⟨nothing, isLost⟩
      · rw [same, List.prefix_append_right_inj]
        exact ⟨fun isPrefix => ⟨fun _ _ isLost => absurd isLost notLost, isPrefix⟩, And.right⟩
      · have silent : handed (shares.map Share.poll) = [] ↔
            ∀ later ∈ shares, later.poll.records = [] := by
          simp [handed, List.flatMap_eq_nil_iff]
        rw [nothing, List.nil_append]
        constructor
        · intro isPrefix
          have handsNothing := eq_nil_of_isPrefix_append isLost.2 distinct
            (handed_sublist_taken properLater).subset isPrefix
          refine ⟨fun later member _ => silent.1 handsNothing later member, ?_⟩
          rw [handsNothing]
          exact List.nil_prefix
        · rintro ⟨nothingLater, -⟩
          rw [silent.2 fun later member => nothingLater later member isLost]
          exact List.nil_prefix

end Skipping

end Share

namespace TailedFile

/-- As `Runs`, but reads may fail. -/
inductive FaultyRuns (start : TailedFile) : List Poll → TailedFile → Prop where
  | begin : FaultyRuns start [] start
  | grow {polls : List Poll} {tail : TailedFile} (run : FaultyRuns start polls tail)
      (grown : List UInt8) : FaultyRuns start polls { tail with content := tail.content ++ grown }
  | poll {polls : List Poll} {tail : TailedFile} (run : FaultyRuns start polls tail)
      {files : FileSystem} {reads : OpenFile → List ReadResult} {stored : Option Offset}
      {present : List UInt8}
      (legal : ∀ file, tail.source.file = some file →
        FaultyReads tail.content file.position (reads file) present)
      {answer : Option (Except Error (List Record))} {source : FileSource}
      (polled : tail.source.poll files reads stored = (answer, source)) :
      FaultyRuns start (polls ++ [⟨answer, present⟩]) ⟨present, source⟩

namespace Stands

variable {settings : SourceSettings} {start : Nat} {records : List Record}

/-- Whether or not a poll fails, the source is behind the lines that it has taken. -/
theorem poll {tail : TailedFile} (stands : Stands settings start records tail) {files : FileSystem}
    {reads : OpenFile → List ReadResult} {stored : Option Offset} {present : List UInt8}
    (legal : ∀ file, tail.source.file = some file →
      FaultyReads tail.content file.position (reads file) present)
    {answer : Option (Except Error (List Record))} {source : FileSource}
    (polled : tail.source.poll files reads stored = (answer, source)) :
    ∃ share : Share, share.poll = ⟨answer, present⟩ ∧ share.IsProper settings.batchSize ∧
      Stands settings start (records ++ share.records) ⟨present, source⟩ := by
  obtain ⟨file, follows⟩ := stands.follows
  have legal := legal file follows.isOpen
  obtain ⟨more, rfl⟩ : tail.content <+: present := legal.isPrefix
  rw [FileSource.poll_eq files stored follows.isOpen] at polled
  obtain ⟨lines, after, ⟨batch, handsOut⟩ | ⟨message, -, notFull, batch, takes⟩⟩ :=
    FileSource.readBatch_cases follows legal
  · rw [batch] at polled
    obtain ⟨rfl, rfl⟩ := Prod.mk.inj polled
    refine ⟨⟨_, _⟩, rfl, .handedOut _ ?_, (stands.grow more).take handsOut.toTakes⟩
    rw [length_recordsOf, ← stands.sameSettings]
    exact handsOut.atMost
  · rw [batch] at polled
    obtain ⟨rfl, rfl⟩ := Prod.mk.inj polled
    refine ⟨⟨_, recordsOf tail.source.partition tail.source.streamOffset lines⟩, rfl,
      .failed _ message ?_, (stands.grow more).take takes⟩
    rw [length_recordsOf, ← stands.sameSettings]
    exact notFull

theorem exists_shares {first last : TailedFile} {polls : List Poll}
    (begins : Stands settings start [] first) (run : first.FaultyRuns polls last) :
    ∃ shares : List Share, shares.map Share.poll = polls ∧
      (∀ share ∈ shares, share.IsProper settings.batchSize) ∧
      Stands settings start (Share.taken shares) last := by
  induction run with
  | begin => exact ⟨[], rfl, by simp, begins⟩
  | grow run grown ih =>
      obtain ⟨shares, arePolls, proper, stands⟩ := ih
      exact ⟨shares, arePolls, proper, stands.grow grown⟩
  | poll run legal polled ih =>
      obtain ⟨shares, rfl, proper, stands⟩ := ih
      obtain ⟨share, isPoll, isProper, standsAfter⟩ := stands.poll legal polled
      refine ⟨shares ++ [share], by rw [List.map_append, List.map_singleton, isPoll], ?_, ?_⟩
      · intro other member
        rcases List.mem_append.1 member with member | member
        · exact proper other member
        · obtain rfl := List.mem_singleton.1 member
          exact isProper
      · rw [Share.taken, List.flatMap_append, List.flatMap_singleton]
        exact standsAfter

end Stands

/-- When reads fail, all polls together still take the first lines of the file one after the other, and
the source is behind the last of them. But a poll that fails does not hand out what it has taken. So lines
are skipped as soon as a poll has failed that had taken some and a later one hands out any, and not
before. -/
theorem failed_polls_skip_what_they_took {fresh : FileSource} {files : FileSystem}
    {number start : Nat} {polls : List Poll} {last : TailedFile}
    (within : start ≤ (files.octets number).length)
    (run : FaultyRuns ⟨files.octets number, fresh.openAt (.file number) start files⟩ polls last) :
    ∃ shares : List Share, shares.map Share.poll = polls ∧
      (∀ share ∈ shares, share.IsProper fresh.settings.batchSize) ∧
      Share.taken shares <+: recordsFrom fresh.settings.file start last.content ∧
      (∀ record, (Share.taken shares).getLast? = some record →
        record.offset = fileOffset last.source.streamOffset) ∧
      (handed polls <+: recordsFrom fresh.settings.file start last.content ↔
        shares.Pairwise fun earlier later => earlier.IsLost → later.poll.records = []) := by
  obtain ⟨shares, rfl, proper, stands⟩ := (Stands.begin fresh within).exists_shares run
  have allTaken := stands.isPrefix
  have distinct : (Share.taken shares).Nodup :=
    allTaken.sublist.nodup (nodup_recordsFrom _ _ _)
  refine ⟨shares, rfl, proper, allTaken, fun record => stands.offset_of_getLast?, ?_⟩
  rw [← Share.handed_isPrefix_taken_iff proper distinct]
  constructor
  · intro isPrefix
    exact List.prefix_of_prefix_length_le isPrefix allTaken
      (Share.handed_sublist_taken proper).length_le
  · exact fun isPrefix => isPrefix.trans allTaken

section TwoLines

/-- A file with two lines. -/
def twoLines : FileSystem := ⟨.empty, .ofList [(0, [97, 10, 98, 10])], 1, FileSystem.isTree_empty 1⟩

def reader : FileSource := .new ((SourceSettings.new (.ofText "log")).withBatchSize 3)

def ioError : Error := .io "Input/output error (os error 5)"

/-- The second read of the first poll fails, and the second poll reads to the end. -/
def interrupted : List Poll :=
  [⟨some (.error ioError), twoLines.octets 0⟩,
    ⟨some (.ok [⟨filePartition (.ofText "log"), fileOffset 4, "b"⟩]), twoLines.octets 0⟩]

theorem runs_interrupted : ∃ source,
    FaultyRuns ⟨twoLines.octets 0, reader.openAt (.file 0) 0 twoLines⟩ interrupted
      ⟨twoLines.octets 0, source⟩ := by
  let behindFirst : FileSource := { reader with file := some ⟨.file 0, 2⟩, streamOffset := 2 }
  let atEnd : FileSource := { reader with file := some ⟨.file 0, 4⟩, streamOffset := 4 }
  have failed : FaultyRuns ⟨twoLines.octets 0, reader.openAt (.file 0) 0 twoLines⟩
      [⟨some (.error ioError), twoLines.octets 0⟩] ⟨twoLines.octets 0, behindFirst⟩ := by
    have polled : (reader.openAt (.file 0) 0 twoLines).poll twoLines
        (fun _ => [.octets [97, 10], .failed "Input/output error (os error 5)"]) none =
          (some (.error ioError), behindFirst) := by decide +kernel
    refine FaultyRuns.begin.poll (fun file isOpen => ?_) polled
    obtain rfl : ⟨.file 0, 0⟩ = file := Option.some.inj isOpen
    exact .octets [97, 10] (by decide) (by decide) (by decide +kernel) (.failed _)
  have polled : behindFirst.poll twoLines (fun _ => [.octets [98, 10], .endOfFile]) none =
      (some (.ok [⟨filePartition (.ofText "log"), fileOffset 4, "b"⟩]), atEnd) := by decide +kernel
  refine ⟨atEnd, failed.poll (fun file isOpen => ?_) polled⟩
  obtain rfl : ⟨.file 0, 2⟩ = file := Option.some.inj isOpen
  exact .octets [98, 10] (by decide) (by decide) (by decide +kernel) (.endOfFile (by decide +kernel))

/-- The file begins with a line that is never handed out. -/
theorem failed_poll_skips_first_line :
    ∃ polls last, FaultyRuns ⟨twoLines.octets 0, reader.openAt (.file 0) 0 twoLines⟩ polls last ∧
      last.content = twoLines.octets 0 ∧
      ¬ handed polls <+: recordsFrom reader.settings.file 0 (twoLines.octets 0) := by
  obtain ⟨source, run⟩ := runs_interrupted
  exact ⟨interrupted, _, run, rfl, by decide +kernel⟩

/-- What the first poll has taken is lost. -/
theorem failed_polls_skip_what_they_took_of_interrupted :
    ∃ shares : List Share, shares.map Share.poll = interrupted ∧
      Share.taken shares <+: recordsFrom reader.settings.file 0 (twoLines.octets 0) ∧
      ¬ shares.Pairwise fun earlier later => earlier.IsLost → later.poll.records = [] := by
  obtain ⟨source, run⟩ := runs_interrupted
  have within : 0 ≤ (twoLines.octets 0).length := Nat.zero_le _
  obtain ⟨shares, arePolls, -, allTaken, -, isPrefix_iff⟩ :=
    failed_polls_skip_what_they_took within run
  have skipped : ¬ handed interrupted <+: recordsFrom reader.settings.file 0 (twoLines.octets 0) := by
    decide +kernel
  exact ⟨shares, arePolls, allTaken, mt isPrefix_iff.2 skipped⟩

end TwoLines

end TailedFile

end PositionSync
