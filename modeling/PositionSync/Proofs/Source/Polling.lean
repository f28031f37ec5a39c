import PositionSync.Proofs.Histories
import PositionSync.Proofs.Source.Batches

/-!
# Polling a growing file

While a source with an open file is polled again and again, its file may grow between the polls and
between the reads of a poll. All batches together are the first lines of the file behind the position
at which it has been opened, each line once and in the order of the file.
-/

namespace PositionSync

namespace FileSource

section Answers

variable (source : FileSource) (files : FileSystem) (reads : OpenFile → List ReadResult)
  (stored : Option Offset)

/-- The answer to a request that has got so far. A pause is waited for, but if another one follows,
there is no answer yet. -/
def settle : Progress × FileSource → Option (Except Error (List Record)) × FileSource
  | (.done result, source) => (some result, source)
  | (.pause _ next, source) =>
    match source.resume files reads stored next with
    | (.done result, source) => (some result, source)
    | (.pause .., source) => (none, source)

def poll : Option (Except Error (List Record)) × FileSource :=
  settle files reads stored (source.begin files reads stored .poll)

/-- Let a source open its file, also if it is open already. -/
def openFile : Option (Except Error (List Record)) × FileSource :=
  settle files reads stored (source.begin files reads stored .openFile)

end Answers

variable {source : FileSource} {content present : List UInt8} {file : OpenFile}
  {reads : OpenFile → List ReadResult}

/-- The answer is the batch, also after a pause. -/
theorem settle_proceed_eq (files : FileSystem) (stored : Option Offset) (source : FileSource)
    (file : OpenFile) :
    settle files reads stored (source.proceed reads .poll file) =
      (some (source.readBatch file (reads file)).1, (source.readBatch file (reads file)).2) := by
  rw [proceed]
  rcases source.readBatch file (reads file) with ⟨_ | _ | _, after⟩
  · rfl
  · rfl
  · rfl

theorem poll_eq (files : FileSystem) (stored : Option Offset) (isOpen : source.file = some file) :
    source.poll files reads stored =
      (some (source.readBatch file (reads file)).1, (source.readBatch file (reads file)).2) := by
  rw [← settle_proceed_eq files stored]
  simp only [poll, begin, isOpen]

theorem settle_proceed (files : FileSystem) (stored : Option Offset)
    (follows : source.Follows content file)
    (legal : Reads content file.position (reads file) present) :
    ∃ lines after, settle files reads stored (source.proceed reads .poll file) =
        (some (.ok (recordsOf source.partition source.streamOffset lines)), after) ∧
      source.HandsOut present file.node lines after := by
  obtain ⟨lines, after, batch, handsOut⟩ := readBatch_spec follows legal
  exact ⟨lines, after, by rw [settle_proceed_eq, batch], handsOut⟩

/-- A poll of an open file succeeds. -/
theorem poll_of_follows (files : FileSystem) (stored : Option Offset)
    (follows : source.Follows content file)
    (legal : Reads content file.position (reads file) present) :
    ∃ lines after, source.poll files reads stored =
        (some (.ok (recordsOf source.partition source.streamOffset lines)), after) ∧
      source.HandsOut present file.node lines after := by
  obtain ⟨lines, after, batch, handsOut⟩ := readBatch_spec follows legal
  exact ⟨lines, after, by rw [poll_eq files stored follows.isOpen, batch], handsOut⟩

/-- A source that has just opened a file is in front of its octets. -/
theorem follows_openAt (fresh : FileSource) {files : FileSystem} {number position : Nat}
    (within : position ≤ (files.octets number).length) :
    (fresh.openAt (.file number) position files).Follows (files.octets number)
        ⟨.file number, position⟩ ∧
      (fresh.openAt (.file number) position files).streamOffset = position := by
  have notShorter : ¬ (OpenFile.mk (.file number) 0).length files < position := Nat.not_lt.2 within
  rw [openAt, if_neg notShorter]
  exact ⟨⟨rfl, rfl, within, rfl⟩, rfl⟩

/-- A file that is there is opened at the stored position. -/
theorem openFor_of_lookup (fresh : FileSource) {files : FileSystem} {stored : Option Offset}
    {number position : Nat} (isFile : files.lookup fresh.settings.file = .ok (.file number))
    (isStored : storedPosition stored = .ok position)
    (within : position ≤ (files.octets number).length) (request : Request) (failed : UInt32) :
    fresh.openFor files reads stored request failed =
      (fresh.openAt (.file number) position files).proceed reads request
        ⟨.file number, position⟩ := by
  have isOpen := (follows_openAt fresh within).1.isOpen
  simp only [openFor, attempt, isFile, isStored, isOpen]

end FileSource

/-- A file that is being followed: what it holds, and the source that has it open. -/
structure TailedFile where
  content : List UInt8
  source : FileSource

/-- A poll: the answer, and what the file held at its last read. -/
structure Poll where
  answer : Option (Except Error (List Record))
  present : List UInt8

def Poll.records (poll : Poll) : List Record :=
  match poll.answer with
  | some (.ok records) => records
  | _ => []

def handed (polls : List Poll) : List Record := polls.flatMap Poll.records

namespace TailedFile

/-- What leads from one moment to another: octets are appended to the file and the source is polled,
in any order, where a poll reads what the file holds, in any pieces. -/
inductive Runs (start : TailedFile) : List Poll → TailedFile → Prop where
  | begin : Runs start [] start
  | grow {polls : List Poll} {tail : TailedFile} (run : Runs start polls tail) (grown : List UInt8) :
      Runs start polls { tail with content := tail.content ++ grown }
  | poll {polls : List Poll} {tail : TailedFile} (run : Runs start polls tail) {files : FileSystem}
      {reads : OpenFile → List ReadResult} {stored : Option Offset} {present : List UInt8}
      (legal : ∀ file, tail.source.file = some file →
        Reads tail.content file.position (reads file) present)
      {answer : Option (Except Error (List Record))} {source : FileSource}
      (polled : tail.source.poll files reads stored = (answer, source)) :
      Runs start (polls ++ [⟨answer, present⟩]) ⟨present, source⟩

/-- What holds throughout a run that began at some octet: the records handed out are those of the lines
up to the source's position, and every batch in which there was room left was up to date. -/
structure Keeps (settings : SourceSettings) (start : Nat) (polls : List Poll) (tail : TailedFile) :
    Prop where
  sameSettings : tail.source.settings = settings
  follows : ∃ file, tail.source.Follows tail.content file
  lines : ∃ taken, handed polls = recordsOf (filePartition settings.file) start taken ∧
    tail.source.streamOffset = start + usedBy taken ∧
    Splits (tail.content.drop start) taken (tail.content.drop tail.source.streamOffset)
  answered : ∀ poll ∈ polls, ∃ batch, poll.answer = some (.ok batch) ∧
    batch.length ≤ settings.batchSize
  complete : ∀ earlier poll later, polls = earlier ++ poll :: later →
    poll.records.length < settings.batchSize →
      handed (earlier ++ [poll]) = recordsFrom settings.file start poll.present

/-- A source with an open file that has taken the lines of some records off it, beginning at an octet. -/
structure Stands (settings : SourceSettings) (start : Nat) (records : List Record)
    (tail : TailedFile) : Prop where
  sameSettings : tail.source.settings = settings
  follows : ∃ file, tail.source.Follows tail.content file
  lines : ∃ taken, records = recordsOf (filePartition settings.file) start taken ∧
    tail.source.streamOffset = start + usedBy taken ∧
    Splits (tail.content.drop start) taken (tail.content.drop tail.source.streamOffset)

namespace Stands

variable {settings : SourceSettings} {start : Nat} {records : List Record} {tail : TailedFile}

theorem begin (fresh : FileSource) {files : FileSystem} {number : Nat}
    (within : start ≤ (files.octets number).length) :
    Stands fresh.settings start []
      ⟨files.octets number, fresh.openAt (.file number) start files⟩ := by
  obtain ⟨follows, position⟩ := FileSource.follows_openAt fresh within
  refine ⟨rfl, ⟨_, follows⟩, [], rfl, position, ?_⟩
  rw [position]
  exact .stop _

theorem grow (stands : Stands settings start records tail) (grown : List UInt8) :
    Stands settings start records { tail with content := tail.content ++ grown } := by
  obtain ⟨sameSettings, ⟨file, follows⟩, taken, listed, position, splits⟩ := stands
  have read := follows.read
  have within := follows.within
  refine ⟨sameSettings, ⟨file, follows.grow grown⟩, taken, listed, position, ?_⟩
  have inside : tail.source.streamOffset ≤ tail.content.length := by omega
  rw [List.drop_append_of_le_length (by omega), List.drop_append_of_le_length inside]
  exact splits.append grown

theorem take (stands : Stands settings start records tail) {node : FileNode}
    {lines : List SplitLine} {after : FileSource}
    (takes : tail.source.Takes tail.content node lines after) :
    Stands settings start
      (records ++ recordsOf tail.source.partition tail.source.streamOffset lines)
      ⟨tail.content, after⟩ := by
  obtain ⟨rfl, -, taken, rfl, position, splits⟩ := stands
  obtain ⟨read, followsAfter⟩ := takes.follows
  refine ⟨takes.settings, ⟨_, followsAfter⟩, taken ++ lines, ?_, ?_, splits.trans takes.splits⟩
  · rw [recordsOf_append, ← position]
    rfl
  · change after.streamOffset = _
    rw [takes.streamOffset, position, usedBy_append, Nat.add_assoc]

theorem isPrefix (stands : Stands settings start records tail) :
    records <+: recordsFrom settings.file start tail.content := by
  obtain ⟨-, -, taken, rfl, -, splits⟩ := stands
  rw [recordsFrom, splits.allLines_eq]
  exact recordsOf_isPrefix _ _ (List.prefix_append _ _)

/-- The source is behind the last line that it has taken. -/
theorem offset_of_getLast? (stands : Stands settings start records tail) {record : Record}
    (last : records.getLast? = some record) :
    record.offset = fileOffset tail.source.streamOffset := by
  obtain ⟨-, -, taken, rfl, position, -⟩ := stands
  rw [(offset_of_getLast?_recordsOf _ _ last).2, position]

/-- If the lines taken last are all that there are, then the records are up to date. -/
theorem records_append_eq_recordsFrom (stands : Stands settings start records tail)
    {lines : List SplitLine}
    (allLeft : lines = (allLines (tail.content.drop tail.source.streamOffset)).1) :
    records ++ recordsOf tail.source.partition tail.source.streamOffset lines =
      recordsFrom settings.file start tail.content := by
  obtain ⟨rfl, -, taken, rfl, position, splits⟩ := stands
  rw [recordsFrom, splits.allLines_eq, ← allLeft, recordsOf_append, ← position]
  rfl

end Stands

namespace Keeps

variable {settings : SourceSettings} {start : Nat} {polls : List Poll} {tail : TailedFile}

theorem stands (keeps : Keeps settings start polls tail) :
    Stands settings start (handed polls) tail :=
  ⟨keeps.sameSettings, keeps.follows, keeps.lines⟩

theorem grow (keeps : Keeps settings start polls tail) (grown : List UInt8) :
    Keeps settings start polls { tail with content := tail.content ++ grown } := by
  obtain ⟨sameSettings, follows, lines⟩ := keeps.stands.grow grown
  exact ⟨sameSettings, follows, lines, keeps.answered, keeps.complete⟩

theorem poll (keeps : Keeps settings start polls tail) {files : FileSystem}
    {reads : OpenFile → List ReadResult} {stored : Option Offset} {present : List UInt8}
    (legal : ∀ file, tail.source.file = some file →
      Reads tail.content file.position (reads file) present)
    {answer : Option (Except Error (List Record))} {source : FileSource}
    (polled : tail.source.poll files reads stored = (answer, source)) :
    Keeps settings start (polls ++ [⟨answer, present⟩]) ⟨present, source⟩ := by
  obtain ⟨file, follows⟩ := keeps.follows
  have legal := legal file follows.isOpen
  obtain ⟨more, rfl⟩ : tail.content <+: present := legal.isPrefix
  obtain ⟨lines, after, poll, handsOut⟩ :=
    FileSource.poll_of_follows files stored follows legal
  obtain ⟨rfl, rfl⟩ := Prod.mk.inj (poll.symm.trans polled)
  have before := keeps.stands.grow more
  have allHanded : handed (polls ++
      [⟨some (.ok (recordsOf tail.source.partition tail.source.streamOffset lines)),
        tail.content ++ more⟩]) =
      handed polls ++ recordsOf tail.source.partition tail.source.streamOffset lines := by
    rw [handed, List.flatMap_append, ← handed, List.flatMap_singleton]
    rfl
  obtain ⟨sameSettings, follows, allLines⟩ := before.take handsOut.toTakes
  refine ⟨sameSettings, follows, allHanded ▸ allLines, ?_, ?_⟩
  · intro poll member
    rcases List.mem_append.1 member with member | member
    · exact keeps.answered poll member
    · obtain rfl := List.mem_singleton.1 member
      refine ⟨_, rfl, ?_⟩
      rw [length_recordsOf, ← keeps.sameSettings]
      exact handsOut.atMost
  · intro earlier poll later splitting few
    -- An earlier batch with room left was up to date then, and later polls do not change that.
    rcases append_singleton_eq_append_cons_iff.1 splitting with
      ⟨rfl, rfl, rfl⟩ | ⟨later, rfl, rfl⟩
    · rw [allHanded]
      refine before.records_append_eq_recordsFrom (handsOut.complete ?_)
      rw [keeps.sameSettings]
      simpa [Poll.records] using few
    · exact keeps.complete earlier poll later rfl few

end Keeps

theorem keeps_of_runs {first last : TailedFile} {settings : SourceSettings} {start : Nat}
    {polls : List Poll} (begins : Keeps settings start [] first) (run : first.Runs polls last) :
    Keeps settings start polls last := by
  induction run with
  | begin => exact begins
  | grow run grown ih => exact ih.grow grown
  | poll run legal polled ih => exact ih.poll legal polled

/-- Following a file from some octet on, every poll succeeds with at most as many records as a batch
may have, and all records together are the first lines of the file from there, each with the position
behind its line. Whenever there was room left in a batch, they are all complete lines that the file held
at the last read. The position behind the last record is that of the source. -/
theorem runs_hand_out_lines {fresh : FileSource} {files : FileSystem} {number start : Nat}
    {polls : List Poll} {last : TailedFile} (within : start ≤ (files.octets number).length)
    (run : Runs ⟨files.octets number, fresh.openAt (.file number) start files⟩ polls last) :
    (∀ poll ∈ polls, ∃ batch, poll.answer = some (.ok batch) ∧
        batch.length ≤ fresh.settings.batchSize) ∧
      handed polls <+: recordsFrom fresh.settings.file start last.content ∧
      (∀ earlier poll later, polls = earlier ++ poll :: later →
        poll.records.length < fresh.settings.batchSize →
          handed (earlier ++ [poll]) = recordsFrom fresh.settings.file start poll.present) ∧
      ∀ record, (handed polls).getLast? = some record →
        record.offset = fileOffset last.source.streamOffset := by
  have opened := Stands.begin fresh within
  have begins : Keeps fresh.settings start []
      ⟨files.octets number, fresh.openAt (.file number) start files⟩ :=
    ⟨opened.sameSettings, opened.follows, opened.lines, by simp, by simp⟩
  have keeps := keeps_of_runs begins run
  exact ⟨keeps.answered, keeps.stands.isPrefix, keeps.complete, fun record =>
    keeps.stands.offset_of_getLast?⟩

/-- A carriage return and its line feed that are appended and read apart, and a line that comes while
the last batch is read. -/
theorem runs_hand_out_lines_of_split_terminator :
    let settings := (SourceSettings.new (.ofText "log")).withBatchSize 2
    let files : FileSystem := ⟨.empty, .ofList [(0, [120, 10, 97, 13])], 1, FileSystem.isTree_empty 1⟩
    let first : TailedFile := ⟨files.octets 0, (FileSource.new settings).openAt (.file 0) 2 files⟩
    let record (offset : Nat) (line : String) : Record :=
      ⟨filePartition settings.file, fileOffset offset, line⟩
    2 ≤ (files.octets 0).length ∧ ∃ polls last, first.Runs polls last ∧
      polls.map Poll.records = [[], [record 5 "a", record 7 "b"], [record 9 "c"]] ∧
      handed polls = recordsFrom settings.file 2 last.content := by
  intro settings files first record
  have within : 2 ≤ (files.octets 0).length := by decide +kernel
  let grown : List UInt8 := [120, 10, 97, 13] ++ [10, 98, 13, 99]
  let waiting : FileSource := ⟨settings, some ⟨.file 0, 4⟩, [97, 13], 2⟩
  let full : FileSource := ⟨settings, some ⟨.file 0, 8⟩, [99], 7⟩
  let done : FileSource := ⟨settings, some ⟨.file 0, 9⟩, [], 9⟩
  have waited : first.Runs [⟨some (.ok []), [120, 10, 97, 13]⟩] ⟨[120, 10, 97, 13], waiting⟩ := by
    have polled : first.source.poll files (fun _ => [.octets [97], .octets [13], .endOfFile]) none =
        (some (.ok []), waiting) := by decide +kernel
    refine Runs.begin.poll (fun file isOpen => ?_) polled
    obtain rfl : ⟨.file 0, 2⟩ = file := Option.some.inj isOpen
    exact ⟨.octets [97] (by decide) (by decide) (by decide +kernel)
      (.octets [13] (by decide) (by decide) (by decide +kernel) (.endOfFile (by decide))), by simp⟩
  have filled : first.Runs [⟨some (.ok []), [120, 10, 97, 13]⟩,
      ⟨some (.ok [record 5 "a", record 7 "b"]), grown⟩] ⟨grown, full⟩ := by
    have polled : waiting.poll files
        (fun _ => [.octets [10], .octets [98, 13, 99], .endOfFile]) none =
          (some (.ok [record 5 "a", record 7 "b"]), full) := by decide +kernel
    refine (waited.grow [10, 98, 13, 99]).poll (fun file isOpen => ?_) polled
    obtain rfl : ⟨.file 0, 4⟩ = file := Option.some.inj isOpen
    exact ⟨.octets [10] (by decide) (by decide) (by decide +kernel)
      (.octets [98, 13, 99] (by decide) (by decide) (by decide +kernel) (.endOfFile (by decide))),
      by simp⟩
  have ended : first.Runs [⟨some (.ok []), [120, 10, 97, 13]⟩,
      ⟨some (.ok [record 5 "a", record 7 "b"]), grown⟩, ⟨some (.ok [record 9 "c"]), grown ++ [10]⟩]
      ⟨grown ++ [10], done⟩ := by
    have polled : full.poll files (fun _ => [.octets [10], .endOfFile]) none =
        (some (.ok [record 9 "c"]), done) := by decide +kernel
    refine filled.poll (fun file isOpen => ?_) polled
    obtain rfl : ⟨.file 0, 8⟩ = file := Option.some.inj isOpen
    exact ⟨.grow [10] (.octets [10] (by decide) (by decide) (by decide +kernel)
      (.endOfFile (by decide))), by simp⟩
  obtain ⟨-, -, complete, -⟩ := runs_hand_out_lines within ended
  have upToDate := complete [_, _] ⟨some (.ok [record 9 "c"]), grown ++ [10]⟩ [] rfl (by decide)
  exact ⟨within, _, _, ended, rfl, upToDate⟩

end TailedFile

end PositionSync
