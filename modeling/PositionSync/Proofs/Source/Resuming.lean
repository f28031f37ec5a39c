import Mathlib.Data.List.Infix
import PositionSync.Proofs.Decimal.Unsigned
import PositionSync.Proofs.Service.Restarts
import PositionSync.Proofs.Source.Polling

/-!
# Resuming a file behind the last commit

An ingestion is a source that works on one growing file, with the service that keeps its position. However
polls, commits, closing, opening and full restarts follow each other, the position that is kept is the end
of the last committed line, and a file that is opened again is read from there.
-/

namespace PositionSync

theorem storedPosition_fileOffset {position : Nat} (fits : position ≤ Decimal.largest64) :
    storedPosition (some (fileOffset position)) = .ok position := by
  have kept : (fileOffset position).attributes.get? nextPositionKey =
      some (Decimal.render position) :=
    SortedMap.get?_insert_self ..
  simp only [storedPosition, Option.bind_some, kept, Decimal.parse_render fits]

section Lines

variable {path : Path} {content : List UInt8} {count position : Nat}

theorem recordsFrom_zero (path : Path) (content : List UInt8) :
    recordsFrom path 0 content = recordsOf (filePartition path) 0 (allLines content).1 :=
  rfl

theorem recordsFrom_isPrefix_append (path : Path) (content more : List UInt8) :
    recordsFrom path 0 content <+: recordsFrom path 0 (content ++ more) :=
  recordsOf_isPrefix _ _ (allLines_fst_isPrefix_append content more)

/-- Behind the end of some lines the records go on with those of the lines there. -/
theorem EndsAt.drop_recordsFrom (ends : EndsAt content count position) (path : Path) :
    (recordsFrom path 0 content).drop count = recordsFrom path position content := by
  obtain ⟨lines, rfl, rfl, whole⟩ := ends.drop_allLines
  rw [recordsFrom_zero, whole, recordsOf_append, Nat.zero_add, ← recordsFrom,
    List.drop_left' (length_recordsOf ..)]

/-- Lines that are handed out behind the end of some lines are the next ones. -/
theorem EndsAt.handsOut {source after : FileSource} {node : FileNode} {lines : List SplitLine}
    (ends : EndsAt content count source.streamOffset)
    (handsOut : source.HandsOut content node lines after) (path : Path) :
    recordsOf (filePartition path) source.streamOffset lines <+:
        (recordsFrom path 0 content).drop count ∧
      (lines.length < source.settings.batchSize →
        recordsOf (filePartition path) source.streamOffset lines =
          (recordsFrom path 0 content).drop count) ∧
      EndsAt content (count + lines.length) after.streamOffset := by
  have splits := handsOut.splits
  rw [ends.drop_recordsFrom path, recordsFrom]
  refine ⟨?_, fun notFull => ?_, ?_⟩
  · rw [splits.allLines_eq]
    exact recordsOf_isPrefix _ _ (List.prefix_append _ _)
  · rw [← handsOut.complete notFull]
  · rw [handsOut.streamOffset] at splits ⊢
    exact ends.extend splits

/-- A part of a batch is committed with the position at which its last line ends. -/
theorem lastPosition?_take {first : Nat} {batch : List Record}
    (isBatch : batch <+: (recordsFrom path 0 content).drop first) (positive : 0 < count)
    (within : count ≤ batch.length) :
    ∃ position, Record.lastPosition? (batch.take count) =
        some (filePartition path, fileOffset position) ∧
      EndsAt content (first + count) position := by
  have few : first + count ≤ (allLines content).1.length := by
    have length := isBatch.length_le
    rw [List.length_drop, recordsFrom_zero, length_recordsOf] at length
    omega
  -- The part lies in the records of all lines, so its last record is the last one of some first lines.
  have taken : batch.take count =
      (recordsOf (filePartition path) 0 ((allLines content).1.take (first + count))).drop first := by
    rw [List.prefix_iff_eq_take.1 isBatch, List.take_take, Nat.min_eq_left within, List.take_drop,
      recordsFrom_zero, recordsOf_take]
  have notEmpty : batch.take count ≠ [] := by
    rw [← List.length_pos_iff, List.length_take_of_le within]
    exact positive
  obtain ⟨last, isLast⟩ : ∃ last, (batch.take count).getLast? = some last :=
    ⟨_, List.getLast?_eq_some_getLast notEmpty⟩
  have isLastOfAll := isLast
  rw [taken, List.getLast?_drop, if_neg (by rw [length_recordsOf, List.length_take_of_le few]; omega)]
    at isLastOfAll
  obtain ⟨samePartition, sameOffset⟩ := offset_of_getLast?_recordsOf _ _ isLastOfAll
  refine ⟨_, ?_, endsAt_take few⟩
  rw [Record.lastPosition?, isLast, Option.map_some, samePartition, sameOffset, Nat.zero_add]

end Lines

/-- A source at work, and the service that keeps its position. -/
structure Ingestion where
  host : Host
  source : FileSource

/-- What has become of the lines of a file: the number of the committed ones, while the file is open
the number of lines in front of the next one, and all batches that have been handed out, each with the
number of lines in front of it. -/
structure Ledger where
  committed : Nat
  next : Option Nat
  batches : List (Nat × List Record)

/-- The number of lines in front of the one that the next poll begins with. -/
def Ledger.resumesAt (ledger : Ledger) : Nat := ledger.next.getD ledger.committed

/-- A path leads to a file with a number throughout, and octets are only appended to it. -/
structure Grows (path : Path) (number : Nat) (files after : FileSystem) : Prop where
  isFile : after.lookup path = .ok (.file number)
  appended : files.octets number <+: after.octets number

namespace Ingestion

def stored (ingestion : Ingestion) : Option Offset :=
  ingestion.host.service.position? ingestion.source.partition

def poll (ingestion : Ingestion) (reads : OpenFile → List ReadResult) :
    Option (Except Error (List Record)) × FileSource :=
  ingestion.source.poll ingestion.host.files reads ingestion.stored

def openFile (ingestion : Ingestion) (reads : OpenFile → List ReadResult) :
    Option (Except Error (List Record)) × FileSource :=
  ingestion.source.openFile ingestion.host.files reads ingestion.stored

/-- Keep the position behind the last of some records. -/
def commit (ingestion : Ingestion) (records : List Record) : Ingestion :=
  match Record.lastPosition? records with
  | none => ingestion
  | some (partition, offset) =>
    { ingestion with host := ingestion.host.perform (.put partition offset) }

/-- However an open file is read, it is read as it grows from one state of the files to another. -/
def ReadsAll (number : Nat) (files after : FileSystem) (reads : OpenFile → List ReadResult) : Prop :=
  ∀ position ≤ (files.octets number).length,
    Reads (files.octets number) position (reads ⟨.file number, position⟩) (after.octets number)

variable (path keeper : Path) (number : Nat)

/-- Ingestion of a file at `path`, whose position is kept in a file at `keeper`. Nothing is kept at first.
The service may do whatever leaves the position of the file as it is, while octets are appended to the
file. -/
inductive Runs : Ledger → Ingestion → Prop where
  | begin {host : Host} {source : FileSource} (isFile : host.files.lookup path = .ok (.file number))
      (keeps : host.service.store.path = keeper)
      (nothingKept : host.table.get? (filePartition path) = none)
      (sameFile : source.settings.file = path) (closed : source.file = none) :
      Runs ⟨0, none, []⟩ ⟨host, source⟩
  | serve {ledger : Ledger} {ingestion : Ingestion} (run : Runs ledger ingestion) (operation : Operation)
      (sameEntry : (ingestion.host.perform operation).table.get? (filePartition path) =
        ingestion.host.table.get? (filePartition path))
      (grows : Grows path number ingestion.host.files (ingestion.host.perform operation).files) :
      Runs ledger { ingestion with host := ingestion.host.perform operation }
  | poll {ledger : Ledger} {ingestion : Ingestion} (run : Runs ledger ingestion)
      {reads : OpenFile → List ReadResult} {after : FileSystem}
      (isFile : after.lookup path = .ok (.file number))
      (readsAll : ReadsAll number ingestion.host.files after reads) {batch : List Record}
      {source : FileSource} (polled : ingestion.poll reads = (some (.ok batch), source)) :
      Runs { ledger with
          next := some (ledger.resumesAt + batch.length)
          batches := ledger.batches ++ [(ledger.resumesAt, batch)] }
        ⟨{ ingestion.host with files := after }, source⟩
  | commit {ledger : Ledger} {ingestion : Ingestion} (run : Runs ledger ingestion) {first count : Nat}
      {batch : List Record} (handedOut : (first, batch) ∈ ledger.batches)
      (within : count ≤ batch.length) :
      Runs { ledger with committed := if count = 0 then ledger.committed else first + count }
        (ingestion.commit (batch.take count))
  | close {ledger : Ledger} {ingestion : Ingestion} (run : Runs ledger ingestion) :
      Runs { ledger with next := none } { ingestion with source := ingestion.source.close }
  | openFile {ledger : Ledger} {ingestion : Ingestion} (run : Runs ledger ingestion)
      {reads : OpenFile → List ReadResult} {batch : List Record} {source : FileSource}
      (opened : ingestion.openFile reads = (some (.ok batch), source)) :
      Runs { ledger with next := some ledger.committed } { ingestion with source }
  | restart {ledger : Ledger} {ingestion : Ingestion} (run : Runs ledger ingestion) {moment : Moment}
      {stopped : Host} (stops : ingestion.host.stop moment = (.ok (), stopped)) {files : FileSystem}
      (grows : Grows path number ingestion.host.files files)
      (untouched : files.read keeper = stopped.files.read keeper) (flushing : FlushSettings)
      {settings : SourceSettings} (sameFile : settings.file = path) :
      Runs { ledger with next := none }
        ⟨(Host.new (.new keeper) flushing files).start.2, FileSource.new settings⟩

/-- A stored offset stands for the end of some first lines. Nothing is stored as long as there are no
such lines. -/
def IsKept (stored : Option Offset) (content : List UInt8) (count : Nat) : Prop :=
  stored = none ∧ count = 0 ∨
    ∃ position, stored = some (fileOffset position) ∧ EndsAt content count position

namespace IsKept

variable {stored : Option Offset} {content : List UInt8} {count : Nat}

theorem grow (isKept : IsKept stored content count) (more : List UInt8) :
    IsKept stored (content ++ more) count := by
  rcases isKept with nothing | ⟨position, kept, ends⟩
  · exact .inl nothing
  · exact .inr ⟨position, kept, ends.grow more⟩

theorem storedPosition (isKept : IsKept stored content count)
    (fits : content.length ≤ Decimal.largest64) :
    ∃ position, PositionSync.storedPosition stored = .ok position ∧
      EndsAt content count position := by
  rcases isKept with ⟨rfl, rfl⟩ | ⟨position, rfl, ends⟩
  · exact ⟨0, rfl, .zero content⟩
  · exact ⟨position, storedPosition_fileOffset (Nat.le_trans ends.position_le fits), ends⟩

end IsKept

/-- What holds throughout the ingestion of a file: the position of the last committed line is kept, an
open file is read from the end of some line on, and what has been handed out are lines of the file. -/
structure Keeps (ledger : Ledger) (ingestion : Ingestion) : Prop where
  keeper : ingestion.host.service.store.path = keeper
  isFile : ingestion.host.files.lookup path = .ok (.file number)
  sameFile : ingestion.source.settings.file = path
  committed : IsKept (ingestion.host.table.get? (filePartition path))
    (ingestion.host.files.octets number) ledger.committed
  closed : ingestion.source.file = none → ledger.next = none
  opened : ∀ file, ingestion.source.file = some file → file.node = .file number ∧
    ingestion.source.Follows (ingestion.host.files.octets number) file ∧
    ∃ count, ledger.next = some count ∧
      EndsAt (ingestion.host.files.octets number) count ingestion.source.streamOffset
  batches : ∀ first batch, (first, batch) ∈ ledger.batches →
    batch <+: (recordsFrom path 0 (ingestion.host.files.octets number)).drop first

namespace Keeps

variable {path keeper : Path} {number : Nat} {ledger : Ledger} {ingestion : Ingestion}

theorem storedPosition (keeps : Keeps path keeper number ledger ingestion)
    (fits : (ingestion.host.files.octets number).length ≤ Decimal.largest64) :
    ∃ position, PositionSync.storedPosition ingestion.stored = .ok position ∧
      EndsAt (ingestion.host.files.octets number) ledger.committed position := by
  have stored : ingestion.stored = ingestion.host.table.get? (filePartition path) := by
    rw [stored, FileSource.partition, keeps.sameFile]
    rfl
  rw [stored]
  exact keeps.committed.storedPosition fits

/-- A file is opened at the end of the last committed line. -/
theorem openFor (keeps : Keeps path keeper number ledger ingestion)
    (fits : (ingestion.host.files.octets number).length ≤ Decimal.largest64)
    (reads : OpenFile → List ReadResult) (request : FileSource.Request) :
    ∃ (opened : FileSource) (file : OpenFile),
      ingestion.source.openFor ingestion.host.files reads ingestion.stored request 0 =
        opened.proceed reads request file ∧
      opened.settings = ingestion.source.settings ∧ file.node = .file number ∧
      opened.Follows (ingestion.host.files.octets number) file ∧
      EndsAt (ingestion.host.files.octets number) ledger.committed opened.streamOffset := by
  obtain ⟨position, stored, ends⟩ := keeps.storedPosition fits
  have isFile : ingestion.host.files.lookup ingestion.source.settings.file = .ok (.file number) :=
    keeps.sameFile ▸ keeps.isFile
  obtain ⟨follows, offset⟩ := FileSource.follows_openAt ingestion.source ends.position_le
  exact ⟨_, _, FileSource.openFor_of_lookup ingestion.source isFile stored ends.position_le request 0,
    rfl, rfl, follows, offset.symm ▸ ends⟩

/-- A poll succeeds on the open file, which is opened before if it was closed. It begins with the line
that the ledger says. -/
theorem poll (keeps : Keeps path keeper number ledger ingestion)
    (fits : (ingestion.host.files.octets number).length ≤ Decimal.largest64)
    {reads : OpenFile → List ReadResult} {after : FileSystem}
    (readsAll : ReadsAll number ingestion.host.files after reads) :
    ∃ (opened : FileSource) (lines : List SplitLine) (source : FileSource), ingestion.poll reads =
        (some (.ok (recordsOf (filePartition path) opened.streamOffset lines)), source) ∧
      opened.settings = ingestion.source.settings ∧
      EndsAt (ingestion.host.files.octets number) ledger.resumesAt opened.streamOffset ∧
      opened.HandsOut (after.octets number) (.file number) lines source := by
  have samePartition : ingestion.source.partition = filePartition path :=
    congrArg filePartition keeps.sameFile
  -- A closed file is opened at the last commit, an open one is read on where the last batch ended.
  cases isOpen : ingestion.source.file with
  | none =>
      obtain ⟨opened, ⟨node, position⟩, opens, sameSettings, rfl, follows, ends⟩ :=
        keeps.openFor fits reads .poll
      have legal := readsAll position follows.within
      obtain ⟨lines, source, settled, handsOut⟩ :=
        FileSource.settle_proceed ingestion.host.files ingestion.stored follows legal
      have begins : ingestion.source.begin ingestion.host.files reads ingestion.stored .poll =
          opened.proceed reads .poll ⟨.file number, position⟩ := by
        simp only [FileSource.begin, isOpen, opens]
      refine ⟨opened, lines, source, ?_, sameSettings, ?_, handsOut⟩
      · rw [Ingestion.poll, FileSource.poll, begins, settled, ← samePartition, FileSource.partition,
          FileSource.partition, sameSettings]
      · rw [Ledger.resumesAt, keeps.closed isOpen]
        exact ends
  | some file =>
      obtain ⟨node, follows, count, isNext, ends⟩ := keeps.opened file isOpen
      obtain ⟨node', position⟩ := file
      obtain rfl : node' = .file number := node
      have legal := readsAll position follows.within
      obtain ⟨lines, source, polled, handsOut⟩ :=
        FileSource.poll_of_follows ingestion.host.files ingestion.stored follows legal
      refine ⟨ingestion.source, lines, source, ?_, rfl, ?_, handsOut⟩
      · rw [Ingestion.poll, polled, samePartition]
      · rw [Ledger.resumesAt, isNext]
        exact ends

/-- The batch of a poll consists of the next lines, and the source is behind them. -/
theorem poll_isNext (keeps : Keeps path keeper number ledger ingestion)
    (fits : (ingestion.host.files.octets number).length ≤ Decimal.largest64)
    {reads : OpenFile → List ReadResult} {after : FileSystem}
    (readsAll : ReadsAll number ingestion.host.files after reads) :
    ∃ (batch : List Record) (source : FileSource), ingestion.poll reads = (some (.ok batch), source) ∧
      batch <+: (recordsFrom path 0 (after.octets number)).drop ledger.resumesAt ∧
      (batch.length < ingestion.source.settings.batchSize →
        batch = (recordsFrom path 0 (after.octets number)).drop ledger.resumesAt) ∧
      source.settings = ingestion.source.settings ∧
      (∃ position, source.Follows (after.octets number) ⟨.file number, position⟩) ∧
      EndsAt (after.octets number) (ledger.resumesAt + batch.length) source.streamOffset := by
  obtain ⟨opened, lines, source, polled, sameSettings, ends, handsOut⟩ := keeps.poll fits readsAll
  obtain ⟨more, appended⟩ := (readsAll 0 (Nat.zero_le _)).isPrefix
  have endsAfter : EndsAt (after.octets number) ledger.resumesAt opened.streamOffset :=
    appended ▸ ends.grow more
  obtain ⟨isNext, complete, endsNow⟩ := endsAfter.handsOut handsOut path
  refine ⟨_, source, polled, isNext, ?_, handsOut.settings.trans sameSettings, handsOut.follows, ?_⟩
  · rw [length_recordsOf, ← sameSettings]
    exact complete
  · rw [length_recordsOf]
    exact endsNow

theorem grow (keeps : Keeps path keeper number ledger ingestion) {host : Host}
    (samePath : host.service.store.path = keeper)
    (sameEntry : host.table.get? (filePartition path) =
      ingestion.host.table.get? (filePartition path))
    (grows : Grows path number ingestion.host.files host.files) :
    Keeps path keeper number ledger { ingestion with host } := by
  obtain ⟨more, grown⟩ := grows.appended
  refine ⟨samePath, grows.isFile, keeps.sameFile, ?_, keeps.closed, ?_, ?_⟩
  · rw [sameEntry, ← grown]
    exact keeps.committed.grow more
  · intro file isOpen
    obtain ⟨node, follows, count, isNext, ends⟩ := keeps.opened file isOpen
    rw [← grown]
    exact ⟨node, follows.grow more, count, isNext, ends.grow more⟩
  · intro first batch handedOut
    rw [← grown]
    exact (keeps.batches first batch handedOut).trans
      (List.IsPrefix.drop (recordsFrom_isPrefix_append path _ more) first)

theorem afterPoll (keeps : Keeps path keeper number ledger ingestion)
    (fits : (ingestion.host.files.octets number).length ≤ Decimal.largest64)
    {reads : OpenFile → List ReadResult} {after : FileSystem}
    (isFile : after.lookup path = .ok (.file number))
    (readsAll : ReadsAll number ingestion.host.files after reads) {batch : List Record}
    {source : FileSource} (polled : ingestion.poll reads = (some (.ok batch), source)) :
    Keeps path keeper number { ledger with
        next := some (ledger.resumesAt + batch.length)
        batches := ledger.batches ++ [(ledger.resumesAt, batch)] }
      ⟨{ ingestion.host with files := after }, source⟩ := by
  obtain ⟨batch', source', polls, isNext, -, sameSettings, ⟨position, follows⟩, ends⟩ :=
    keeps.poll_isNext fits readsAll
  obtain ⟨sameAnswer, rfl⟩ := Prod.mk.inj (polls.symm.trans polled)
  obtain rfl : batch' = batch := by simpa using sameAnswer
  have grown : Keeps path keeper number ledger
      { ingestion with host := { ingestion.host with files := after } } :=
    keeps.grow keeps.keeper rfl ⟨isFile, (readsAll 0 (Nat.zero_le _)).isPrefix⟩
  refine ⟨grown.keeper, grown.isFile, ?_, grown.committed, ?_, ?_, ?_⟩
  · exact (congrArg SourceSettings.file sameSettings).trans keeps.sameFile
  · intro closed
    nomatch closed.symm.trans follows.isOpen
  · intro file isOpen
    obtain rfl := Option.some.inj (follows.isOpen.symm.trans isOpen)
    exact ⟨rfl, follows, _, rfl, ends⟩
  · intro first batch handedOut
    rcases List.mem_append.1 handedOut with before | now
    · exact grown.batches first batch before
    · obtain ⟨rfl, rfl⟩ := Prod.mk.inj (List.mem_singleton.1 now)
      exact isNext

theorem afterCommit (keeps : Keeps path keeper number ledger ingestion) {first count : Nat}
    {batch : List Record} (handedOut : (first, batch) ∈ ledger.batches)
    (within : count ≤ batch.length) :
    Keeps path keeper number
      { ledger with committed := if count = 0 then ledger.committed else first + count }
      (ingestion.commit (batch.take count)) := by
  by_cases nothing : count = 0
  · rw [if_pos nothing, nothing, List.take_zero]
    exact keeps
  rw [if_neg nothing]
  obtain ⟨position, last, ends⟩ :=
    lastPosition?_take (keeps.batches first batch handedOut) (Nat.pos_of_ne_zero nothing) within
  simp only [commit, last]
  refine ⟨keeps.keeper, keeps.isFile, keeps.sameFile, .inr ⟨position, ?_, ends⟩, keeps.closed,
    keeps.opened, keeps.batches⟩
  exact SortedMap.get?_insert_self ..

theorem afterClose (keeps : Keeps path keeper number ledger ingestion) :
    Keeps path keeper number { ledger with next := none }
      { ingestion with source := ingestion.source.close } :=
  ⟨keeps.keeper, keeps.isFile, keeps.sameFile, keeps.committed, fun _ => rfl,
    (fun _ isOpen => nomatch isOpen), keeps.batches⟩

/-- Opening succeeds, and brings the source behind the last committed line. -/
theorem openFile (keeps : Keeps path keeper number ledger ingestion)
    (fits : (ingestion.host.files.octets number).length ≤ Decimal.largest64)
    (reads : OpenFile → List ReadResult) :
    ∃ source, ingestion.openFile reads = (some (.ok []), source) ∧
      Keeps path keeper number { ledger with next := some ledger.committed }
        { ingestion with source } := by
  obtain ⟨opened, ⟨node, position⟩, opens, sameSettings, rfl, follows, ends⟩ :=
    keeps.openFor fits reads .openFile
  refine ⟨opened, ?_, keeps.keeper, keeps.isFile, ?_, keeps.committed, ?_, ?_, keeps.batches⟩
  · have begins : ingestion.source.begin ingestion.host.files reads ingestion.stored .openFile =
        (.done (.ok []), opened) := by
      simp only [FileSource.begin, opens, FileSource.proceed]
    rw [Ingestion.openFile, FileSource.openFile, begins]
    rfl
  · exact (congrArg SourceSettings.file sameSettings).trans keeps.sameFile
  · intro closed
    cases closed.symm.trans follows.isOpen
  · intro file isOpen
    obtain rfl := Option.some.inj (follows.isOpen.symm.trans isOpen)
    exact ⟨rfl, follows, _, rfl, ends⟩

/-- After a stop that succeeded, a new service starts with the same table. -/
theorem start_of_stop (keeps : Keeps path keeper number ledger ingestion)
    (hasPath : keeper.isEmpty = false) {moment : Moment} {stopped : Host}
    (stops : ingestion.host.stop moment = (.ok (), stopped)) {files : FileSystem}
    (untouched : files.read keeper = stopped.files.read keeper) (flushing : FlushSettings) :
    let started := (Host.new (.new keeper) flushing files).start
    started.1 = .ok () ∧ started.2.service.store = ingestion.host.service.store ∧
      started.2.files = files := by
  have samePath := keeps.keeper
  have inFile : ingestion.host.service.store.isInMemory = false := by
    rw [Store.isInMemory, samePath, hasPath]
  have started := Host.start_after_stop inFile stops (samePath.symm ▸ untouched) flushing
  rwa [samePath] at started

theorem afterRestart (keeps : Keeps path keeper number ledger ingestion)
    (hasPath : keeper.isEmpty = false) {moment : Moment} {stopped : Host}
    (stops : ingestion.host.stop moment = (.ok (), stopped)) {files : FileSystem}
    (grows : Grows path number ingestion.host.files files)
    (untouched : files.read keeper = stopped.files.read keeper) (flushing : FlushSettings)
    {settings : SourceSettings} (sameFile : settings.file = path) :
    Keeps path keeper number { ledger with next := none }
      ⟨(Host.new (.new keeper) flushing files).start.2, FileSource.new settings⟩ := by
  obtain ⟨-, sameStore, sameFiles⟩ := keeps.start_of_stop hasPath stops untouched flushing
  have sameTable : (Host.new (.new keeper) flushing files).start.2.table = ingestion.host.table :=
    congrArg Store.table sameStore
  have grown : Keeps path keeper number ledger
      { ingestion with host := (Host.new (.new keeper) flushing files).start.2 } :=
    keeps.grow (sameStore ▸ keeps.keeper) (by rw [sameTable]) (sameFiles.symm ▸ grows)
  exact ⟨grown.keeper, grown.isFile, sameFile, grown.committed, fun _ => rfl,
    (fun _ isOpen => nomatch isOpen), grown.batches⟩

end Keeps

theorem files_commit (ingestion : Ingestion) (records : List Record) :
    (ingestion.commit records).host.files = ingestion.host.files := by
  rw [commit]
  split <;> rfl

variable {path keeper : Path} {number : Nat} {ledger : Ledger} {ingestion : Ingestion}

theorem keeps_of_runs (hasPath : keeper.isEmpty = false)
    (run : Runs path keeper number ledger ingestion)
    (fits : (ingestion.host.files.octets number).length ≤ Decimal.largest64) :
    Keeps path keeper number ledger ingestion := by
  -- The bound on the length holds at every earlier moment, since the file has only grown.
  induction run with
  | begin isFile keeps nothingKept sameFile closed =>
      refine ⟨keeps, isFile, sameFile, .inl ⟨nothingKept, rfl⟩, fun _ => rfl, ?_, by simp⟩
      intro file isOpen
      nomatch closed.symm.trans isOpen
  | serve run operation sameEntry grows ih =>
      have keeps := ih (Nat.le_trans grows.appended.length_le fits)
      exact keeps.grow ((Host.path_perform _ operation).trans keeps.keeper) sameEntry grows
  | poll run isFile readsAll polled ih =>
      have shorter := Nat.le_trans (readsAll 0 (Nat.zero_le _)).isPrefix.length_le fits
      exact (ih shorter).afterPoll shorter isFile readsAll polled
  | commit run handedOut within ih =>
      rw [files_commit] at fits
      exact (ih fits).afterCommit handedOut within
  | close run ih => exact (ih fits).afterClose
  | @openFile ledger ingestion run reads batch source opened ih =>
      obtain ⟨source', opens, keeps⟩ := (ih fits).openFile fits reads
      obtain ⟨-, rfl⟩ := Prod.mk.inj (opens.symm.trans opened)
      exact keeps
  | restart run stops grows untouched flushing sameFile ih =>
      have shorter := Nat.le_trans grows.appended.length_le fits
      exact (ih shorter).afterRestart hasPath stops grows untouched flushing sameFile

end Ingestion

end PositionSync
