import Mathlib.Data.List.Basic
import PositionSync.Proofs.Source.Lines
import PositionSync.Source.FileSource

/-!
# Batches of a growing file

A file may grow before every read, and a read returns any part of what stands at its position, or fails.
Through all reads for a batch, the lines of the batch and the buffer of the source together are what has
been read of the file. Hence the division of the octets among the reads leaves no trace in the records.
-/

namespace PositionSync

/-- What reading a file from a position on returns up to the end of the file, or up to a read that fails,
and what the file holds at the last read. It may grow before every read. -/
inductive FaultyReads : List UInt8 → Nat → List ReadResult → List UInt8 → Prop where
  | endOfFile {content : List UInt8} {position : Nat} (atEnd : content.length ≤ position) :
      FaultyReads content position [.endOfFile] content
  | failed {content : List UInt8} {position : Nat} (message : String) :
      FaultyReads content position [.failed message] content
  | octets {content present : List UInt8} {position : Nat} {later : List ReadResult}
      (data : List UInt8) (notEmpty : data ≠ []) (fits : data.length ≤ OpenFile.chunkSize)
      (available : data <+: content.drop position)
      (rest : FaultyReads content (position + data.length) later present) :
      FaultyReads content position (.octets data :: later) present
  | grow {content present : List UInt8} {position : Nat} {results : List ReadResult}
      (grown : List UInt8) (rest : FaultyReads (content ++ grown) position results present) :
      FaultyReads content position results present

theorem FaultyReads.isPrefix {content present : List UInt8} {position : Nat}
    {results : List ReadResult} (reads : FaultyReads content position results present) :
    content <+: present := by
  induction reads with
  | endOfFile atEnd => exact List.prefix_rfl
  | failed message => exact List.prefix_rfl
  | octets data notEmpty fits available rest ih => exact ih
  | grow grown rest ih => exact (List.prefix_append _ _).trans ih

/-- What reading a file up to its end returns where no read fails. -/
structure Reads (content : List UInt8) (position : Nat) (results : List ReadResult)
    (present : List UInt8) : Prop where
  faulty : FaultyReads content position results present
  succeed : ∀ message, .failed message ∉ results

theorem Reads.isPrefix {content present : List UInt8} {position : Nat} {results : List ReadResult}
    (reads : Reads content position results present) : content <+: present :=
  reads.faulty.isPrefix

theorem reads_chunksWithin {content : List UInt8} {position fuel : Nat}
    (enough : content.length ≤ position + fuel) :
    Reads content position
      (OpenFile.chunksWithin fuel (content.drop position) ++ [.endOfFile]) content := by
  induction fuel generalizing position with
  | zero => exact ⟨.endOfFile enough, by simp [OpenFile.chunksWithin]⟩
  | succ fuel ih =>
      rw [OpenFile.chunksWithin]
      split
      · next empty => exact ⟨.endOfFile (by simpa using empty), by simp⟩
      · next notEmpty =>
        have some : position < content.length := by simpa using notEmpty
        have positive : 0 < OpenFile.chunkSize := by decide
        have length : ((content.drop position).take OpenFile.chunkSize).length =
            min OpenFile.chunkSize (content.length - position) := by simp
        have behind : (content.drop position).drop OpenFile.chunkSize = content.drop
            (position + ((content.drop position).take OpenFile.chunkSize).length) := by
          rw [List.drop_drop, length]
          by_cases full : position + OpenFile.chunkSize ≤ content.length
          · rw [Nat.min_eq_left (by omega)]
          · rw [List.drop_eq_nil_of_le (by omega), List.drop_eq_nil_of_le (by omega)]
        rw [behind]
        obtain ⟨faulty, succeed⟩ :=
          @ih (position + ((content.drop position).take OpenFile.chunkSize).length) (by omega)
        refine ⟨.octets _ (fun empty => ?_) ?_ (List.take_prefix _ _) faulty, by simpa using succeed⟩
        · rw [empty, List.length_nil] at length
          omega
        · rw [length]
          exact Nat.min_le_left _ _

/-- Reading on in pieces of the largest size is one way of reading a file. -/
theorem reads_ofFile (files : FileSystem) (number position : Nat) :
    Reads (files.octets number) position ((OpenFile.mk (.file number) position).reads files)
      (files.octets number) := by
  refine reads_chunksWithin ?_
  simp only [List.length_drop]
  omega

/-- The records of lines that follow each other from a position on. Each has the position right behind
its line. -/
def recordsOf (partition : Partition) (start : Nat) (lines : List SplitLine) : List Record :=
  lines.mapIdx fun index line =>
    ⟨partition, fileOffset (start + usedBy (lines.take (index + 1))), line.text⟩

section Records

variable (partition : Partition) (start : Nat)

@[simp]
theorem recordsOf_nil : recordsOf partition start [] = [] :=
  rfl

theorem recordsOf_cons (line : SplitLine) (lines : List SplitLine) :
    recordsOf partition start (line :: lines) =
      ⟨partition, fileOffset (start + line.used), line.text⟩ ::
        recordsOf partition (start + line.used) lines := by
  simp [recordsOf, List.mapIdx_cons, Nat.add_assoc]

@[simp]
theorem length_recordsOf (lines : List SplitLine) :
    (recordsOf partition start lines).length = lines.length := by
  simp [recordsOf]

theorem recordsOf_append (lines others : List SplitLine) :
    recordsOf partition start (lines ++ others) =
      recordsOf partition start lines ++ recordsOf partition (start + usedBy lines) others := by
  induction lines generalizing start with
  | nil => simp
  | cons line lines ih => simp [recordsOf_cons, ih, Nat.add_assoc]

theorem recordsOf_isPrefix {lines others : List SplitLine} (isPrefix : lines <+: others) :
    recordsOf partition start lines <+: recordsOf partition start others := by
  obtain ⟨rest, rfl⟩ := isPrefix
  rw [recordsOf_append]
  exact List.prefix_append _ _

theorem recordsOf_take (lines : List SplitLine) (count : Nat) :
    recordsOf partition start (lines.take count) = (recordsOf partition start lines).take count := by
  induction lines generalizing start count with
  | nil => simp
  | cons line lines ih =>
      cases count with
      | zero => rfl
      | succ count => rw [List.take_succ_cons, recordsOf_cons, recordsOf_cons, ih, List.take_succ_cons]

/-- The last record has the position behind all lines. -/
theorem offset_of_getLast?_recordsOf {lines : List SplitLine} {record : Record}
    (last : (recordsOf partition start lines).getLast? = some record) :
    record.partition = partition ∧ record.offset = fileOffset (start + usedBy lines) := by
  rcases List.eq_nil_or_concat' lines with rfl | ⟨lines, line, rfl⟩
  · simp at last
  · rw [recordsOf_append, recordsOf_cons, recordsOf_nil, List.getLast?_concat] at last
    obtain rfl := Option.some.inj last
    simp [Nat.add_assoc]

end Records

/-- The records of all complete lines of a file behind a position. -/
def recordsFrom (path : Path) (start : Nat) (content : List UInt8) : List Record :=
  recordsOf (filePartition path) start (allLines (content.drop start)).1

namespace Batch

theorem records_located (partition : Partition) (start : Nat) (lines : List SplitLine) :
    ((located start lines).map fun (line, position) => Record.mk partition (fileOffset position) line)
      = recordsOf partition start lines := by
  induction lines generalizing start with
  | nil => rfl
  | cons line lines ih => rw [located, recordsOf_cons, List.map_cons, ih]

theorem located_append (start : Nat) (lines others : List SplitLine) :
    located start (lines ++ others) =
      located start lines ++ located (start + usedBy lines) others := by
  induction lines generalizing start with
  | nil => simp [located]
  | cons line lines ih => simp [located, ih, Nat.add_assoc]

@[simp]
theorem length_located (start : Nat) (lines : List SplitLine) :
    (located start lines).length = lines.length := by
  induction lines generalizing start with
  | nil => rfl
  | cons line lines ih => simp [located, ih]

/-- What a batch has to do with the file: the lines taken since a first position stand there one after
the other, and the buffer is what has been read behind them, where reading began at `opened`. -/
structure Reflects (content : List UInt8) (opened first : Nat) (taken : List SplitLine)
    (batch : Batch) : Prop where
  listed : batch.lines = located first taken
  splits : Splits (content.drop first) taken (content.drop batch.position)
  position : batch.position = first + usedBy taken
  read : opened + batch.read = batch.position + batch.buffer.length
  within : opened + batch.read ≤ content.length
  buffered : content.drop batch.position = batch.buffer ++ content.drop (opened + batch.read)

/-- A batch after lines have been handed out of the buffer: it is not too large, and only a full batch
leaves a complete line. -/
structure IsFilled (size : Nat) (batch : Batch) : Prop where
  atMost : batch.lines.length ≤ size
  nothingLeft : batch.lines.length < size → splitLine? batch.buffer = none

namespace Reflects

variable {content : List UInt8} {opened first : Nat} {taken : List SplitLine} {batch : Batch}

theorem grow (reflects : batch.Reflects content opened first taken) (grown : List UInt8) :
    batch.Reflects (content ++ grown) opened first taken := by
  have position := reflects.position
  have read := reflects.read
  have within := reflects.within
  refine ⟨reflects.listed, ?_, position, read, ?_, ?_⟩
  · rw [List.drop_append_of_le_length (by omega), List.drop_append_of_le_length (by omega)]
    exact reflects.splits.append grown
  · rw [List.length_append]
    omega
  · rw [List.drop_append_of_le_length (by omega), List.drop_append_of_le_length within,
      reflects.buffered, List.append_assoc]

theorem append (reflects : batch.Reflects content opened first taken) {data : List UInt8}
    (available : data <+: content.drop (opened + batch.read)) :
    (batch.append data).Reflects content opened first taken := by
  obtain ⟨rest, behind⟩ := available
  have read := reflects.read
  have within := reflects.within
  have length : data.length ≤ content.length - (opened + batch.read) := by
    rw [← List.length_drop, ← behind, List.length_append]
    omega
  have dropped : content.drop (opened + (batch.read + data.length)) = rest := by
    rw [← Nat.add_assoc, ← List.drop_drop, ← behind, List.drop_left]
  refine ⟨reflects.listed, reflects.splits, reflects.position, ?_, ?_, ?_⟩
  · simp only [Batch.append, List.length_append]
    omega
  · simp only [Batch.append]
    omega
  · simp only [Batch.append, dropped, List.append_assoc]
    rw [behind]
    exact reflects.buffered

theorem fill (reflects : batch.Reflects content opened first taken) (size : Nat) :
    (batch.fill size).Reflects content opened first
      (taken ++ (splitLines (size - batch.lines.length) batch.buffer).1) := by
  have splits := splits_splitLines (size - batch.lines.length) batch.buffer
  obtain ⟨lines, rest, cut⟩ : ∃ lines rest,
      splitLines (size - batch.lines.length) batch.buffer = (lines, rest) := ⟨_, _, rfl⟩
  simp only [Batch.fill, cut] at splits ⊢
  have read := reflects.read
  have within := reflects.within
  have position := reflects.position
  obtain ⟨restEq, used⟩ := splits.rest_eq_drop
  have moved : content.drop (batch.position + usedBy lines) =
      rest ++ content.drop (opened + batch.read) := by
    rw [← List.drop_drop, reflects.buffered, List.drop_append_of_le_length used, restEq]
  -- Only lines move from the buffer into the batch: what has been read stays as it is.
  refine ⟨?_, reflects.splits.trans ?_, ?_, ?_, within, moved⟩
  · simp only [reflects.listed, located_append, position]
  · rw [reflects.buffered]
    exact moved ▸ splits.append (content.drop (opened + batch.read))
  · change batch.position + usedBy lines = _
    rw [usedBy_append]
    omega
  · change opened + batch.read = batch.position + usedBy lines + rest.length
    rw [restEq, List.length_drop]
    omega

theorem isFilled (batch : Batch) {size : Nat} (atMost : batch.lines.length ≤ size) :
    (batch.fill size).IsFilled size := by
  have few := length_splitLines_le (size - batch.lines.length) batch.buffer
  constructor
  · simp only [Batch.fill, List.length_append, length_located]
    omega
  · simp only [Batch.fill, List.length_append, length_located]
    intro notFull
    exact splitLine?_rest_of_lt (by omega)

/-- Reading for a batch ends with a full batch, at the end of the file, or with a read that fails. -/
theorem collect {results : List ReadResult} {present : List UInt8} {size position : Nat}
    (reflects : batch.Reflects content opened first taken)
    (reads : FaultyReads content position results present) (atRead : position = opened + batch.read)
    (filled : batch.IsFilled size) :
    ∃ taken after, after.Reflects present opened first taken ∧ after.IsFilled size ∧
      ((Batch.collect size results batch = (after, .ok ()) ∧
          (after.lines.length < size → present.length ≤ opened + after.read)) ∨
        ∃ message, .failed message ∈ results ∧ after.lines.length < size ∧
          Batch.collect size results batch = (after, .error (.io message))) := by
  -- The reads are gone through in order; `Reflects` is what every one of them keeps.
  induction reads generalizing taken batch with
  | endOfFile atEnd =>
      refine ⟨taken, batch, reflects, filled, .inl ⟨?_, fun _ => atRead ▸ atEnd⟩⟩
      rw [Batch.collect]
      split <;> rfl
  | failed message =>
      rw [Batch.collect]
      split
      · next full =>
        exact ⟨taken, batch, reflects, filled, .inl ⟨rfl, fun notFull => by omega⟩⟩
      · next notFull =>
        exact ⟨taken, batch, reflects, filled,
          .inr ⟨message, List.mem_singleton_self _, by omega, rfl⟩⟩
  | octets data notEmpty fits available rest ih =>
      rw [Batch.collect]
      split
      · next full =>
        obtain ⟨more, rfl⟩ := rest.isPrefix
        exact ⟨taken, batch, reflects.grow more, filled, .inl ⟨rfl, fun notFull => by omega⟩⟩
      · next notFull =>
        have appended := reflects.append (atRead ▸ available)
        obtain ⟨taken, after, reflectsAfter, filledAfter, ending⟩ := ih (appended.fill size)
          (by rw [atRead]; exact Nat.add_assoc opened batch.read data.length)
          (isFilled (batch.append data) filled.atMost)
        refine ⟨taken, after, reflectsAfter, filledAfter, ending.imp_right ?_⟩
        rintro ⟨message, member, notFull, fails⟩
        exact ⟨message, List.mem_cons_of_mem _ member, notFull, fails⟩
  | grow grown rest ih => exact ih (reflects.grow grown) atRead filled

end Reflects

end Batch

namespace FileSource

/-- A source with an open file that holds some octets: what has been read of the file and not been
handed out is in the buffer. -/
structure Follows (source : FileSource) (content : List UInt8) (file : OpenFile) : Prop where
  isOpen : source.file = some file
  read : file.position = source.streamOffset + source.buffer.length
  within : file.position ≤ content.length
  buffered : content.drop source.streamOffset = source.buffer ++ content.drop file.position

theorem Follows.grow {source : FileSource} {content : List UInt8} {file : OpenFile}
    (follows : source.Follows content file) (grown : List UInt8) :
    source.Follows (content ++ grown) file := by
  have read := follows.read
  have within := follows.within
  refine ⟨follows.isOpen, read, ?_, ?_⟩
  · rw [List.length_append]
    omega
  · rw [List.drop_append_of_le_length (by omega), List.drop_append_of_le_length within,
      follows.buffered, List.append_assoc]

/-- What taking some lines off a file does to a source that has it open: the lines are the next ones of
what the file holds by now. -/
structure Takes (source : FileSource) (present : List UInt8) (node : FileNode)
    (lines : List SplitLine) (after : FileSource) : Prop where
  settings : after.settings = source.settings
  follows : ∃ position, after.Follows present ⟨node, position⟩
  streamOffset : after.streamOffset = source.streamOffset + usedBy lines
  splits : Splits (present.drop source.streamOffset) lines (present.drop after.streamOffset)

/-- Handing out lines takes them off the file, and they are all complete ones unless the batch is full. -/
structure HandsOut (source : FileSource) (present : List UInt8) (node : FileNode)
    (lines : List SplitLine) (after : FileSource) : Prop
    extends source.Takes present node lines after where
  atMost : lines.length ≤ source.settings.batchSize
  complete : lines.length < source.settings.batchSize →
    lines = (allLines (present.drop source.streamOffset)).1

section Batches

variable {source : FileSource} {content present : List UInt8} {file : OpenFile}
  {results : List ReadResult}

/-- A batch hands out the lines that are taken for it, unless a read fails before it is full. -/
theorem readBatch_cases (follows : source.Follows content file)
    (reads : FaultyReads content file.position results present) :
    ∃ lines after,
      (source.readBatch file results =
          (.ok (recordsOf source.partition source.streamOffset lines), after) ∧
        source.HandsOut present file.node lines after) ∨
      ∃ message, .failed message ∈ results ∧ lines.length < source.settings.batchSize ∧
        source.readBatch file results = (.error (.io message), after) ∧
        source.Takes present file.node lines after := by
  have opening : (Batch.start source.buffer source.streamOffset).Reflects content file.position
      source.streamOffset [] :=
    ⟨rfl, .stop _, rfl, follows.read, follows.within, follows.buffered⟩
  obtain ⟨lines, batch, reflects, filled, ending⟩ :=
    (opening.fill source.settings.batchSize).collect reads rfl
      (Batch.Reflects.isFilled _ (Nat.zero_le _))
  have count : batch.lines.length = lines.length := by rw [reflects.listed, Batch.length_located]
  let after : FileSource := { source with
    file := some { file with position := file.position + batch.read }
    buffer := batch.buffer
    streamOffset := batch.position }
  have followsAfter : ∃ position, after.Follows present ⟨file.node, position⟩ :=
    ⟨file.position + batch.read, rfl, reflects.read, reflects.within, reflects.buffered⟩
  refine ⟨lines, after, ?_⟩
  rcases ending with ⟨collected, toTheEnd⟩ | ⟨message, member, notFull, collected⟩
  · refine .inl ⟨?_, ⟨rfl, followsAfter, reflects.position, reflects.splits⟩,
      count ▸ filled.atMost, fun notFull => ?_⟩
    · rw [readBatch, Batch.ofReads, collected]
      simp only [Except.map, Batch.records, reflects.listed, Batch.records_located]
      rfl
    · rw [← count] at notFull
      have noMore : splitLine? (present.drop batch.position) = none := by
        rw [reflects.buffered, List.drop_eq_nil_of_le (toTheEnd notFull), List.append_nil]
        exact filled.nothingLeft notFull
      exact (reflects.splits.allLines_of_none noMore).symm
  · refine .inr ⟨message, member, count ▸ notFull, ?_, rfl, followsAfter, reflects.position,
      reflects.splits⟩
    rw [readBatch, Batch.ofReads, collected]
    rfl

theorem readBatch_spec (follows : source.Follows content file)
    (reads : Reads content file.position results present) :
    ∃ lines after, source.readBatch file results =
        (.ok (recordsOf source.partition source.streamOffset lines), after) ∧
      source.HandsOut present file.node lines after := by
  obtain ⟨lines, after, succeeds | ⟨message, fails, -⟩⟩ := readBatch_cases follows reads.faulty
  · exact ⟨lines, after, succeeds⟩
  · exact absurd fails (reads.succeed message)

end Batches

end FileSource

end PositionSync
