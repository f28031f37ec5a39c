import PositionSync.Proofs.Source.Polling
import PositionSync.Proofs.Text.Utf8

/-!
# Lines of well-formed texts

The octets of a terminator stand for nothing else in UTF-8, so cutting at terminators never cuts a
character apart. Hence the records of a well-formed file say what stands in it: their lines, each with the
terminator behind it, are the characters of the file, however its octets were read.
-/

namespace PositionSync

/-- What ends a line. -/
inductive Terminator where
  | lineFeed
  | carriageReturn
  | both
deriving DecidableEq

def Terminator.chars : Terminator → List Char
  | lineFeed => ['\n']
  | carriageReturn => ['\r']
  | both => ['\r', '\n']

def Terminator.octets : Terminator → List UInt8
  | lineFeed => [PositionSync.lineFeed]
  | carriageReturn => [PositionSync.carriageReturn]
  | both => [PositionSync.carriageReturn, PositionSync.lineFeed]

theorem Terminator.encodeChars_chars (terminator : Terminator) :
    Utf8.encodeChars terminator.chars = terminator.octets := by
  cases terminator <;> decide

/-- Whether a terminator is recognised in front of some characters: a carriage return stands alone only
if it is known that no line feed follows it. -/
def Terminator.Fits : Terminator → List Char → Prop
  | carriageReturn, behind => ∃ next later, behind = next :: later ∧ next ≠ '\n'
  | lineFeed, _ | both, _ => True

def HasNoTerminator (line : List Char) : Prop := ∀ char ∈ line, char ≠ '\n' ∧ char ≠ '\r'

namespace Utf8

theorem encodeChars_append (first second : List Char) :
    encodeChars (first ++ second) = encodeChars first ++ encodeChars second :=
  List.flatMap_append

theorem decodeLossy_encodeChars (chars : List Char) :
    decodeLossy (encodeChars chars) = String.ofList chars := by
  have pieces := piecesFrom_flatMap_encodeChar chars []
  rw [List.append_nil] at pieces
  rw [decodeLossy, encodeChars, pieces]
  simp [piecesFrom, Function.comp_def]

/-- What stands behind the characters at the front of a text are characters, too. -/
theorem exists_encodeChars_of_append {front text : List Char} {octets : List UInt8}
    (whole : encodeChars front ++ octets = encodeChars text) :
    ∃ rest, text = front ++ rest ∧ octets = encodeChars rest := by
  induction front generalizing text with
  | nil => exact ⟨text, rfl, whole⟩
  | cons char front ih =>
      have read : chars? (encodeChar char ++ (encodeChars front ++ octets)) = some text := by
        rw [← List.append_assoc]
        exact chars?_eq_some_iff_encodeChars.2 whole
      obtain ⟨later, rfl, readLater⟩ := chars?_encodeChar_append.1 read
      obtain ⟨rest, rfl, same⟩ := ih (chars?_eq_some_iff_encodeChars.1 readLater)
      exact ⟨rest, rfl, same⟩

theorem decode?_eq_some_iff {octets : List UInt8} {text : String} :
    decode? octets = some text ↔ octets = encode text := by
  constructor
  · intro read
    obtain ⟨chars, areChars, rfl⟩ := Option.map_eq_some_iff.1 read
    rw [chars?_eq_some_iff_encodeChars.1 areChars, encode, String.toList_ofList]
  · rintro rfl
    exact decode?_encode text

end Utf8

open Utf8

theorem terminator_notMem_encodeChar {char : Char} (noFeed : char ≠ '\n') (noReturn : char ≠ '\r') :
    lineFeed ∉ encodeChar char ∧ carriageReturn ∉ encodeChar char := by
  constructor
  · intro member
    exact noFeed (Char.toNat_inj.1 (toNat_eq_of_mem_encodeChar member (by decide)))
  · intro member
    exact noReturn (Char.toNat_inj.1 (toNat_eq_of_mem_encodeChar member (by decide)))

section Splitting

variable (rest : List UInt8)

theorem splitOctets?_lineFeed : splitOctets? (lineFeed :: rest) = some ([], 1) := by
  rw [splitOctets?.eq_def]
  rfl

theorem splitOctets?_carriageReturn (next : UInt8) :
    splitOctets? (carriageReturn :: next :: rest) =
      some ([], if next = lineFeed then 2 else 1) := by
  rw [splitOctets?.eq_def]
  rfl

theorem splitOctets?_of_ne {octet : UInt8} (noFeed : octet ≠ lineFeed)
    (noReturn : octet ≠ carriageReturn) :
    splitOctets? (octet :: rest) =
      (splitOctets? rest).map fun (line, used) => (octet :: line, used + 1) := by
  rw [splitOctets?.eq_def]
  exact (if_neg noFeed).trans (if_neg noReturn)

theorem splitOctets?_append_of_notMem {front : List UInt8} (noFeed : lineFeed ∉ front)
    (noReturn : carriageReturn ∉ front) :
    splitOctets? (front ++ rest) =
      (splitOctets? rest).map fun (line, used) => (front ++ line, front.length + used) := by
  induction front with
  | nil => simp
  | cons octet front ih =>
      simp only [List.mem_cons, not_or] at noFeed noReturn
      rw [List.cons_append, splitOctets?_of_ne _ (Ne.symm noFeed.1) (Ne.symm noReturn.1),
        ih noFeed.2 noReturn.2, Option.map_map]
      congr 1
      funext ⟨line, used⟩
      simp [Nat.add_right_comm]

end Splitting

/-- The octets of a text begin with a line feed only if the text does. -/
theorem exists_encodeChars_cons (char : Char) (text : List Char) :
    ∃ octet rest, encodeChars (char :: text) = octet :: rest ∧
      (octet = lineFeed ↔ char = '\n') := by
  obtain ⟨lead, tail, encoded, -⟩ := exists_lead_of_encodeChar char
  refine ⟨lead, tail ++ encodeChars text, by simp [encodeChars, encoded], fun isFeed => ?_, ?_⟩
  · by_contra noFeed
    subst isFeed
    have member : lineFeed ∈ encodeChar char := encoded ▸ List.mem_cons_self
    exact noFeed (Char.toNat_inj.1 (toNat_eq_of_mem_encodeChar member (by decide)))
  · rintro rfl
    exact (List.cons.inj encoded).1.symm

/-- The first line of a text ends at its first terminator. -/
theorem splitOctets?_encodeChars {text : List Char} {octets : List UInt8} {used : Nat}
    (split : splitOctets? (encodeChars text) = some (octets, used)) :
    ∃ line terminator behind, text = line ++ Terminator.chars terminator ++ behind ∧
      HasNoTerminator line ∧ terminator.Fits behind ∧ octets = encodeChars line ∧
      used = (encodeChars (line ++ terminator.chars)).length := by
  have nothing : HasNoTerminator [] := by simp [HasNoTerminator]
  induction text generalizing octets used with
  | nil => cases split
  | cons char text ih =>
      have encoded : encodeChars (char :: text) = encodeChar char ++ encodeChars text := rfl
      by_cases isFeed : char = '\n'
      · subst isFeed
        have feed : encodeChar '\n' = [lineFeed] := by decide
        rw [encoded, feed, List.singleton_append, splitOctets?_lineFeed] at split
        obtain ⟨rfl, rfl⟩ := Prod.mk.inj (Option.some.inj split)
        exact ⟨[], .lineFeed, text, rfl, nothing, trivial, rfl, rfl⟩
      by_cases isReturn : char = '\r'
      · subst isReturn
        have return_ : encodeChar '\r' = [carriageReturn] := by decide
        rw [encoded, return_, List.singleton_append] at split
        cases text with
        | nil => cases split
        | cons next text =>
            obtain ⟨octet, rest, begins, isFeed_iff⟩ := exists_encodeChars_cons next text
            rw [begins, splitOctets?_carriageReturn] at split
            obtain ⟨rfl, rfl⟩ := Prod.mk.inj (Option.some.inj split)
            by_cases feedNext : next = '\n'
            · subst feedNext
              refine ⟨[], .both, text, rfl, nothing, trivial, rfl, ?_⟩
              rw [if_pos (isFeed_iff.2 rfl)]
              rfl
            · refine ⟨[], .carriageReturn, next :: text, rfl, nothing, ⟨next, text, rfl, feedNext⟩,
                rfl, ?_⟩
              rw [if_neg (mt isFeed_iff.1 feedNext)]
              rfl
      · have apart := terminator_notMem_encodeChar isFeed isReturn
        rw [encoded, splitOctets?_append_of_notMem _ apart.1 apart.2] at split
        obtain ⟨⟨octets, used⟩, later, same⟩ := Option.map_eq_some_iff.1 split
        obtain ⟨rfl, rfl⟩ := Prod.mk.inj same
        obtain ⟨line, terminator, behind, rfl, plain, fits, rfl, rfl⟩ := ih later
        refine ⟨char :: line, terminator, behind, rfl, ?_, fits, rfl, ?_⟩
        · exact List.forall_mem_cons.2 ⟨⟨isFeed, isReturn⟩, plain⟩
        · simp [encodeChars]

/-- A record with the terminator behind its line. -/
abbrev WrittenRecord : Type := Record × Terminator

theorem splitLine?_encodeChars {text : List Char} {line : SplitLine}
    (split : splitLine? (encodeChars text) = some line) :
    ∃ chars terminator behind, text = chars ++ Terminator.chars terminator ++ behind ∧
      HasNoTerminator chars ∧ terminator.Fits behind ∧
      line = ⟨String.ofList chars, (encodeChars (chars ++ terminator.chars)).length⟩ := by
  obtain ⟨⟨octets, used⟩, octetsSplit, rfl⟩ := Option.map_eq_some_iff.1 split
  obtain ⟨chars, terminator, behind, rfl, plain, fits, rfl, rfl⟩ :=
    splitOctets?_encodeChars octetsSplit
  exact ⟨chars, terminator, behind, rfl, plain, fits, by simp only [decodeLossy_encodeChars]⟩

/-- The characters for which a record stands. -/
def charsOf (written : WrittenRecord) : List Char := written.1.line.toList ++ written.2.chars

theorem encodeChars_charsOf (written : WrittenRecord) :
    encodeChars (charsOf written) = encode written.1.line ++ written.2.octets := by
  rw [charsOf, encodeChars_append, Terminator.encodeChars_chars, encode]

/-- Records tell what stands in some content from one position to another: each of them has a range of
octets, which begins where that of the record before it ends and holds the octets of its line and of the
terminator behind it, and no terminator stands inside the line. -/
inductive Tells (content : List UInt8) : Nat → List WrittenRecord → Nat → Prop where
  | nothing (position : Nat) : Tells content position [] position
  | record {start stop last : Nat} {record : Record} {terminator : Terminator}
      {later : List WrittenRecord} (within : start ≤ stop ∧ stop ≤ content.length)
      (range : content.extract start stop = encode record.line ++ terminator.octets)
      (plain : HasNoTerminator record.line.toList)
      (alone : terminator = .carriageReturn → content[stop]? ≠ some lineFeed)
      (offset : record.offset = fileOffset stop) (rest : Tells content stop later last) :
      Tells content start ((record, terminator) :: later) last

theorem extract_append_extract {α : Type} (list : List α) {first second third : Nat}
    (ordered : first ≤ second) (later : second ≤ third) :
    list.extract first second ++ list.extract second third = list.extract first third := by
  have parts : third - first = (second - first) + (third - second) := by omega
  have behind : (list.drop first).drop (second - first) = list.drop second := by
    rw [List.drop_drop, Nat.add_sub_cancel' ordered]
  rw [List.extract_eq_take_drop, List.extract_eq_take_drop, List.extract_eq_take_drop, parts,
    List.take_add, behind]

/-- All ranges together hold the octets of all lines with their terminators. -/
theorem Tells.extract_eq {content : List UInt8} {start stop : Nat} {written : List WrittenRecord}
    (tells : Tells content start written stop) :
    start ≤ stop ∧ content.extract start stop = encodeChars (written.flatMap charsOf) := by
  induction tells with
  | nothing position => simp [encodeChars]
  | record within range plain alone offset rest ih =>
      refine ⟨Nat.le_trans within.1 ih.1, ?_⟩
      rw [List.flatMap_cons, encodeChars_append, encodeChars_charsOf, ← range, ← ih.2,
        extract_append_extract content within.1 ih.1]

/-- Lines that stand at the front of a text become records that tell it. -/
theorem Splits.tells {content data rest : List UInt8} {lines : List SplitLine}
    (splits : Splits data lines rest) (partition : Partition) {start : Nat} {text : List Char}
    (encoded : data = encodeChars text) (standsAt : content.drop start = data)
    (within : start ≤ content.length) :
    ∃ written behind, written.map Prod.fst = recordsOf partition start lines ∧
      Tells content start written (start + usedBy lines) ∧
      text = written.flatMap charsOf ++ behind ∧ rest = encodeChars behind := by
  induction splits generalizing start text with
  | stop data => exact ⟨[], text, rfl, .nothing start, rfl, encoded⟩
  | @line data rest line lines split later ih =>
      subst encoded
      obtain ⟨chars, terminator, behind, rfl, plain, fits, rfl⟩ := splitLine?_encodeChars split
      let size := (encodeChars (chars ++ terminator.chars)).length
      let record : Record := ⟨partition, fileOffset (start + size), String.ofList chars⟩
      have front : encodeChars (chars ++ terminator.chars ++ behind) =
          encodeChars (chars ++ terminator.chars) ++ encodeChars behind := encodeChars_append _ _
      have standsBehind : content.drop (start + size) = encodeChars behind := by
        rw [← List.drop_drop, standsAt, front, List.drop_left]
      have inside : start + size ≤ content.length := by
        have length := congrArg List.length standsAt
        rw [front, List.length_append, List.length_drop] at length
        omega
      have dropped : (encodeChars (chars ++ terminator.chars ++ behind)).drop size =
          encodeChars behind := by rw [front, List.drop_left]
      obtain ⟨written, last, records, tells, divided, atEnd⟩ :=
        ih dropped (standsBehind.trans dropped.symm) inside
      refine ⟨(record, terminator) :: written, last, ?_, ?_, ?_, atEnd⟩
      · rw [List.map_cons, records, recordsOf_cons]
      · rw [usedBy_cons, ← Nat.add_assoc]
        refine .record ⟨Nat.le_add_right _ _, inside⟩ ?_ ?_ ?_ rfl tells
        · rw [List.extract_eq_take_drop, Nat.add_sub_cancel_left, standsAt, front, List.take_left,
            encodeChars_append, Terminator.encodeChars_chars, encode, String.toList_ofList]
        · rwa [String.toList_ofList]
        · rintro rfl
          obtain ⟨next, behind, rfl, noFeed⟩ := fits
          obtain ⟨octet, octets, begins, isFeed_iff⟩ := exists_encodeChars_cons next behind
          have next : content[start + size]? = some octet := by
            rw [← Nat.add_zero (start + size), ← List.getElem?_drop, standsBehind, begins]
            rfl
          rw [next]
          exact fun isFeed => noFeed (isFeed_iff.1 (Option.some.inj isFeed))
      · rw [List.flatMap_cons, charsOf, String.toList_ofList, List.append_assoc (chars ++ _),
          ← divided]

/-- The end of some lines of a text cuts no character apart. -/
theorem EndsAt.decode?_take {content : List UInt8} {count position : Nat} {text : String}
    (ends : EndsAt content count position) (wellFormed : decode? content = some text) :
    ∃ before, decode? (content.take position) = some before := by
  obtain ⟨lines, -, used, splits⟩ := ends
  obtain ⟨written, -, -, tells, -, -⟩ :=
    splits.tells ⟨.empty⟩ (decode?_eq_some_iff.1 wellFormed) List.drop_zero (Nat.zero_le _)
  obtain ⟨-, range⟩ := tells.extract_eq
  rw [Nat.zero_add, used, List.extract_eq_take_drop, Nat.sub_zero, List.drop_zero] at range
  exact ⟨String.ofList (written.flatMap charsOf), by rw [range, decode?_eq_some_iff, encode,
    String.toList_ofList]⟩

namespace TailedFile

theorem isPrefix_of_runs {first last : TailedFile} {settings : SourceSettings} {start : Nat}
    {polls : List Poll} (begins : Keeps settings start [] first) (run : first.Runs polls last) :
    first.content <+: last.content := by
  induction run with
  | begin => exact List.prefix_rfl
  | grow run grown ih => exact ih.trans (List.prefix_append _ _)
  | poll run legal polled ih =>
      obtain ⟨file, follows⟩ := (keeps_of_runs begins run).follows
      exact ih.trans (legal file follows.isOpen).isPrefix

/-- Following a well-formed file from a position on that cuts no character apart, the records handed out
tell what stands in it from there up to the position of the source, one line after the other. Put
together with their terminators, the lines are the characters there: no character is lost, added or
replaced. -/
theorem runs_hand_out_text {fresh : FileSource} {files : FileSystem} {number start : Nat}
    {polls : List Poll} {last : TailedFile} {before text : String}
    (within : start ≤ (files.octets number).length)
    (apart : decode? ((files.octets number).take start) = some before)
    (run : Runs ⟨files.octets number, fresh.openAt (.file number) start files⟩ polls last)
    (wellFormed : decode? last.content = some text) :
    ∃ written, written.map Prod.fst = handed polls ∧
      Tells last.content start written last.source.streamOffset ∧
      last.content.extract start last.source.streamOffset =
        encodeChars (written.flatMap charsOf) ∧
      ∃ behind, text.toList = before.toList ++ written.flatMap charsOf ++ behind ∧
        last.content.drop last.source.streamOffset = encodeChars behind := by
  have opened := Stands.begin fresh within
  have begins : Keeps fresh.settings start []
      ⟨files.octets number, fresh.openAt (.file number) start files⟩ :=
    ⟨opened.sameSettings, opened.follows, opened.lines, by simp, by simp⟩
  obtain ⟨taken, records, position, splits⟩ := (keeps_of_runs begins run).lines
  obtain ⟨more, content⟩ : files.octets number <+: last.content := isPrefix_of_runs begins run
  have inside : start ≤ last.content.length := by
    rw [← content, List.length_append]
    exact Nat.le_add_right_of_le within
  have front : last.content.take start = encode before := by
    rw [← content, List.take_append_of_le_length within]
    exact decode?_eq_some_iff.1 apart
  have whole : encode before ++ last.content.drop start = encode text := by
    rw [← front, List.take_append_drop]
    exact decode?_eq_some_iff.1 wellFormed
  -- What stands in front of the first record ends with a character, so the rest is again a text.
  obtain ⟨rest, divided, standsAt⟩ := exists_encodeChars_of_append whole
  obtain ⟨written, behind, same, tells, divides, atEnd⟩ :=
    splits.tells (filePartition fresh.settings.file) standsAt rfl inside
  rw [← position] at tells
  refine ⟨written, same.trans records.symm, tells, tells.extract_eq.2, behind, ?_, atEnd⟩
  rw [divided, divides, List.append_assoc]

/-- Every character of two octets or more and a pair of terminators are cut apart by the reads. -/
theorem runs_hand_out_text_cut_apart :
    let settings := SourceSettings.new (.ofText "log")
    let content := encode "\né\r\n😀\rx\n"
    let files : FileSystem := ⟨.empty, .ofList [(0, content)], 1, FileSystem.isTree_empty 1⟩
    let first : TailedFile := ⟨files.octets 0, (FileSource.new settings).openAt (.file 0) 1 files⟩
    ∃ polls last, first.Runs polls last ∧
      (handed polls).map (fun record => (record.offset, record.line)) =
        [(fileOffset 5, "é"), (fileOffset 10, "😀"), (fileOffset 12, "x")] ∧
      ∃ written, written.map Prod.fst = handed polls ∧ Tells content 1 written 12 ∧
        written.flatMap charsOf = "é\r\n😀\rx\n".toList := by
  intro settings content files first
  let reads : List ReadResult :=
    [.octets [0xC3], .octets [0xA9, 0x0D], .octets [0x0A, 0xF0, 0x9F], .octets [0x98, 0x80, 0x0D],
      .octets [0x78, 0x0A], .endOfFile]
  let record (offset : Nat) (line : String) : Record :=
    ⟨filePartition settings.file, fileOffset offset, line⟩
  let done : FileSource := ⟨settings, some ⟨.file 0, 12⟩, [], 12⟩
  have run : first.Runs [⟨some (.ok [record 5 "é", record 10 "😀", record 12 "x"]), content⟩]
      ⟨content, done⟩ := by
    have polled : first.source.poll files (fun _ => reads) none =
        (some (.ok [record 5 "é", record 10 "😀", record 12 "x"]), done) := by decide +kernel
    refine Runs.begin.poll (fun file isOpen => ?_) polled
    obtain rfl : ⟨.file 0, 1⟩ = file := Option.some.inj isOpen
    exact ⟨.octets [0xC3] (by decide) (by decide) (by decide +kernel)
      (.octets [0xA9, 0x0D] (by decide) (by decide) (by decide +kernel)
      (.octets [0x0A, 0xF0, 0x9F] (by decide) (by decide) (by decide +kernel)
      (.octets [0x98, 0x80, 0x0D] (by decide) (by decide) (by decide +kernel)
      (.octets [0x78, 0x0A] (by decide) (by decide) (by decide +kernel)
      (.endOfFile (by decide)))))), by simp [reads]⟩
  have within : 1 ≤ (files.octets 0).length := by decide +kernel
  have apart : decode? ((files.octets 0).take 1) = some "\n" := by decide +kernel
  have wellFormed : decode? content = some "\né\r\n😀\rx\n" := decode?_encode _
  obtain ⟨written, same, tells, -, behind, divided, atEnd⟩ :=
    runs_hand_out_text within apart run wellFormed
  obtain rfl : behind = [] := by
    have nothing : content.drop 12 = [] := by decide +kernel
    cases behind with
    | nil => rfl
    | cons char behind =>
        obtain ⟨octet, octets, encoded, -⟩ := exists_encodeChars_cons char behind
        exact absurd (nothing.symm.trans (atEnd.trans encoded)) (by simp)
  refine ⟨_, _, run, rfl, written, same, tells, ?_⟩
  rw [List.append_nil] at divided
  exact (List.cons.inj divided).2.symm

end TailedFile

end PositionSync
