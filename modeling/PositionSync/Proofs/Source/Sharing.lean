import Mathlib.Logic.Function.Basic
import PositionSync.Proofs.Command.Forgetting
import PositionSync.Proofs.Service.Reloads
import PositionSync.Proofs.Source.Texts

/-!
# Sources that share a service

Several sources keep their positions with one service, which knows each of them by the text of its path.
Sources whose paths have different texts do not notice each other, however their requests and commits are
mixed. Paths that are no UTF-8 may have one text; then every commit of one source decides where the other
one goes on.
-/

namespace PositionSync

section Paths

variable {first second : Path}

/-- Octets are read as another text only if a sequence is broken in them. -/
theorem Utf8.encode_decodeLossy {octets : List UInt8}
    (whole : '\uFFFD' ∉ (decodeLossy octets).toList) : encode (decodeLossy octets) = octets := by
  rw [decodeLossy, String.toList_ofList] at whole
  rw [decodeLossy, encode, String.toList_ofList]
  symm
  rw [← chars?_eq_some_iff_encodeChars, chars?_eq_some_iff, List.map_map]
  symm
  refine (List.map_congr_left fun piece member => ?_).trans (List.map_id _)
  cases piece with
  | some char => rfl
  | none => exact absurd (List.mem_map.2 ⟨none, member, rfl⟩) whole

theorem filePartition_eq_iff : filePartition first = filePartition second ↔ first.text = second.text :=
  Command.namedPartition_injective.eq_iff

theorem Path.ofText_text (whole : '\uFFFD' ∉ first.text.toList) : .ofText first.text = first :=
  congrArg Path.mk (Utf8.encode_decodeLossy whole)

theorem Path.ofText_text_of_decode? (isUtf8 : (Utf8.decode? first.octets).isSome) :
    .ofText first.text = first := by
  obtain ⟨text, read⟩ := Option.isSome_iff_exists.1 isUtf8
  have written := Utf8.decode?_eq_some_iff.1 read
  have sameText : first.text = text := by
    rw [Path.text, written, Utf8.encode, Utf8.decodeLossy_encodeChars, String.ofList_toList]
  rw [sameText]
  exact congrArg Path.mk written.symm

/-- A text stands for one path, unless it has replacement characters. -/
theorem Path.eq_of_text_eq (sameText : first.text = second.text)
    (isText : '\uFFFD' ∉ first.text.toList ∨
      (Utf8.decode? first.octets).isSome ∧ (Utf8.decode? second.octets).isSome) :
    first = second := by
  rcases isText with whole | ⟨firstRead, secondRead⟩
  · rw [← ofText_text whole, sameText, ofText_text (sameText ▸ whole)]
  · rw [← ofText_text_of_decode? firstRead, sameText, ofText_text_of_decode? secondRead]

end Paths

namespace FileSource

/-- What a source has got to with a request: its settings are what they were, and the records of an answer
carry its partition. -/
structure IsOwn (settings : SourceSettings) (reached : Progress × FileSource) : Prop where
  sameSettings : reached.2.settings = settings
  samePartition : ∀ records, reached.1 = .done (.ok records) →
    ∀ record ∈ records, record.partition = filePartition settings.file

variable {settings : SourceSettings} {source : FileSource}

theorem isOwn_pause (sameSettings : source.settings = settings) (span : Duration) (next : Resume) :
    IsOwn settings (.pause span next, source) :=
  ⟨sameSettings, fun _ isDone => nomatch isDone⟩

theorem isOwn_error (sameSettings : source.settings = settings) (error : Error) :
    IsOwn settings (.done (.error error), source) :=
  ⟨sameSettings, fun _ isDone => nomatch isDone⟩

theorem isOwn_nothing (sameSettings : source.settings = settings) :
    IsOwn settings (.done (.ok []), source) := by
  refine ⟨sameSettings, fun records isDone record member => ?_⟩
  cases isDone
  cases member

theorem isOwn_readBatch (sameSettings : source.settings = settings) (file : OpenFile)
    (results : List ReadResult) :
    IsOwn settings (.done (source.readBatch file results).1, (source.readBatch file results).2) := by
  refine ⟨sameSettings, fun records isDone record member => ?_⟩
  have answered : (source.readBatch file results).1 = .ok records := by injection isDone
  rw [readBatch] at answered
  generalize Batch.ofReads source.settings.batchSize source.buffer source.streamOffset results =
    collected at answered
  rcases collected with ⟨batch, error | ⟨⟩⟩
  · cases answered
  · obtain rfl : batch.records source.partition = records := Except.ok.inj answered
    obtain ⟨line, -, rfl⟩ := List.mem_map.1 member
    exact congrArg (fun settings : SourceSettings => filePartition settings.file) sameSettings

theorem settings_of_attempt {files : FileSystem} {stored : Option Offset} {failed : UInt32}
    {opened : FileSource} (attempted : source.attempt files stored failed = .opened opened) :
    opened.settings = source.settings := by
  rw [attempt] at attempted
  split at attempted
  · split at attempted
    · injection attempted with same
      rw [← same]
      rfl
    · cases attempted
  · simp only at attempted
    split at attempted
    · cases attempted
    · cases attempted
  · cases attempted

variable (sameSettings : source.settings = settings) (files : FileSystem)
  (reads : OpenFile → List ReadResult) (stored : Option Offset)
include sameSettings

theorem isOwn_proceed (request : Request) (file : OpenFile) :
    IsOwn settings (source.proceed reads request file) := by
  cases request with
  | openFile => exact isOwn_nothing sameSettings
  | poll =>
      have own := isOwn_readBatch sameSettings file (reads file)
      rw [proceed]
      revert own
      rcases source.readBatch file (reads file) with ⟨error | ⟨_ | ⟨record, records⟩⟩, after⟩
      · exact id
      · exact fun own => isOwn_pause own.sameSettings _ _
      · exact id

theorem isOwn_openFor (request : Request) (failed : UInt32) :
    IsOwn settings (source.openFor files reads stored request failed) := by
  rw [openFor]
  cases attempted : source.attempt files stored failed with
  | failed error => exact isOwn_error sameSettings error
  | pause span failed => exact isOwn_pause sameSettings span _
  | opened opened =>
      have keepsSettings := (settings_of_attempt attempted).trans sameSettings
      cases isOpen : opened.file with
      | some file =>
          simp only [isOpen]
          exact isOwn_proceed keepsSettings reads request file
      | none =>
          simp only [isOpen]
          exact isOwn_nothing keepsSettings

theorem isOwn_begin (request : Request) :
    IsOwn settings (source.begin files reads stored request) := by
  rw [begin.eq_def]
  split
  · exact isOwn_proceed sameSettings reads .poll _
  · exact isOwn_openFor sameSettings files reads stored _ 0

theorem isOwn_resume (next : Resume) : IsOwn settings (source.resume files reads stored next) := by
  cases next with
  | retry request failed => exact isOwn_openFor sameSettings files reads stored request failed
  | answer => exact isOwn_nothing sameSettings

end FileSource

theorem Record.exists_of_lastPosition? {records : List Record} {partition : Partition} {offset : Offset}
    (isLast : lastPosition? records = some (partition, offset)) :
    ∃ record ∈ records, record.partition = partition := by
  obtain ⟨record, isRecord, same⟩ := Option.map_eq_some_iff.1 isLast
  exact ⟨record, List.mem_of_getLast? isRecord, congrArg Prod.fst same⟩

/-- Whether what an operation does to the files and to one position depends on nothing else of the
service. -/
def Operation.isDirect : Operation → Bool
  | .put .. | .putMany _ | .remove _ | .synchronize | .deliver _ | .changeFiles _ | .refuse _ => true
  | .persist _ | .load | .start | .stop _ => false

namespace Host

variable {first second : Host} {operation : Operation}

theorem files_perform_congr (direct : operation.isDirect) (sameFiles : first.files = second.files) :
    (first.perform operation).files = (second.perform operation).files := by
  cases operation with
  | changeFiles files => rfl
  | put | putMany | remove | synchronize | deliver | refuse => exact sameFiles
  | persist | load | start | stop => cases direct

theorem get?_table_perform_congr (direct : operation.isDirect) {partition : Partition}
    (sameEntry : first.table.get? partition = second.table.get? partition) :
    (first.perform operation).table.get? partition =
      (second.perform operation).table.get? partition := by
  have sameRevision : first.revised? partition operation = second.revised? partition operation := by
    cases operation with
    | put | putMany | remove | synchronize | deliver | changeFiles | refuse => rfl
    | persist | load | start | stop => cases direct
  rw [get?_table_perform, get?_table_perform, sameRevision, sameEntry]

end Host

/-- A source at work: the pause of a request that is to be gone on with, and all answers so far. -/
structure FileReader where
  source : FileSource
  waiting : Option FileSource.Resume
  answers : List (Except Error (List Record))

namespace FileReader

def new (settings : SourceSettings) : FileReader := ⟨.new settings, none, []⟩

/-- The records that have been handed out. -/
def handed (reader : FileReader) : List Record :=
  reader.answers.flatMap fun answer =>
    match answer with
    | .ok records => records
    | .error _ => []

/-- What a source can be told to do. A request that waits is given up for the next one. -/
inductive Act where
  | begin (request : FileSource.Request) (reads : OpenFile → List ReadResult)
  | resume (reads : OpenFile → List ReadResult)
  | close

def reach (reader : FileReader) : FileSource.Progress × FileSource → FileReader
  | (.done result, source) => ⟨source, none, reader.answers ++ [result]⟩
  | (.pause _ next, source) => { reader with source, waiting := some next }

def perform (reader : FileReader) (files : FileSystem) (stored : Option Offset) : Act → FileReader
  | .begin request reads => reader.reach (reader.source.begin files reads stored request)
  | .resume reads =>
    match reader.waiting with
    | none => reader
    | some next => reader.reach (reader.source.resume files reads stored next)
  | .close => { reader with source := reader.source.close, waiting := none }

/-- What holds of a source at work: its settings are what they were, and all that it has handed out
carries its partition. -/
structure Keeps (settings : SourceSettings) (reader : FileReader) : Prop where
  sameSettings : reader.source.settings = settings
  samePartition : ∀ record ∈ reader.handed, record.partition = filePartition settings.file

variable {settings : SourceSettings} {reader : FileReader}

theorem keeps_new (settings : SourceSettings) : Keeps settings (new settings) :=
  ⟨rfl, fun _ member => absurd member List.not_mem_nil⟩

theorem Keeps.reach (keeps : Keeps settings reader) {reached : FileSource.Progress × FileSource}
    (own : FileSource.IsOwn settings reached) : Keeps settings (reader.reach reached) := by
  obtain ⟨progress, source⟩ := reached
  cases progress with
  | pause span next => exact ⟨own.sameSettings, keeps.samePartition⟩
  | done result =>
      refine ⟨own.sameSettings, fun record member => ?_⟩
      obtain ⟨answer, answered, isIn⟩ := List.mem_flatMap.1 member
      rcases List.mem_append.1 answered with before | now
      · exact keeps.samePartition record (List.mem_flatMap.2 ⟨answer, before, isIn⟩)
      · obtain rfl : answer = result := List.mem_singleton.1 now
        cases answer with
        | error error => cases isIn
        | ok records => exact own.samePartition records rfl record isIn

theorem Keeps.perform (keeps : Keeps settings reader) (files : FileSystem) (stored : Option Offset)
    (act : Act) : Keeps settings (reader.perform files stored act) := by
  cases act with
  | begin request reads =>
      exact keeps.reach (FileSource.isOwn_begin keeps.sameSettings files reads stored request)
  | resume reads =>
      rw [FileReader.perform]
      cases reader.waiting with
      | none => exact keeps
      | some next =>
          exact keeps.reach (FileSource.isOwn_resume keeps.sameSettings files reads stored next)
  | close => exact ⟨keeps.sameSettings, keeps.samePartition⟩

end FileReader

/-- Sources at work on one service, each under an index. -/
structure Shared (ι : Type) where
  host : Host
  readers : ι → FileReader

namespace Shared

inductive Step (ι : Type) where
  | serve (operation : Operation)
  | act (which : ι) (act : FileReader.Act)
  | commit (which : ι) (records : List Record)

def Step.isDirect {ι : Type} : Step ι → Bool
  | .serve operation => operation.isDirect
  | .act .. | .commit .. => true

/-- Whether a step is one of a source, or of the service. -/
def Step.concerns {ι : Type} [DecidableEq ι] (which : ι) : Step ι → Bool
  | .serve _ => true
  | .act other _ | .commit other _ => other = which

variable {ι : Type}

def new (host : Host) (settings : ι → SourceSettings) : Shared ι :=
  ⟨host, fun which => .new (settings which)⟩

def stored (shared : Shared ι) (which : ι) : Option Offset :=
  shared.host.service.position? (shared.readers which).source.partition

/-- All that matters for a source. -/
structure View where
  files : FileSystem
  stored : Option Offset
  reader : FileReader

def view (shared : Shared ι) (which : ι) : View :=
  ⟨shared.host.files, shared.stored which, shared.readers which⟩

def Keeps (settings : ι → SourceSettings) (shared : Shared ι) : Prop :=
  ∀ which, (shared.readers which).Keeps (settings which)

variable {settings : ι → SourceSettings} {shared first second : Shared ι} {which other : ι}

theorem keeps_new (host : Host) (settings : ι → SourceSettings) : Keeps settings (new host settings) :=
  fun which => FileReader.keeps_new (settings which)

theorem Keeps.stored (keeps : Keeps settings shared) (which : ι) :
    shared.stored which = shared.host.table.get? (filePartition (settings which).file) := by
  rw [Shared.stored, FileSource.partition, (keeps which).sameSettings]
  rfl

theorem view_eq_iff (keepsFirst : Keeps settings first) (keepsSecond : Keeps settings second) :
    first.view which = second.view which ↔ first.host.files = second.host.files ∧
      first.host.table.get? (filePartition (settings which).file) =
        second.host.table.get? (filePartition (settings which).file) ∧
      first.readers which = second.readers which := by
  rw [view, view, View.mk.injEq, keepsFirst.stored, keepsSecond.stored]

variable [DecidableEq ι]

/-- A source keeps the position behind the last of some records, if it has handed all of them out. -/
def perform (shared : Shared ι) : Step ι → Shared ι
  | .serve operation => { shared with host := shared.host.perform operation }
  | .act which act =>
    let reader := (shared.readers which).perform shared.host.files (shared.stored which) act
    { shared with readers := Function.update shared.readers which reader }
  | .commit which records =>
    if ∀ record ∈ records, record ∈ (shared.readers which).handed then
      match Record.lastPosition? records with
      | none => shared
      | some (partition, offset) =>
        { shared with host := shared.host.perform (.put partition offset) }
    else shared

def run (steps : List (Step ι)) (shared : Shared ι) : Shared ι := steps.foldl perform shared

/-- The source after it has been closed and has opened its file again. -/
def reopened (shared : Shared ι) (which : ι) (reads : OpenFile → List ReadResult) : FileReader :=
  ((shared.perform (.act which .close)).perform (.act which (.begin .openFile reads))).readers which

theorem readers_act (shared : Shared ι) (which : ι) (act : FileReader.Act) :
    (shared.perform (.act which act)).readers which =
      (shared.readers which).perform shared.host.files (shared.stored which) act :=
  Function.update_self ..

theorem readers_act_of_ne (shared : Shared ι) (act : FileReader.Act) (differs : which ≠ other) :
    (shared.perform (.act other act)).readers which = shared.readers which :=
  Function.update_of_ne differs ..

/-- A commit of records that have been handed out keeps the position behind the last of them. -/
theorem perform_commit (keeps : Keeps settings shared) {records : List Record}
    (handedOut : ∀ record ∈ records, record ∈ (shared.readers which).handed)
    {partition : Partition} {offset : Offset}
    (isLast : Record.lastPosition? records = some (partition, offset)) :
    shared.perform (.commit which records) = { shared with
      host := shared.host.perform (.put (filePartition (settings which).file) offset) } := by
  obtain ⟨record, member, isPartition⟩ := Record.exists_of_lastPosition? isLast
  have own : partition = filePartition (settings which).file :=
    isPartition.symm.trans ((keeps which).samePartition record (handedOut record member))
  rw [perform, if_pos handedOut, isLast, own]

theorem commit_cases (keeps : Keeps settings shared) (which : ι) (records : List Record) :
    shared.perform (.commit which records) = shared ∨ ∃ offset,
      shared.perform (.commit which records) = { shared with
        host := shared.host.perform (.put (filePartition (settings which).file) offset) } := by
  by_cases handedOut : ∀ record ∈ records, record ∈ (shared.readers which).handed
  · cases isLast : Record.lastPosition? records with
    | none => exact .inl (by rw [perform, if_pos handedOut, isLast])
    | some position => exact .inr ⟨position.2, perform_commit keeps handedOut isLast⟩
  · exact .inl (by rw [perform, if_neg handedOut])

theorem Keeps.perform (keeps : Keeps settings shared) (step : Step ι) :
    Keeps settings (shared.perform step) := by
  cases step with
  | serve operation => exact keeps
  | act which act =>
      intro other
      by_cases same : other = which
      · rw [same, readers_act]
        exact (keeps which).perform _ _ act
      · rw [readers_act_of_ne shared act same]
        exact keeps other
  | commit which records =>
      rcases commit_cases keeps which records with nothing | ⟨offset, recorded⟩
      · rw [nothing]
        exact keeps
      · rw [recorded]
        exact keeps

theorem Keeps.run (keeps : Keeps settings shared) (steps : List (Step ι)) :
    Keeps settings (shared.run steps) := by
  induction steps generalizing shared with
  | nil => exact keeps
  | cons step steps ih => exact ih (keeps.perform step)

/-- A commit of a source with another text is not noticed. -/
theorem view_commit (keeps : Keeps settings shared)
    (apart : (settings which).file.text ≠ (settings other).file.text) (records : List Record) :
    (shared.perform (.commit other records)).view which = shared.view which := by
  apply (view_eq_iff (keeps.perform _) keeps).2
  rcases commit_cases keeps other records with nothing | ⟨offset, recorded⟩
  · rw [nothing]
    exact ⟨rfl, rfl, rfl⟩
  · rw [recorded]
    exact ⟨rfl, SortedMap.get?_insert_of_ne _ _ (mt filePartition_eq_iff.1 apart), rfl⟩

/-- What another source does is not noticed, if no other source has the text. -/
theorem view_perform_of_not_concerns (keeps : Keeps settings shared)
    (alone : ∀ other, (settings other).file.text = (settings which).file.text → other = which)
    {step : Step ι} (isOther : ¬ step.concerns which) :
    (shared.perform step).view which = shared.view which := by
  cases step with
  | serve operation => exact absurd rfl isOther
  | act other act =>
      have differs : which ≠ other := fun same => isOther (decide_eq_true same.symm)
      apply (view_eq_iff (keeps.perform _) keeps).2
      exact ⟨rfl, rfl, readers_act_of_ne shared act differs⟩
  | commit other records =>
      apply view_commit keeps
      intro same
      exact isOther (decide_eq_true (alone other same.symm))

/-- A step of a source, or of the service, does the same to all that looks the same to the source. -/
theorem view_perform_congr (keepsFirst : Keeps settings first) (keepsSecond : Keeps settings second)
    (same : first.view which = second.view which) {step : Step ι} (direct : step.isDirect)
    (isOwn : step.concerns which) :
    (first.perform step).view which = (second.perform step).view which := by
  obtain ⟨sameFiles, sameEntry, sameReader⟩ := (view_eq_iff keepsFirst keepsSecond).1 same
  apply (view_eq_iff (keepsFirst.perform step) (keepsSecond.perform step)).2
  cases step with
  | serve operation =>
      exact ⟨Host.files_perform_congr direct sameFiles,
        Host.get?_table_perform_congr direct sameEntry, sameReader⟩
  | act other act =>
      obtain rfl : other = which := of_decide_eq_true isOwn
      refine ⟨sameFiles, sameEntry, ?_⟩
      rw [readers_act, readers_act, sameReader, sameFiles, keepsFirst.stored, keepsSecond.stored,
        sameEntry]
  | commit other records =>
      obtain rfl : other = which := of_decide_eq_true isOwn
      rw [perform, perform, sameReader]
      split
      · cases Record.lastPosition? records with
        | none => exact ⟨sameFiles, sameEntry, sameReader⟩
        | some position =>
            exact ⟨sameFiles, Host.get?_table_perform_congr rfl sameEntry, sameReader⟩
      · exact ⟨sameFiles, sameEntry, sameReader⟩

/-- Without the steps of all other sources everything is the same for a source. -/
theorem view_run_filter (keepsFirst : Keeps settings first) (keepsSecond : Keeps settings second)
    (alone : ∀ other, (settings other).file.text = (settings which).file.text → other = which)
    (same : first.view which = second.view which) {steps : List (Step ι)}
    (direct : ∀ step ∈ steps, step.isDirect) :
    (first.run steps).view which = (second.run (steps.filter (·.concerns which))).view which := by
  -- Own steps are taken in both runs at once, and a step of another source in the first one only.
  induction steps generalizing first second with
  | nil => exact same
  | cons step steps ih =>
      obtain ⟨isDirect, laterDirect⟩ := List.forall_mem_cons.1 direct
      by_cases concerns : step.concerns which
      · rw [List.filter_cons_of_pos concerns]
        apply ih (keepsFirst.perform step) (keepsSecond.perform step) _ laterDirect
        exact view_perform_congr keepsFirst keepsSecond same isDirect concerns
      · rw [List.filter_cons_of_neg concerns]
        apply ih (keepsFirst.perform step) keepsSecond _ laterDirect
        exact (view_perform_of_not_concerns keepsFirst alone concerns).trans same

/-- How a source opens its file again depends on nothing but its view. -/
theorem reopened_congr (keepsFirst : Keeps settings first) (keepsSecond : Keeps settings second)
    (same : first.view which = second.view which) (reads : OpenFile → List ReadResult) :
    first.reopened which reads = second.reopened which reads := by
  have isOwn (act : FileReader.Act) : (Step.act which act).concerns which := decide_eq_true rfl
  have closed := view_perform_congr keepsFirst keepsSecond same rfl (isOwn .close)
  have opened := view_perform_congr (keepsFirst.perform _) (keepsSecond.perform _) closed rfl
    (isOwn (.begin .openFile reads))
  exact congrArg View.reader opened

/-- A commit of a source with the same text is taken for the position of this one. -/
theorem stored_commit (keeps : Keeps settings shared)
    (sameText : (settings which).file.text = (settings other).file.text) {records : List Record}
    (handedOut : ∀ record ∈ records, record ∈ (shared.readers other).handed)
    {partition : Partition} {offset : Offset}
    (isLast : Record.lastPosition? records = some (partition, offset)) :
    (shared.perform (.commit other records)).stored which = some offset := by
  rw [(keeps.perform _).stored, perform_commit keeps handedOut isLast, filePartition_eq_iff.2 sameText]
  exact SortedMap.get?_insert_self ..

/-- The partition of a file tells its path if the path is UTF-8. Sources whose paths have different texts
are apart: no commit of the one changes where the other opens its file again, and for a source whose text
no other one has everything is as if the others were not there. If two paths have one text, then every
commit of one source decides where the other one opens its file. -/
theorem sources_are_apart_unless_texts_agree (host : Host) (settings : ι → SourceSettings) (which : ι) :
    (∀ first second : Path,
      (filePartition first = filePartition second ↔ first.text = second.text) ∧
      (filePartition first = filePartition second →
        '\uFFFD' ∉ first.text.toList ∨
          (Utf8.decode? first.octets).isSome ∧ (Utf8.decode? second.octets).isSome →
        first = second)) ∧
    (∀ steps other records,
      let shared := (new host settings).run steps
      let committed := shared.perform (.commit other records)
      ((settings which).file.text ≠ (settings other).file.text →
        committed.view which = shared.view which ∧
          ∀ reads, committed.reopened which reads = shared.reopened which reads) ∧
      ((settings which).file.text = (settings other).file.text →
        (∀ record ∈ records, record ∈ (shared.readers other).handed) →
        ∀ partition offset, Record.lastPosition? records = some (partition, offset) →
          committed.stored which = some offset)) ∧
    ((∀ other, (settings other).file.text = (settings which).file.text → other = which) →
      ∀ steps, (∀ step ∈ steps, step.isDirect) →
        ((new host settings).run steps).view which =
          ((new host settings).run (steps.filter (·.concerns which))).view which) := by
  have keeps (steps : List (Step ι)) : Keeps settings ((new host settings).run steps) :=
    (keeps_new host settings).run steps
  refine ⟨fun first second => ⟨filePartition_eq_iff, fun same isText => ?_⟩, ?_, ?_⟩
  · exact Path.eq_of_text_eq (filePartition_eq_iff.1 same) isText
  · intro steps other records shared committed
    refine ⟨fun apart => ?_, fun sameText handedOut partition offset isLast => ?_⟩
    · have unnoticed := view_commit (keeps steps) apart records
      exact ⟨unnoticed, reopened_congr ((keeps steps).perform _) (keeps steps) unnoticed⟩
    · exact stored_commit (keeps steps) sameText handedOut isLast
  · intro alone steps direct
    exact view_run_filter (keeps []) (keeps []) alone rfl direct

section Broken

/-- Two paths that are no UTF-8, and one that is. -/
def threePaths : Fin 3 → Path
  | 0 => ⟨[0xFF]⟩
  | 1 => ⟨[0xFE]⟩
  | 2 => .ofText "c.log"

def threeFiles : FileSystem :=
  ((FileSystem.empty.change (.write (threePaths 0) [97, 10, 98, 10])).change
    (.write (threePaths 1) [99, 10, 100, 10])).change (.write (threePaths 2) [101, 10])

def threeSources : Shared (Fin 3) :=
  new (.new (.new (.ofText "position.json")) .never threeFiles) fun which => .new (threePaths which)

def pollThree (which : Fin 3) : Step (Fin 3) := .act which (.begin .poll (·.reads threeFiles))

def firstOfThree : List Record := [⟨filePartition (threePaths 0), fileOffset 2, "a"⟩]

/-- The commit of one source is where the second one goes on, and the third one does not notice it. -/
theorem sources_are_apart_unless_texts_agree_of_three :
    (∀ path, filePartition (threePaths 2) = filePartition path → threePaths 2 = path) ∧
      ((threeSources.run [pollThree 0]).perform (.commit 0 firstOfThree)).stored 1 =
        some (fileOffset 2) ∧
      ((threeSources.run [pollThree 0]).perform (.commit 0 firstOfThree)).view 2 =
        (threeSources.run [pollThree 0]).view 2 ∧
      (threeSources.run [pollThree 0, .commit 0 firstOfThree, pollThree 2]).view 2 =
        (threeSources.run [pollThree 2]).view 2 := by
  let settings (which : Fin 3) : SourceSettings := .new (threePaths which)
  let host : Host := .new (.new (.ofText "position.json")) .never threeFiles
  obtain ⟨paths, apart, unnoticed⟩ := sources_are_apart_unless_texts_agree host settings 2
  obtain ⟨-, commits, -⟩ := sources_are_apart_unless_texts_agree host settings 1
  refine ⟨fun path same => ?_, ?_, ?_, ?_⟩
  · exact (paths _ path).2 same (.inl (by decide +kernel))
  · obtain ⟨-, taken⟩ := commits [pollThree 0] 0 firstOfThree
    have sameText : (settings 1).file.text = (settings 0).file.text := by decide +kernel
    have handedOut : ∀ record ∈ firstOfThree,
        record ∈ (((new host settings).run [pollThree 0]).readers 0).handed := by
      decide +kernel
    exact taken sameText handedOut (filePartition (threePaths 0)) (fileOffset 2) rfl
  · obtain ⟨untouched, -⟩ := apart [pollThree 0] 0 firstOfThree
    have textsDiffer : (settings 2).file.text ≠ (settings 0).file.text := by decide +kernel
    exact (untouched textsDiffer).1
  · have alone : ∀ other, (threePaths other).text = (threePaths 2).text → other = 2 := by
      decide +kernel
    refine unnoticed alone [pollThree 0, .commit 0 firstOfThree, pollThree 2] ?_
    intro step member
    simp only [List.mem_cons, List.not_mem_nil, or_false] at member
    rcases member with rfl | rfl | rfl
    · rfl
    · rfl
    · rfl

/-- The source of one path commits its first line, and the source of another path skips its first line. -/
theorem commit_moves_other_source :
    let read := threeSources.run [pollThree 0]
    let committed := read.perform (.commit 0 firstOfThree)
    threePaths 0 ≠ threePaths 1 ∧ filePartition (threePaths 0) = filePartition (threePaths 1) ∧
      (∀ record ∈ firstOfThree, record ∈ (read.readers 0).handed) ∧
      (read.reopened 1 (·.reads threeFiles)).source.streamOffset = 0 ∧
      (committed.reopened 1 (·.reads threeFiles)).source.streamOffset = 2 ∧
      ((read.run [pollThree 1]).readers 1).handed.map Record.line = ["c", "d"] ∧
      ((committed.run [pollThree 1]).readers 1).handed.map Record.line = ["d"] := by
  decide +kernel

end Broken

end Shared

end PositionSync
