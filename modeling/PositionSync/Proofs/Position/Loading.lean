import PositionSync.Position.Store
import PositionSync.Proofs.Json.Numbers
import PositionSync.Proofs.Position.Entries

/-!
# What a position file holds

A position file holds a table if its octets are a text, and if this text spells an object with one
version, one time and one list of positions, whatever else stands in it, or the list of these three. A
store reads this table from its file, and an empty one without a file. Every other file is refused.
-/

namespace PositionSync

namespace Json.Tree

/-- A point in time is a string that stands for one. -/
def IsTimestamp (tree : Tree) : Prop := ∃ text, tree.IsText text ∧ Timestamp.accepts text = true

/-- A position file says which version it has, when it was saved, and what the positions are, either by
name or in this order. -/
inductive IsSnapshot : Tree → PositionTable → Prop
  | object {members : List (List StringPart × Tree)} {named : List (String × Tree)}
      {versionTree timeTree positionsTree : Tree} {version : Nat} {table : PositionTable}
      (names : Named members named) (oneVersion : valuesOf "version" named = [versionTree])
      (oneTime : valuesOf "saved_at" named = [timeTree])
      (onePositions : valuesOf "positions" named = [positionsTree])
      (isVersion : versionTree.IsUnsigned32 version) (isTime : timeTree.IsTimestamp)
      (isTable : positionsTree.IsTable table) : IsSnapshot (.object members) table
  | list {versionTree timeTree positionsTree : Tree} {version : Nat} {table : PositionTable}
      (isVersion : versionTree.IsUnsigned32 version) (isTime : timeTree.IsTimestamp)
      (isTable : positionsTree.IsTable table) :
      IsSnapshot (.list [versionTree, timeTree, positionsTree]) table

end Json.Tree

open Json

namespace Snapshot

theorem decodes_timestamp : Decodes timestamp fun tree _ => tree.IsTimestamp where
  complete {tree value} isTimestamp rest := by
    obtain ⟨text, isText, accepted⟩ := isTimestamp
    rw [timestamp, (Decodes.text _).complete isText]
    exact if_pos accepted
  sound {lexemes value rest} read := by
    rw [timestamp] at read
    obtain ⟨⟨text, behind⟩, readText, readRest⟩ := ok_of_bind read
    obtain ⟨tree, rfl, isText⟩ := (Decodes.text _).sound readText
    simp only at readRest
    split at readRest
    · next accepted =>
      cases readRest
      exact ⟨tree, rfl, text, isText, accepted⟩
    · cases readRest

/-- The fields of a position file. -/
inductive Part where
  | version
  | savedAt
  | positions
deriving DecidableEq

namespace Part

def name : Part → String
  | .version => "version"
  | .savedAt => "saved_at"
  | .positions => "positions"

abbrev Value : Part → Type
  | .version => Nat
  | .savedAt => Unit
  | .positions => PositionTable

def Means : ∀ part : Part, Tree → part.Value → Prop
  | .version => Tree.IsUnsigned32
  | .savedAt => fun tree _ => tree.IsTimestamp
  | .positions => Tree.IsTable

def get : ∀ part : Part, Draft → Option part.Value
  | .version => Draft.version
  | .savedAt => Draft.savedAt
  | .positions => Draft.positions

def set : ∀ part : Part, part.Value → Draft → Draft
  | .version => fun version draft => { draft with version := some version }
  | .savedAt => fun savedAt draft => { draft with savedAt := some savedAt }
  | .positions => fun positions draft => { draft with positions := some positions }

end Part

theorem fields_areSeparate : Draft.fields.AreSeparate Part.name Part.Means Part.get Part.set where
  distinct := by
    intro part other same
    cases part <;> cases other <;> first | rfl | exact absurd same (by decide)
  known {other} := by
    constructor
    · intro isKnown
      simp only [Draft.fields, List.mem_cons, List.not_mem_nil, or_false] at isKnown
      rcases isKnown with rfl | rfl | rfl
      · exact ⟨.version, rfl⟩
      · exact ⟨.savedAt, rfl⟩
      · exact ⟨.positions, rfl⟩
    · rintro ⟨part, rfl⟩
      cases part <;> decide
  ext {record other} same := by
    have sameVersion : record.version = other.version := same .version
    have sameTime : record.savedAt = other.savedAt := same .savedAt
    have samePositions : record.positions = other.positions := same .positions
    obtain ⟨version, savedAt, positions⟩ := record
    subst sameVersion sameTime samePositions
    rfl
  get_set_self part value record := by
    cases part <;> rfl
  get_set_of_ne {part other} differs value record := by
    cases part <;> cases other <;> first | rfl | exact absurd rfl differs
  isSet part record := by
    cases part <;> rfl
  read part record := by
    cases part with
    | version => exact Decodes.unsigned32.map fun version => { record with version := some version }
    | savedAt => exact decodes_timestamp.map fun savedAt => { record with savedAt := some savedAt }
    | positions =>
        exact Listing.decodes_table.map fun positions => { record with positions := some positions }

theorem finish_eq_ok_iff {draft : Draft} {table : PositionTable} :
    draft.finish = .ok table ↔
      ∃ version, draft.version = some version ∧ draft.savedAt = some () ∧
        draft.positions = some table := by
  obtain ⟨version, savedAt, positions⟩ := draft
  cases version <;> cases savedAt <;> cases positions <;> simp [Draft.finish]

theorem items_complete {versionTree timeTree positionsTree : Tree} {version : Nat}
    {table : PositionTable} (isVersion : versionTree.IsUnsigned32 version)
    (isTime : timeTree.IsTimestamp) (isTable : positionsTree.IsTable table) (rest : List Lexeme) :
    items (behindBracket [versionTree, timeTree, positionsTree] ++ rest) = .ok (table, rest) := by
  have readTime (behind : List Lexeme) :
      nextItem false timestamp (.comma :: (timeTree.lexemes ++ behind)) = .ok (some (), behind) :=
    nextItem_later decodes_timestamp isTime behind
  simp only [behindBracket, laterItems, List.append_assoc, List.cons_append, List.nil_append]
  rw [items, nextItem_first Decodes.unsigned32 isVersion]
  change (nextItem false timestamp _ >>= _) = _
  rw [readTime]
  change (nextItem false Listing.decoder _ >>= _) = _
  rw [nextItem_later Listing.decodes_table isTable]
  rfl

theorem items_sound {lexemes rest : List Lexeme} {table : PositionTable}
    (read : items lexemes = .ok (table, rest)) :
    ∃ trees, lexemes = behindBracket trees ++ rest ∧ (Tree.list trees).IsSnapshot table := by
  rw [items] at read
  obtain ⟨⟨version?, behindFirst⟩, readFirst, readRest⟩ := ok_of_bind read
  obtain ⟨rfl, -⟩ | ⟨versionTree, version, rfl, isVersion, spelledFirst⟩ :=
    nextItem_sound Decodes.unsigned32 readFirst
  · cases readRest
  obtain ⟨⟨time?, behindSecond⟩, readSecond, readRest⟩ := ok_of_bind readRest
  obtain ⟨rfl, -⟩ | ⟨timeTree, time, rfl, isTime, spelledSecond⟩ :=
    nextItem_sound decodes_timestamp readSecond
  · cases readRest
  obtain ⟨⟨positions?, behindThird⟩, readThird, readRest⟩ := ok_of_bind readRest
  obtain ⟨rfl, -⟩ | ⟨positionsTree, positions, rfl, isTable, spelledThird⟩ :=
    nextItem_sound Listing.decodes_table readThird
  · cases readRest
  obtain ⟨⟨⟨⟩, after⟩, isEnd, finished⟩ := ok_of_bind readRest
  cases finished
  rw [listEnd_eq_ok_iff] at isEnd
  refine ⟨[versionTree, timeTree, positionsTree], ?_, .list isVersion isTime isTable⟩
  rw [spelledFirst, spelledSecond, spelledThird, isEnd]
  simp [separator, behindBracket, laterItems]

theorem decodes_snapshot : Decodes decoder Tree.IsSnapshot where
  complete {tree table} isSnapshot rest := by
    cases isSnapshot with
    | @object members named _ _ _ version table names oneVersion oneTime onePositions isVersion isTime
        isTable =>
        have leaves : ∀ part : Part, Leaves part.Means none (valuesOf part.name named)
            (part.get ⟨some version, some (), some table⟩) := by
          intro part
          cases part with
          | version => exact leaves_some_iff.2 ⟨_, oneVersion, isVersion⟩
          | savedAt => exact leaves_some_iff.2 ⟨_, oneTime, isTime⟩
          | positions => exact leaves_some_iff.2 ⟨_, onePositions, isTable⟩
        have read : object Draft.fields {} (behindBrace members ++ rest) =
            .ok (⟨some version, some (), some table⟩, rest) :=
          (fields_areSeparate.object_eq_ok_iff (fun part => by cases part <;> rfl)).2
            ⟨members, named, rfl, names, leaves⟩
        rw [Tree.lexemes, List.cons_append, decoder, read]
        rfl
    | list isVersion isTime isTable => exact items_complete isVersion isTime isTable rest
  sound {lexemes table rest} read := by
    rw [decoder.eq_def] at read
    split at read
    · obtain ⟨⟨draft, behind⟩, readFields, readRest⟩ := ok_of_bind read
      obtain ⟨found, isFinished, finished⟩ := ok_of_bind readRest
      cases finished
      obtain ⟨version, hasVersion, hasTime, hasPositions⟩ := finish_eq_ok_iff.1 isFinished
      obtain ⟨members, named, rfl, names, leaves⟩ :=
        (fields_areSeparate.object_eq_ok_iff (fun part => by cases part <;> rfl)).1 readFields
      have leavesVersion : Leaves Tree.IsUnsigned32 none (valuesOf "version" named) draft.version :=
        leaves .version
      have leavesTime : Leaves (fun tree _ => tree.IsTimestamp) none (valuesOf "saved_at" named)
          draft.savedAt := leaves .savedAt
      have leavesPositions : Leaves Tree.IsTable none (valuesOf "positions" named) draft.positions :=
        leaves .positions
      rw [hasVersion, leaves_some_iff] at leavesVersion
      rw [hasTime, leaves_some_iff] at leavesTime
      rw [hasPositions, leaves_some_iff] at leavesPositions
      obtain ⟨versionTree, oneVersion, isVersion⟩ := leavesVersion
      obtain ⟨timeTree, oneTime, isTime⟩ := leavesTime
      obtain ⟨positionsTree, onePositions, isTable⟩ := leavesPositions
      exact ⟨.object members, rfl,
        .object names oneVersion oneTime onePositions isVersion isTime isTable⟩
    · obtain ⟨trees, rfl, isSnapshot⟩ := items_sound read
      exact ⟨.list trees, rfl, isSnapshot⟩
    · cases read

theorem decode_eq_ok_iff {chars : List Char} {table : PositionTable} :
    decode chars = .ok table ↔
      ∃ tree : Tree, tree.IsSpelledBy (Utf8.encodeChars chars) ∧ tree.IsSnapshot table :=
  Json.decode_eq_ok_iff decodes_snapshot

end Snapshot

theorem FileSystem.readChars_eq_ok_iff {files : FileSystem} {path : Path} {chars : List Char} :
    files.readChars path = .ok chars ↔ files.read path = .ok (Utf8.encodeChars chars) := by
  rw [readChars]
  cases files.read path with
  | error fault => simp [bind, Except.bind]
  | ok octets =>
      simp only [bind, Except.bind, Except.ok.injEq, ← Utf8.chars?_eq_some_iff_encodeChars]
      cases Utf8.chars? octets with
      | none => simp [throw, throwThe, MonadExceptOf.throw]
      | some read => simp [pure, Except.pure]

namespace Store

variable {store : Store} {files : FileSystem} {table : PositionTable}

/-- Whether the file of a store holds a table. -/
def HoldsTable (store : Store) (files : FileSystem) (table : PositionTable) : Prop :=
  ∃ (chars : List Char) (tree : Tree), files.read store.path = .ok (Utf8.encodeChars chars) ∧
    tree.IsSpelledBy (Utf8.encodeChars chars) ∧ tree.IsSnapshot table

theorem hasFile_iff : store.hasFile files = true ↔
    store.isInMemory = false ∧ files.pathExists store.path = true := by
  rw [hasFile, Bool.and_eq_true, Bool.not_eq_true']

theorem storedTable_of_no_file (noFile : ¬ store.hasFile files = true) :
    store.storedTable files = .ok .empty := by
  rw [storedTable, if_neg noFile]

theorem storedTable_eq_ok_iff (hasFile : store.hasFile files = true) :
    store.storedTable files = .ok table ↔ store.HoldsTable files table := by
  rw [storedTable, if_pos hasFile]
  constructor
  · intro stored
    split at stored
    · cases stored
    · next chars read =>
      split at stored
      · cases stored
      · next found decoded =>
        cases stored
        obtain ⟨tree, spelled, isSnapshot⟩ := Snapshot.decode_eq_ok_iff.1 decoded
        exact ⟨chars, tree, FileSystem.readChars_eq_ok_iff.1 read, spelled, isSnapshot⟩
  · rintro ⟨chars, tree, read, spelled, isSnapshot⟩
    simp only [FileSystem.readChars_eq_ok_iff.2 read,
      Snapshot.decode_eq_ok_iff.2 ⟨tree, spelled, isSnapshot⟩]

/-- Whatever is wrong with the file of a store, its table cannot be read. -/
theorem storedTable_eq_error (hasFile : store.hasFile files = true)
    (holdsNone : ∀ table, ¬ store.HoldsTable files table) :
    ∃ message, store.storedTable files = .error (.state message) := by
  have refused (table : PositionTable) : store.storedTable files ≠ .ok table :=
    mt (storedTable_eq_ok_iff hasFile).1 (holdsNone table)
  rw [storedTable, if_pos hasFile] at refused ⊢
  split
  · exact ⟨_, rfl⟩
  · next chars read =>
    split
    · exact ⟨_, rfl⟩
    · next table decoded =>
      simp only [read, decoded] at refused
      exact absurd rfl (refused table)

end Store

end PositionSync
