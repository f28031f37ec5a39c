import PositionSync.Message.Wire
import PositionSync.Proofs.Position.Entries

/-!
# A message is what its payload says

A payload is a message if it spells an object with one kind and at most one list of positions.  The order
of the members, the blanks between them, the way in which a string is spelled, and whatever else stands in
the object make no difference.  A kind that is not known is reported only for such a payload, and every
other payload is refused as a whole.
-/

namespace PositionSync

namespace Json.Tree

/-- A message says what kind it is of, and may list positions, either by name or in this order. -/
inductive IsMessage : Tree → String × PositionTable → Prop
  | object {members : List (List StringPart × Tree)} {named : List (String × Tree)}
      {kindTree positionsTree : Tree} {kind : String} {table : PositionTable}
      (names : Named members named) (oneKind : valuesOf "kind" named = [kindTree])
      (onePositions : valuesOf "positions" named = [positionsTree]) (isKind : kindTree.IsText kind)
      (isTable : positionsTree.IsTable table) : IsMessage (.object members) (kind, table)
  | bareObject {members : List (List StringPart × Tree)} {named : List (String × Tree)}
      {kindTree : Tree} {kind : String} (names : Named members named)
      (oneKind : valuesOf "kind" named = [kindTree]) (noPositions : valuesOf "positions" named = [])
      (isKind : kindTree.IsText kind) : IsMessage (.object members) (kind, .empty)
  | list {kindTree positionsTree : Tree} {kind : String} {table : PositionTable}
      (isKind : kindTree.IsText kind) (isTable : positionsTree.IsTable table) :
      IsMessage (.list [kindTree, positionsTree]) (kind, table)
  | bareList {kindTree : Tree} {kind : String} (isKind : kindTree.IsText kind) :
      IsMessage (.list [kindTree]) (kind, .empty)

/-- An object in which a member is missing that has to be there, or stands twice that may stand once. -/
inductive LacksOrRepeats : Tree → Prop
  | kind {members : List (List StringPart × Tree)} {named : List (String × Tree)}
      (names : Named members named) (notOne : (valuesOf "kind" named).length ≠ 1) :
      LacksOrRepeats (.object members)
  | positions {members : List (List StringPart × Tree)} {named : List (String × Tree)}
      (names : Named members named) (repeated : 1 < (valuesOf "positions" named).length) :
      LacksOrRepeats (.object members)
  | entry {members fields : List (List StringPart × Tree)} {named namedFields : List (String × Tree)}
      {items : List Tree} (names : Named members named)
      (listed : .list items ∈ valuesOf "positions" named) (isItem : .object fields ∈ items)
      (fieldNames : Named fields namedFields)
      (notOne : (valuesOf "partition" namedFields).length ≠ 1 ∨
        (valuesOf "offset" namedFields).length ≠ 1) : LacksOrRepeats (.object members)

theorem LacksOrRepeats.not_isMessage {tree : Tree} (unfit : tree.LacksOrRepeats)
    (content : String × PositionTable) : ¬tree.IsMessage content := by
  intro isMessage
  cases unfit with
  | kind names notOne =>
      cases isMessage with
      | object messageNames oneKind _ _ _ | bareObject messageNames oneKind _ _ =>
          rw [names.unique messageNames, oneKind] at notOne
          exact notOne rfl
  | positions names repeated =>
      cases isMessage with
      | object messageNames _ positions _ _ | bareObject messageNames _ positions _ =>
          rw [names.unique messageNames, positions] at repeated
          exact absurd repeated (by simp)
  | entry names listed isItem fieldNames notOne =>
      cases isMessage with
      | bareObject messageNames _ noPositions _ =>
          rw [names.unique messageNames, noPositions] at listed
          cases listed
      | object messageNames _ onePositions _ isTable =>
          rw [names.unique messageNames, onePositions, List.mem_singleton] at listed
          obtain ⟨entries, isList, -⟩ := isTable
          rw [← listed] at isList
          obtain ⟨entry, isEntry⟩ := isList.exists_of_mem isItem
          cases isEntry with
          | object entryNames onePartition oneOffset _ _ =>
              rw [fieldNames.unique entryNames, onePartition, oneOffset] at notOne
              exact notOne.elim (absurd rfl) (absurd rfl)

end Json.Tree

namespace PositionMessage

open Json

theorem envelopeFields_isPair : Envelope.fields.IsPair "kind" "positions" Tree.IsText Tree.IsTable
    Envelope.mk Envelope.kind Envelope.positions where
  distinct := by decide
  known := rfl
  make_eq _ := rfl
  one_make _ _ := rfl
  other_make _ _ := rfl
  isSet_first _ := rfl
  isSet_second _ := rfl
  read_first record := by
    have reads := (Decodes.text "a string").map fun kind => { record with kind := some kind }
    exact reads
  read_second record := by
    have reads := Listing.decodes_table.map fun positions =>
      { record with positions := some positions }
    exact reads

theorem isMessage_object_iff {members : List (List StringPart × Tree)} {kind : String}
    {table : PositionTable} :
    (Tree.object members).IsMessage (kind, table) ↔ ∃ named positions, Named members named ∧
      Leaves Tree.IsText none (valuesOf "kind" named) (some kind) ∧
      Leaves Tree.IsTable none (valuesOf "positions" named) positions ∧
      positions.getD .empty = table := by
  constructor
  · intro isMessage
    cases isMessage with
    | object names oneKind onePositions isKind isTable =>
        exact ⟨_, some table, names, leaves_some_iff.2 ⟨_, oneKind, isKind⟩,
          leaves_some_iff.2 ⟨_, onePositions, isTable⟩, rfl⟩
    | bareObject names oneKind noPositions isKind =>
        exact ⟨_, none, names, leaves_some_iff.2 ⟨_, oneKind, isKind⟩,
          leaves_none_iff.2 noPositions, rfl⟩
  · rintro ⟨named, positions, names, leavesKind, leavesPositions, rfl⟩
    obtain ⟨kindTree, oneKind, isKind⟩ := leaves_some_iff.1 leavesKind
    cases positions with
    | none => exact .bareObject names oneKind (leaves_none_iff.1 leavesPositions) isKind
    | some table =>
        obtain ⟨positionsTree, onePositions, isTable⟩ := leaves_some_iff.1 leavesPositions
        exact .object names oneKind onePositions isKind isTable

theorem envelopeItems_sound {lexemes rest : List Lexeme} {content : String × PositionTable}
    (read : Envelope.items lexemes = .ok (content, rest)) :
    ∃ trees, lexemes = behindBracket trees ++ rest ∧ (Tree.list trees).IsMessage content := by
  rw [Envelope.items] at read
  obtain ⟨⟨found, behindFirst⟩, readFirst, readRest⟩ := ok_of_bind read
  obtain ⟨rfl, -⟩ | ⟨kindTree, kind, rfl, isKind, spelledFirst⟩ :=
    nextItem_sound (.text "a string") readFirst
  · cases readRest
  obtain ⟨⟨positions, behindSecond⟩, readSecond, readEnd⟩ := ok_of_bind readRest
  obtain ⟨⟨⟨⟩, after⟩, isEnd, finished⟩ := ok_of_bind readEnd
  cases finished
  rw [listEnd_eq_ok_iff] at isEnd
  obtain ⟨rfl, rfl, -⟩ | ⟨positionsTree, table, rfl, isTable, spelledSecond⟩ :=
    nextItem_sound Listing.decodes_table readSecond
  · refine ⟨[kindTree], ?_, .bareList isKind⟩
    rw [spelledFirst, isEnd]
    simp [separator, behindBracket, laterItems]
  · refine ⟨[kindTree, positionsTree], ?_, .list isKind isTable⟩
    rw [spelledFirst, spelledSecond, isEnd]
    simp [separator, behindBracket, laterItems]

theorem decodes_message : Decodes Envelope.decoder Tree.IsMessage where
  complete {tree content} isMessage rest := by
    obtain ⟨kind, table⟩ := content
    cases tree with
    | object members =>
        obtain ⟨named, positions, names, leavesKind, leavesPositions, rfl⟩ :=
          isMessage_object_iff.1 isMessage
        have read : object Envelope.fields {} (behindBrace members ++ rest) =
            .ok (⟨some kind, positions⟩, rest) :=
          envelopeFields_isPair.object_eq_ok_iff.2
            ⟨members, named, rfl, names, leavesKind, leavesPositions⟩
        rw [Tree.lexemes, List.cons_append, Envelope.decoder, read]
        rfl
    | list trees =>
        rw [Tree.lexemes, List.cons_append, Envelope.decoder, Envelope.items]
        cases isMessage with
        | list isKind isTable =>
            simp only [behindBracket, laterItems, List.append_assoc, List.cons_append,
              List.nil_append]
            rw [nextItem_first (.text "a string") isKind]
            change (nextItem false Listing.decoder _ >>= _) = _
            rw [nextItem_later Listing.decodes_table isTable]
            rfl
        | bareList isKind =>
            simp only [behindBracket, laterItems, List.append_assoc, List.cons_append,
              List.nil_append]
            rw [nextItem_first (.text "a string") isKind]
            rfl
    | _ => cases isMessage
  sound {lexemes content rest} read := by
    rw [Envelope.decoder.eq_def] at read
    split at read
    · obtain ⟨⟨⟨kind, positions⟩, behind⟩, readFields, readRest⟩ := ok_of_bind read
      obtain ⟨members, named, rfl, names, leavesKind, leavesPositions⟩ :=
        envelopeFields_isPair.object_eq_ok_iff.1 readFields
      cases kind with
      | none => cases readRest
      | some kind =>
          cases readRest
          exact ⟨.object members, rfl, isMessage_object_iff.2
            ⟨named, positions, names, leavesKind, leavesPositions, rfl⟩⟩
    · obtain ⟨trees, rfl, isMessage⟩ := envelopeItems_sound read
      exact ⟨.list trees, rfl, isMessage⟩
    · cases read

/-- A payload that is refused as a whole. -/
def IsRefused (payload : List UInt8) : Prop := ∃ reason, decode payload = .error (.delivery reason)

theorem isRefused_of_no_message {payload : List UInt8}
    (noMessage : ∀ (tree : Tree) content, tree.IsSpelledBy payload → ¬tree.IsMessage content) :
    IsRefused payload := by
  rw [IsRefused, decode]
  cases read : Json.decode Envelope.decoder payload with
  | error fault => exact ⟨_, rfl⟩
  | ok content =>
      obtain ⟨tree, spelled, isMessage⟩ := (decode_eq_ok_iff decodes_message).1 read
      exact absurd isMessage (noMessage tree content spelled)

theorem decode_of_message {payload : List UInt8} {tree : Tree} {kind : String} {table : PositionTable}
    (spelled : tree.IsSpelledBy payload) (isMessage : tree.IsMessage (kind, table)) :
    decode payload = (MessageKind.parse kind).map fun known => ⟨known, table⟩ := by
  rw [decode, (decode_eq_ok_iff decodes_message).2 ⟨tree, spelled, isMessage⟩]
  cases found : MessageKind.parse kind <;> simp only [found] <;> rfl

/-- Decoding depends on what a payload says only: on the value that it spells, and on the kind and the
positions that this value gives if it is a message. -/
theorem decode_depends_on_content (payload : List UInt8) :
    (∀ tree : Tree, tree.IsSpelledBy payload →
      (∀ kind table, tree.IsMessage (kind, table) →
        decode payload =
          if kind = "ONLINE" then .ok ⟨.online, table⟩
          else if kind = "POSITION_CHANGE" then .ok ⟨.positionChange, table⟩
          else .error (.unknownMessageKind kind)) ∧
      (tree.LacksOrRepeats → IsRefused payload) ∧
      ((∀ content, ¬tree.IsMessage content) → IsRefused payload)) ∧
    ((∀ tree : Tree, ¬tree.IsSpelledBy payload) → IsRefused payload) := by
  have refused {tree : Tree} (spelled : tree.IsSpelledBy payload)
      (noMessage : ∀ content, ¬tree.IsMessage content) : IsRefused payload := by
    apply isRefused_of_no_message
    intro other content spelledOther isMessage
    rw [spelledOther.unique spelled] at isMessage
    exact noMessage content isMessage
  refine ⟨fun tree spelled => ⟨fun kind table isMessage => ?_, fun unfit => ?_, refused spelled⟩,
    fun noTree => ?_⟩
  · rw [decode_of_message spelled isMessage, MessageKind.parse, MessageKind.ofName?]
    by_cases online : kind = "ONLINE"
    · simp only [if_pos online]
      rfl
    by_cases change : kind = "POSITION_CHANGE"
    · simp only [if_neg online, if_pos change]
      rfl
    · simp only [if_neg online, if_neg change]
      rfl
  · exact refused spelled unfit.not_isMessage
  · apply isRefused_of_no_message
    intro tree content spelled
    exact absurd spelled (noTree tree)

/-- A message whose kind is spelled with escapes, with a further member and a repeated partition. -/
theorem decode_of_escaped_message :
    let payload := Utf8.encode ("\t\x7b\"note\":[-0.5E+3,\x7b\x7d],\"positions\" : [" ++
      "\x7b\"offset\":\x7b\"at\":\"1\"\x7d,\"partition\":\x7b\"p\":\"é\"\x7d\x7d ," ++
      "\x7b\"offset\":\x7b\"at\":\"2\"\x7d,\"partition\":\x7b\"p\":\"é\"\x7d\x7d]," ++
      "\"\\u006bind\":\"ONL\\u0049NE\"\x7d\r\n")
    decode payload = .ok ⟨.online, .ofList [(⟨.ofList [("p", "é")]⟩, ⟨.ofList [("at", "2")]⟩)]⟩ := by
  intro payload
  let plain (text : String) : List StringPart := text.toList.flatMap charParts
  let attributes (name value : String) : Tree := .object [(plain name, .string (plain value))]
  let entry (value : String) : Tree :=
    .object [(plain "offset", attributes "at" value), (plain "partition", attributes "p" "é")]
  let kind : List StringPart := plain "ONL" ++ .codeUnit 0x49 :: plain "NE"
  let note : Tree := .list [.number ⟨true, [0], some [5], some (false, [3])⟩, .object []]
  let positions : Tree := .list [entry "1", entry "2"]
  let members : List (List StringPart × Tree) :=
    [(plain "note", note), (plain "positions", positions), (.codeUnit 0x6B :: plain "ind", .string kind)]
  have stand (text : String) : StandFor (plain text) text.toList :=
    textOf?_eq_some_iff.1 (textOf?_written text)
  have isAttributes (name value : String) :
      (attributes name value).IsAttributes (.ofList [(name, value)]) :=
    ⟨_, .object (.cons ⟨stand name, .string (stand value)⟩ .nil), SortedMap.holdsLast_iff.2 rfl⟩
  have isEntry (value : String) :
      (entry value).IsEntry (⟨.ofList [("p", "é")]⟩, ⟨.ofList [("at", value)]⟩) := by
    have names : Named [(plain "offset", attributes "at" value), (plain "partition", attributes "p" "é")]
        [("offset", attributes "at" value), ("partition", attributes "p" "é")] :=
      .cons ⟨stand "offset", rfl⟩ (.cons ⟨stand "partition", rfl⟩ .nil)
    exact .object names rfl rfl (isAttributes "p" "é") (isAttributes "at" value)
  have isTable : positions.IsTable
      (.ofList [(⟨.ofList [("p", "é")]⟩, ⟨.ofList [("at", "2")]⟩)]) :=
    ⟨_, .list (.cons (isEntry "1") (.cons (isEntry "2") .nil)),
      SortedMap.holdsLast_iff.2 (by decide +kernel)⟩
  have isKind : (Tree.string kind).IsText "ONLINE" :=
    .string (textOf?_eq_some_iff.1 (by decide +kernel))
  have standKind : StandFor (.codeUnit 0x6B :: plain "ind") "kind".toList :=
    textOf?_eq_some_iff.1 (by decide +kernel)
  have names : Named members [("note", note), ("positions", positions), ("kind", .string kind)] :=
    .cons ⟨stand "note", rfl⟩ (.cons ⟨stand "positions", rfl⟩ (.cons ⟨standKind, rfl⟩ .nil))
  have isMessage := Tree.IsMessage.object names rfl rfl isKind isTable
  have spelled : (Tree.object members).IsSpelledBy payload := lexemes_eq_iff.1 (by decide +kernel)
  exact ((decode_depends_on_content payload).1 _ spelled).1 "ONLINE" _ isMessage

end PositionMessage

end PositionSync
