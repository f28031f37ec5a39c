import PositionSync.Proofs.Yaml.Tokens
import PositionSync.Yaml.Record

/-!
# Nodes of JSON objects

A JSON object whose members have no parts is told as one document with one mapping: the scalars of its
names and values in turn, and nothing else.
-/

namespace PositionSync.Yaml

/-- What an atom is in a document. -/
def Atom.scalar : Atom → Scalar
  | null => ⟨.plain, none, "null"⟩
  | number value => ⟨.plain, none, String.ofList (Nat.toDigits 10 value)⟩
  | text value => ⟨.doubleQuoted, none, value⟩

/-- The scalars of a member: its name and its value. -/
def memberScalars (member : String × Atom) : List Scalar :=
  [⟨.doubleQuoted, none, member.1⟩, member.2.scalar]

/-- The nodes of an object. -/
def objectNodes (members : List (String × Atom)) : List Node :=
  .mappingStart :: (members.flatMap memberScalars).map .scalar ++ [.mappingEnd]

namespace Reader

theorem eventsWithin_succ {reader after : Reader} {event : Event}
    (next : reader.next = some (event, after)) (goesOn : event ≠ .streamEnd) (fuel : Nat) :
    eventsWithin (fuel + 1) reader = event :: eventsWithin fuel after := by
  rw [eventsWithin, next]
  cases event <;> first | rfl | exact absurd rfl goesOn

/-- What a reader of an object expects behind one of its members. -/
def behindMember (tokens : List Token) (expected : Expectation) : Reader :=
  ⟨tokens, expected, [.documentEnd], standardHandles⟩

/-- The events of an object behind its opening brace. -/
def memberEvents (members : List (String × Atom)) : List Event :=
  (members.flatMap memberScalars).map (.scalar none) ++ [.mappingEnd, .documentEnd, .streamEnd]

/-- A name with its value. In front of all members but the first one there is a comma. -/
theorem eventsWithin_member (first : Bool) (member : String × Atom) (rest : List Token)
    (fuel : Nat) :
    eventsWithin (fuel + 2) (behindMember ((if first then [] else [.flowEntry]) ++
        memberTokens member ++ rest) (.flowMappingKey first)) =
      (memberScalars member).map (.scalar none) ++
        eventsWithin fuel (behindMember rest (.flowMappingKey false)) := by
  have name : (behindMember ((if first then [] else [.flowEntry]) ++ memberTokens member ++ rest)
      (.flowMappingKey first)).next =
        some (.scalar none ⟨.doubleQuoted, none, member.1⟩,
          behindMember (.value :: member.2.token :: rest) .flowMappingValue) := by
    cases first <;> rfl
  have value : (behindMember (.value :: member.2.token :: rest) .flowMappingValue).next =
      some (.scalar none member.2.scalar, behindMember rest (.flowMappingKey false)) := by
    cases member.2 <;> rfl
  rw [eventsWithin_succ name nofun, eventsWithin_succ value nofun]
  rfl

theorem eventsWithin_tail (rest : List (String × Atom)) (fuel : Nat) :
    eventsWithin (fuel + 2 * rest.length + 3)
        (behindMember (tailTokens rest) (.flowMappingKey false)) = memberEvents rest := by
  induction rest generalizing fuel with
  | nil => rfl
  | cons member rest ih =>
      have tokens : tailTokens (member :: rest) =
          (if false then [] else [.flowEntry]) ++ memberTokens member ++ tailTokens rest := rfl
      have more : fuel + 2 * (member :: rest).length + 3 = fuel + 2 * rest.length + 3 + 2 := by
        rw [List.length_cons]
        omega
      rw [tokens, more, eventsWithin_member, ih]
      simp [memberEvents]

theorem eventsWithin_object (members : List (String × Atom)) (fuel : Nat) :
    eventsWithin (fuel + 2 * members.length + 5)
        ⟨.flowMappingStart :: objectTokens members, .firstDocument, [], []⟩ =
      .documentStart :: .mappingStart none :: memberEvents members := by
  have opens : (Reader.mk (.flowMappingStart :: objectTokens members) .firstDocument [] []).next =
      some (.documentStart, behindMember (.flowMappingStart :: objectTokens members) .blockNode) := rfl
  have enters : (behindMember (.flowMappingStart :: objectTokens members) .blockNode).next =
      some (.mappingStart none, behindMember (objectTokens members) (.flowMappingKey true)) := rfl
  rw [eventsWithin_succ opens nofun, eventsWithin_succ enters nofun]
  cases members with
  | nil => rfl
  | cons member rest =>
      have tokens : objectTokens (member :: rest) =
          (if true then [] else [.flowEntry]) ++ memberTokens member ++ tailTokens rest := rfl
      have more : fuel + 2 * (member :: rest).length + 3 = fuel + 2 * rest.length + 3 + 2 := by
        rw [List.length_cons]
        omega
      rw [tokens, more, eventsWithin_member, eventsWithin_tail]
      simp [memberEvents]

end Reader

theorem events_object {members : List (String × Atom)}
    (readable : ∀ member ∈ members, IsReadable member) :
    events ('\x7b' :: memberChars members) =
      .documentStart :: .mappingStart none :: Reader.memberEvents members := by
  have count := (length_objectTokens members).1
  have enough : 2 * members.length + 5 ≤
      4 * (Token.flowMappingStart :: objectTokens members).length + 8 := by
    rw [List.length_cons]
    omega
  obtain ⟨fuel, length⟩ := Nat.exists_eq_add_of_le' enough
  rw [events, tokens_object readable]
  simp only [length]
  exact Reader.eventsWithin_object members fuel

namespace Anchored

theorem read_scalars (scalars : List Scalar) (parts : List Numbered) (rest : List Event) :
    Anchored.read ⟨parts, [], []⟩ (scalars.map (.scalar none) ++ rest) =
      Anchored.read ⟨(scalars.map fun scalar => .node (.scalar scalar)).reverse ++ parts, [], []⟩
        rest := by
  induction scalars generalizing parts with
  | nil => rfl
  | cons scalar scalars ih =>
      rw [List.map_cons, List.cons_append, read, add]
      simp [ih]

end Anchored

/-- The document of an object without lists and objects. -/
theorem firstDocument_object {members : List (String × Atom)}
    (readable : ∀ member ∈ members, IsReadable member) :
    firstDocument ('\x7b' :: memberChars members) = (objectNodes members, true) := by
  rw [firstDocument, events_object readable, Reader.memberEvents]
  simp only [Anchored.read, Anchored.add]
  rw [Anchored.read_scalars]
  simp [Anchored.read, Anchored.add, Anchored.nodes, Anchored.resolve, objectNodes]

end PositionSync.Yaml
