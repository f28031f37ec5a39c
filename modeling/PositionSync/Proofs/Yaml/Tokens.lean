import PositionSync.Proofs.Decimal.Unsigned
import PositionSync.Proofs.Yaml.Layouts

/-!
# Tokens of JSON objects

A JSON object whose members have no parts has the tokens of a mapping: those of its names and values, with
the marks of keys, values and members around them.
-/

namespace PositionSync.Yaml

/-- A JSON value without parts. -/
inductive Atom where
  | null
  | number (value : Nat)
  | text (value : String)

namespace Atom

def value : Atom → Json.Value
  | null => .null
  | number value => .number value
  | text value => .text value

def token : Atom → Token
  | null => .scalar .plain "null"
  | number value => .scalar .plain (String.ofList (Nat.toDigits 10 value))
  | text value => .scalar .doubleQuoted value

/-- Whether a text has no hidden characters. -/
def IsVisible : Atom → Prop
  | null | number _ => True
  | text value => ∀ char ∈ value.toList, isHidden char = false

end Atom

/-- The members of an object without lists and objects, as they are written. -/
def memberChars (members : List (String × Atom)) : List Char :=
  Json.compactMembers (members.map fun member => (member.1, member.2.value))

/-- The tokens of a member of an object. -/
def memberTokens (member : String × Atom) : List Token :=
  [.key, .scalar .doubleQuoted member.1, .value, member.2.token]

/-- The tokens behind a member of an object: those of the other members and of the end of the text. -/
def tailTokens : List (String × Atom) → List Token
  | [] => [.flowMappingEnd, .streamEnd]
  | member :: rest => .flowEntry :: memberTokens member ++ tailTokens rest

/-- The tokens of the members of an object and of the end of the text. -/
def objectTokens : List (String × Atom) → List Token
  | [] => [.flowMappingEnd, .streamEnd]
  | member :: rest => memberTokens member ++ tailTokens rest

/-- Whether the strings of a member can be read as they are written. The name has to be known as a key
before it is too far back. -/
structure IsReadable (member : String × Atom) : Prop where
  name : ∀ char ∈ member.1.toList, isHidden char = false
  short : octetCount (Json.string member.1) ≤ 1024
  value : member.2.IsVisible

namespace Layout

section Members

variable {cursor : Cursor} {settled final : List Token} {behind : List Char} {steps : Nat}

/-- The closing brace and the end of the text behind it. -/
theorem yields_closing {keyAllowed : Bool} (here : cursor.InLine ['\x7d']) :
    (inBraces cursor settled keyAllowed).Yields settled 2
      (settled ++ [.flowMappingEnd, .streamEnd]) := by
  have behindThem : (behindBraces (cursor.skip 1) (settled ++ [.flowMappingEnd])).Yields
      (settled ++ [.flowMappingEnd]) 1 (settled ++ [.flowMappingEnd] ++ [.streamEnd]) :=
    settles_behindBraces.yields (List.prefix_append _ _) List.prefix_rfl
      (fun _ _ within free => advance?_end here.skip_one within free)
      (fun _ _ => rfl) fun released _ _ _ => yields_atEnd _ released
  rw [List.append_assoc] at behindThem
  exact (settles_inBraces keyAllowed).yields (List.prefix_append _ _) (List.prefix_append _ _)
    (fun _ _ within free => advance?_closing here within free) (fun _ _ => rfl) behindThem

/-- A name and the colon behind it. -/
theorem yields_name {name : String} (here : cursor.InLine (Json.string name ++ ':' :: behind))
    (visible : ∀ char ∈ name.toList, isHidden char = false)
    (short : octetCount (Json.string name) ≤ 1024) (isPrefix : settled <+: final)
    (yields : (inBraces ((cursor.skip (Json.string name).length).skip 1)
      (settled ++ [.key, .scalar .doubleQuoted name, .value]) false).Yields
        (settled ++ [.key, .scalar .doubleQuoted name, .value]) steps final) :
    (inBraces cursor settled true).Yields settled (steps + 2) final := by
  have behindIt := here.skip
  let candidate : KeyCandidate := ⟨settled.length, cursor.index, cursor.line, cursor.column, false⟩
  have fresh : isStale (cursor.skip (Json.string name).length) candidate = false := by
    rw [Cursor.skip_eq here.stands]
    simp [isStale, candidate, short]
  have atColon : (behindName (cursor.skip (Json.string name).length) settled
      (.scalar .doubleQuoted name) candidate).Yields settled (steps + 1) final :=
    (settles_behindName rfl rfl fresh).yields isPrefix (List.prefix_append _ _)
      (fun _ _ within free => advance?_colon behindIt rfl rfl fresh within free) (fun _ _ => rfl)
      yields
  exact (settles_inBraces true).yields isPrefix List.prefix_rfl
    (fun _ _ within free => advance?_name here visible within free) (fun _ _ => rfl) atColon

theorem yields_atom {atom : Atom} {ending : Char}
    (here : cursor.InLine (atom.value.compactChars ++ ending :: behind)) (visible : atom.IsVisible)
    (ends : endsInFlow ending = true) (isPrefix : settled <+: final)
    (yields : (inBraces (cursor.skip atom.value.compactChars.length) (settled ++ [atom.token])
      false).Yields (settled ++ [atom.token]) steps final) :
    (inBraces cursor settled false).Yields settled (steps + 1) final := by
  refine (settles_inBraces false).yields isPrefix (List.prefix_append _ _)
    (fun released brace within free => ?_) (fun _ _ => rfl) yields
  cases atom with
  | null =>
      exact advance?_word here (List.all_eq_true.1 (by decide)) (by decide) ends within free
  | number value =>
      have digits (char : Char) (member : char ∈ Nat.toDigits 10 value) :
          char.isAlphanum = true := by
        rw [Char.isAlphanum, Decimal.isDigit_of_mem_toDigits member, Bool.or_true]
      exact advance?_word here digits Nat.toDigits_ne_nil ends within free
  | text value => exact advance?_text here visible within free

/-- A member leads to the character behind it. -/
theorem yields_member {member : String × Atom} {ending : Char} (readable : IsReadable member)
    (here : cursor.InLine
      (Json.string member.1 ++ ':' :: member.2.value.compactChars ++ ending :: behind))
    (ends : endsInFlow ending = true) :
    ∃ after : Cursor, after.InLine (ending :: behind) ∧
      ∀ {settled final : List Token} {steps : Nat},
      (inBraces after (settled ++ memberTokens member) false).Yields
        (settled ++ memberTokens member) steps final →
      settled ++ memberTokens member <+: final →
      (inBraces cursor settled true).Yields settled (steps + 3) final := by
  rw [List.append_assoc] at here
  have atValue := here.skip.skip_one
  refine ⟨_, atValue.skip, fun {settled final steps} yields isPrefix => ?_⟩
  have split : settled ++ memberTokens member =
      settled ++ [.key, .scalar .doubleQuoted member.1, .value] ++ [member.2.token] := by
    simp [memberTokens]
  rw [split] at yields isPrefix
  have before := (List.prefix_append _ _).trans isPrefix
  exact yields_name here readable.name readable.short ((List.prefix_append _ _).trans before)
    (yields_atom atValue readable.value ends before yields)

/-- The members of an object up to the end of the text. -/
theorem yields_members (members : List (String × Atom))
    (readable : ∀ member ∈ members, IsReadable member)
    (here : cursor.InLine (memberChars members)) :
    (inBraces cursor settled true).Yields settled (4 * members.length + 2)
      (settled ++ objectTokens members) := by
  induction members generalizing cursor settled with
  | nil => exact yields_closing here
  | cons member members ih =>
      obtain ⟨readableHere, readableLater⟩ := List.forall_mem_cons.1 readable
      -- What follows a member, a comma or the closing brace, also ends a plain value.
      cases members with
      | nil =>
          obtain ⟨after, closes, leads⟩ := yields_member readableHere here (by decide)
          have yields : (inBraces cursor settled true).Yields settled _
              (settled ++ memberTokens member ++ [.flowMappingEnd, .streamEnd]) :=
            leads (yields_closing closes) (List.prefix_append _ _)
          rw [List.append_assoc] at yields
          exact yields.mono (by simp)
      | cons next members =>
          obtain ⟨after, parts, leads⟩ := yields_member readableHere here (by decide)
          have yields : (inBraces cursor settled true).Yields settled _
              (settled ++ memberTokens member ++ [.flowEntry] ++ objectTokens (next :: members)) :=
            leads ((settles_inBraces false).yields (by simp) (List.prefix_append _ _)
              (fun _ _ within free => advance?_comma parts within free) (fun _ _ => rfl)
              (ih readableLater parts.skip_one))
              (by simp)
          rw [List.append_assoc, List.append_assoc] at yields
          exact yields.mono (by simp; omega)

end Members

theorem atMarker_of_ne {char first : Char} (differs : first ≠ char) (rest : List Char) :
    atMarker char (first :: rest) = false := by
  unfold atMarker
  split
  · next same =>
    obtain ⟨rfl, -⟩ := List.cons.inj same
    simp [differs]
  · rfl

/-- The opening brace at the beginning of a text. -/
theorem advance?_opening {behind : List Char}
    (allowed : ∀ char ∈ '\x7b' :: behind, isAllowed char = true) :
    (start ('\x7b' :: behind)).advance? =
      some (inBraces ⟨behind, 1, 0, 1⟩ [.flowMappingStart] true 0 (some ⟨0, 0, 0, 0, false⟩)) := by
  have begins : start ('\x7b' :: behind) =
      ⟨.start ('\x7b' :: behind), false, [], 0, -1, [], true, 0, none, [], false⟩ := by
    rw [start, readablePart_eq allowed]
  rw [begins]
  refine advance?_eq (skipSpace_eq rfl (by unfold IsSolid; decide))
    (dropAllStale?_eq (by simp) (by simp)) rfl ?_ ⟨rfl, rfl⟩
  unfold takeToken?
  simp [Cursor.start, atMarker_of_ne, takeOpening?, markCandidate?, dropCandidate?, recent, inFlow,
    column, take, add, inBraces, Cursor.skip]
  rfl

end Layout

section Text

variable {members : List (String × Atom)}

theorem isAllowed_of_mem_string {text : String} (visible : ∀ char ∈ text.toList, isHidden char = false)
    {char : Char} (member : char ∈ Json.string text) : isAllowed char = true := by
  simp only [Json.string, List.cons_append, List.mem_cons, List.mem_append, List.mem_flatMap,
    List.not_mem_nil, or_false] at member
  rcases member with rfl | ⟨spelled, isIn, member⟩ | rfl
  · decide
  · exact isAllowed_escapeChar (visible spelled isIn) member
  · decide

theorem isAllowed_of_mem_atom {atom : Atom} (visible : atom.IsVisible) {char : Char}
    (member : char ∈ atom.value.compactChars) : isAllowed char = true := by
  cases atom with
  | null =>
      have allowed : Atom.null.value.compactChars.all isAllowed = true := by decide
      exact List.all_eq_true.1 allowed char member
  | number value =>
      have isDigit := Decimal.isDigit_of_mem_toDigits member
      simp only [Char.isDigit, ge_iff_le, UInt32.le_iff_toNat_le, Bool.and_eq_true,
        decide_eq_true_eq] at isDigit
      have bounds : 0x20 ≤ char.toNat ∧ char.toNat ≤ 0x7E := by
        simp only [Char.toNat]
        exact ⟨Nat.le_trans (by decide) isDigit.1, Nat.le_trans isDigit.2 (by decide)⟩
      simp [isAllowed, bounds]
  | text value => exact isAllowed_of_mem_string visible member

theorem isAllowed_of_mem_memberChars (readable : ∀ member ∈ members, IsReadable member) :
    ∀ char ∈ memberChars members, isAllowed char = true := by
  induction members with
  | nil => exact List.all_eq_true.1 (by decide)
  | cons member members ih =>
      obtain ⟨readableHere, readableLater⟩ := List.forall_mem_cons.1 readable
      have here (ending : List Char) (allowed : ∀ char ∈ ending, isAllowed char = true) :
          ∀ char ∈ Json.string member.1 ++ ':' :: member.2.value.compactChars ++ ending,
            isAllowed char = true := by
        intro char member
        simp only [List.mem_append, List.mem_cons] at member
        rcases member with (name | rfl | value) | behind
        · exact isAllowed_of_mem_string readableHere.name name
        · decide
        · exact isAllowed_of_mem_atom readableHere.value value
        · exact allowed char behind
      cases members with
      | nil => exact here _ (List.all_eq_true.1 (by decide))
      | cons next members => exact here _ (List.forall_mem_cons.2 ⟨by decide, ih readableLater⟩)

theorem length_memberChars (members : List (String × Atom)) :
    2 * members.length < (memberChars members).length := by
  induction members with
  | nil => decide
  | cons member members ih =>
      have quotes : 2 ≤ (Json.string member.1).length := by simp [Json.string]
      cases members with
      | nil =>
          have chars : memberChars [member] =
              Json.string member.1 ++ ':' :: member.2.value.compactChars ++ ['\x7d'] := rfl
          simp [chars]
          omega
      | cons next members =>
          have chars : memberChars (member :: next :: members) = Json.string member.1 ++
              ':' :: member.2.value.compactChars ++ ',' :: memberChars (next :: members) := rfl
          simp [chars] at ih ⊢
          omega

theorem length_objectTokens (members : List (String × Atom)) :
    5 * members.length + 1 ≤ (objectTokens members).length ∧
      (objectTokens members).length ≤ 5 * members.length + 2 := by
  have tail (rest : List (String × Atom)) : (tailTokens rest).length = 5 * rest.length + 2 := by
    induction rest with
    | nil => rfl
    | cons member rest ih =>
        simp [tailTokens, memberTokens, ih]
        omega
  cases members with
  | nil => simp [objectTokens]
  | cons member members =>
      simp [objectTokens, memberTokens, tail]
      omega

end Text

/-- A JSON object of readable members has the tokens of a mapping of scalars. -/
theorem tokens_object {members : List (String × Atom)}
    (readable : ∀ member ∈ members, IsReadable member) :
    tokens ('\x7b' :: memberChars members) = .flowMappingStart :: objectTokens members := by
  have allowed : ∀ char ∈ '\x7b' :: memberChars members, isAllowed char = true :=
    List.forall_mem_cons.2 ⟨by decide, isAllowed_of_mem_memberChars readable⟩
  let layout := Layout.inBraces ⟨memberChars members, 1, 0, 1⟩ [.flowMappingStart] true 0
    (some ⟨0, 0, 0, 0, false⟩)
  have yields : layout.Yields _ ([.flowMappingStart] ++ objectTokens members) :=
    Layout.yields_members members readable ⟨rfl, Nat.one_ne_zero⟩ _ _ (by simp) (by simp)
  have begins : Layout.start ('\x7b' :: memberChars members) =
      ⟨.start ('\x7b' :: memberChars members), false, [], 0, -1, [], true, 0, none, [], false⟩ := by
    rw [Layout.start, readablePart_eq allowed]
  have waits : (Layout.start ('\x7b' :: memberChars members)).waiting = [] := by rw [begins]
  have goesOn : (Layout.start ('\x7b' :: memberChars members)).ended = false := by rw [begins]
  rw [tokens, Layout.tokensWithin]
  simp only [waits, goesOn, Layout.advance?_opening allowed]
  have chars := length_memberChars members
  have count := (length_objectTokens members).2
  refine (yields _ ?_).trans rfl
  simp [layout, Layout.inBraces]
  omega

end PositionSync.Yaml
