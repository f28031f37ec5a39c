import PositionSync.Json.Decoder
import PositionSync.Proofs.Json.Spelling

/-!
# The grammar of values

A value is a tree, spelled by its lexemes.  The lexemes tell where the tree ends, so that a text spells one
tree at most, and a value is skipped by taking the lexemes of exactly one tree off.
-/

namespace PositionSync.Json

/-- A value as it is spelled. The names of members are strings as they are spelled. -/
inductive Tree where
  | null
  | boolean (value : Bool)
  | number (numeral : Numeral)
  | string (parts : List StringPart)
  | list (items : List Tree)
  | object (members : List (List StringPart × Tree))

mutual

def Tree.lexemes : Tree → List Lexeme
  | .null => [.null]
  | .boolean value => [.boolean value]
  | .number numeral => [.number numeral]
  | .string parts => [.string parts]
  | .list items => .leftBracket :: behindBracket items
  | .object members => .leftBrace :: behindBrace members

/-- The items of a list behind its opening bracket. -/
def behindBracket : List Tree → List Lexeme
  | [] => [.rightBracket]
  | first :: later => first.lexemes ++ laterItems later

/-- The further items of a list, each behind a comma. -/
def laterItems : List Tree → List Lexeme
  | [] => [.rightBracket]
  | item :: later => .comma :: item.lexemes ++ laterItems later

/-- The members of an object behind its opening brace. -/
def behindBrace : List (List StringPart × Tree) → List Lexeme
  | [] => [.rightBrace]
  | (name, value) :: later => .string name :: .colon :: value.lexemes ++ laterMembers later

/-- The further members of an object, each behind a comma. -/
def laterMembers : List (List StringPart × Tree) → List Lexeme
  | [] => [.rightBrace]
  | (name, value) :: later =>
    .comma :: .string name :: .colon :: value.lexemes ++ laterMembers later

end

/-- No value begins with the end of a list, nor with what stands between values. -/
theorem Tree.exists_lexemes_eq_cons (tree : Tree) : ∃ lexeme behind, tree.lexemes = lexeme :: behind ∧
    lexeme ≠ .rightBracket := by
  cases tree <;> exact ⟨_, _, rfl, by simp⟩

/-- Items behind a comma are spelled as behind the bracket, if there are any. -/
theorem laterItems_cons (item : Tree) (later : List Tree) :
    laterItems (item :: later) = .comma :: behindBracket (item :: later) := by
  rw [laterItems, behindBracket, List.cons_append]

/-- Members behind a comma are spelled as behind the brace, if there are any. -/
theorem laterMembers_cons (member : List StringPart × Tree)
    (later : List (List StringPart × Tree)) :
    laterMembers (member :: later) = .comma :: behindBrace (member :: later) := by
  rw [laterMembers, behindBrace, List.cons_append]

theorem behindBracket_append_inj {items others : List Tree} {rest after : List Lexeme}
    (later : laterItems items ++ rest = laterItems others ++ after → items = others ∧ rest = after)
    (same : behindBracket items ++ rest = behindBracket others ++ after) :
    items = others ∧ rest = after := by
  have noEnd (item : Tree) (more : List Tree) (left right : List Lexeme) :
      behindBracket (item :: more) ++ left ≠ behindBracket [] ++ right := by
    obtain ⟨lexeme, behind, begins, noEnd⟩ := item.exists_lexemes_eq_cons
    rw [behindBracket, behindBracket, begins]
    exact fun same => noEnd (List.head_eq_of_cons_eq same)
  cases items with
  | nil =>
      cases others with
      | nil => exact later same
      | cons other others => exact absurd same.symm (noEnd other others after rest)
  | cons item items =>
      cases others with
      | nil => exact absurd same (noEnd item items rest after)
      | cons other others =>
          rw [laterItems_cons, laterItems_cons] at later
          exact later (congrArg (Lexeme.comma :: ·) same)

theorem behindBrace_append_inj {members others : List (List StringPart × Tree)}
    {rest after : List Lexeme}
    (later : laterMembers members ++ rest = laterMembers others ++ after →
      members = others ∧ rest = after)
    (same : behindBrace members ++ rest = behindBrace others ++ after) :
    members = others ∧ rest = after := by
  cases members with
  | nil =>
      cases others with
      | nil => exact later same
      | cons other others => nomatch List.head_eq_of_cons_eq same
  | cons member members =>
      cases others with
      | nil => nomatch List.head_eq_of_cons_eq same
      | cons other others =>
          rw [laterMembers_cons, laterMembers_cons] at later
          exact later (congrArg (Lexeme.comma :: ·) same)

mutual

theorem Tree.lexemes_append_inj : ∀ {tree other : Tree} {rest after : List Lexeme},
    tree.lexemes ++ rest = other.lexemes ++ after → tree = other ∧ rest = after
  | .null, other, rest, after, same => by cases other <;> simp_all [Tree.lexemes]
  | .boolean value, other, rest, after, same => by cases other <;> simp_all [Tree.lexemes]
  | .number numeral, other, rest, after, same => by cases other <;> simp_all [Tree.lexemes]
  | .string parts, other, rest, after, same => by cases other <;> simp_all [Tree.lexemes]
  | .list items, other, rest, after, same => by
      cases other with
      | list others =>
          rw [Tree.lexemes, Tree.lexemes, List.cons_append, List.cons_append] at same
          obtain ⟨rfl, rfl⟩ := behindBracket_append_inj (fun later => laterItems_append_inj later)
            (List.tail_eq_of_cons_eq same)
          exact ⟨rfl, rfl⟩
      | _ => simp [Tree.lexemes] at same
  | .object members, other, rest, after, same => by
      cases other with
      | object others =>
          rw [Tree.lexemes, Tree.lexemes, List.cons_append, List.cons_append] at same
          obtain ⟨rfl, rfl⟩ := behindBrace_append_inj (fun later => laterMembers_append_inj later)
            (List.tail_eq_of_cons_eq same)
          exact ⟨rfl, rfl⟩
      | _ => simp [Tree.lexemes] at same

theorem laterItems_append_inj : ∀ {items others : List Tree} {rest after : List Lexeme},
    laterItems items ++ rest = laterItems others ++ after → items = others ∧ rest = after
  | [], [], rest, after, same => ⟨rfl, List.tail_eq_of_cons_eq same⟩
  | [], other :: others, rest, after, same => nomatch List.head_eq_of_cons_eq same
  | item :: items, [], rest, after, same => nomatch List.head_eq_of_cons_eq same
  | item :: items, other :: others, rest, after, same => by
      rw [laterItems, laterItems, List.append_assoc, List.append_assoc] at same
      obtain ⟨rfl, sameLater⟩ := Tree.lexemes_append_inj (List.tail_eq_of_cons_eq same)
      obtain ⟨rfl, rfl⟩ := laterItems_append_inj sameLater
      exact ⟨rfl, rfl⟩

theorem laterMembers_append_inj :
    ∀ {members others : List (List StringPart × Tree)} {rest after : List Lexeme},
    laterMembers members ++ rest = laterMembers others ++ after → members = others ∧ rest = after
  | [], [], rest, after, same => ⟨rfl, List.tail_eq_of_cons_eq same⟩
  | [], (name, value) :: others, rest, after, same => nomatch List.head_eq_of_cons_eq same
  | (name, value) :: members, [], rest, after, same => nomatch List.head_eq_of_cons_eq same
  | (name, value) :: members, (otherName, otherValue) :: others, rest, after, same => by
      simp only [laterMembers, List.cons_append, List.append_assoc, List.cons.injEq, true_and,
        Lexeme.string.injEq] at same
      obtain ⟨rfl, sameLater⟩ := Tree.lexemes_append_inj same.2
      obtain ⟨rfl, rfl⟩ := laterMembers_append_inj sameLater
      exact ⟨by rw [same.1], rfl⟩

end

/-- The lexemes of a text are those of at most one tree. -/
theorem Tree.lexemes_inj {tree other : Tree} (same : tree.lexemes = other.lexemes) : tree = other :=
  (Tree.lexemes_append_inj (congrArg (· ++ []) same)).1

/-- What may follow a value, or begin a text: anything but a number. -/
def BeginsNoNumber (lexemes : List Lexeme) : Prop :=
  ∀ numeral behind, lexemes ≠ .number numeral :: behind

theorem beginsNoNumber_laterItems (items : List Tree) (rest : List Lexeme) :
    BeginsNoNumber (laterItems items ++ rest) := by
  cases items <;> exact fun numeral behind same => nomatch List.head_eq_of_cons_eq same

theorem beginsNoNumber_laterMembers (members : List (List StringPart × Tree)) (rest : List Lexeme) :
    BeginsNoNumber (laterMembers members ++ rest) := by
  cases members <;> exact fun numeral behind same => nomatch List.head_eq_of_cons_eq same

theorem isOrderly_behindBracket {items : List Tree} {rest : List Lexeme}
    (orderly : IsOrderly (laterItems items ++ rest)) : IsOrderly (behindBracket items ++ rest) := by
  cases items with
  | nil => exact orderly
  | cons item later =>
      rw [laterItems_cons] at orderly
      exact orderly

theorem isOrderly_behindBrace {members : List (List StringPart × Tree)} {rest : List Lexeme}
    (orderly : IsOrderly (laterMembers members ++ rest)) : IsOrderly (behindBrace members ++ rest) := by
  cases members with
  | nil => exact orderly
  | cons member later =>
      rw [laterMembers_cons] at orderly
      exact orderly

mutual

theorem Tree.isOrderly_append : ∀ (tree : Tree) {rest : List Lexeme}, BeginsNoNumber rest →
    IsOrderly rest → IsOrderly (tree.lexemes ++ rest)
  | .null, _, _, orderly => orderly
  | .boolean _, _, _, orderly => orderly
  | .number _, _, noNumber, orderly => ⟨noNumber, orderly⟩
  | .string _, _, _, orderly => orderly
  | .list items, _, _, orderly => isOrderly_behindBracket (isOrderly_laterItems items orderly)
  | .object members, _, _, orderly => isOrderly_behindBrace (isOrderly_laterMembers members orderly)

theorem isOrderly_laterItems : ∀ (items : List Tree) {rest : List Lexeme}, IsOrderly rest →
    IsOrderly (laterItems items ++ rest)
  | [], _, orderly => orderly
  | item :: later, rest, orderly => by
      rw [laterItems, List.cons_append, List.cons_append, List.append_assoc]
      exact item.isOrderly_append (beginsNoNumber_laterItems later rest)
        (isOrderly_laterItems later orderly)

theorem isOrderly_laterMembers : ∀ (members : List (List StringPart × Tree)) {rest : List Lexeme},
    IsOrderly rest → IsOrderly (laterMembers members ++ rest)
  | [], _, orderly => orderly
  | (name, value) :: later, rest, orderly => by
      simp only [laterMembers, List.cons_append, List.append_assoc]
      exact value.isOrderly_append (beginsNoNumber_laterMembers later rest)
        (isOrderly_laterMembers later orderly)

end

theorem Tree.isOrderly_lexemes (tree : Tree) : IsOrderly tree.lexemes := by
  have orderly : IsOrderly (tree.lexemes ++ []) := tree.isOrderly_append nofun trivial
  rwa [List.append_nil] at orderly

/-- A text spells a value, with blanks wherever they may stand. -/
def Tree.IsSpelledBy (tree : Tree) (octets : List UInt8) : Prop := Spelled tree.lexemes octets

/-- A text is cut into the lexemes of a value exactly if it spells this value. -/
theorem lexemes_eq_iff {octets : List UInt8} {tree : Tree} :
    lexemes octets = tree.lexemes ↔ tree.IsSpelledBy octets := by
  constructor
  · intro cut
    have noMalformed := tree.isOrderly_lexemes.malformed_notMem
    rw [← cut] at noMalformed
    rw [Tree.IsSpelledBy, ← cut]
    exact spelled_lexemesWithin octets.length octets (Nat.le_refl _) noMalformed
  · intro spelled
    exact Spelled.lexemesWithin_eq spelled tree.isOrderly_lexemes octets.length (Nat.le_refl _)

/-- A text spells at most one value. -/
theorem Tree.IsSpelledBy.unique {octets : List UInt8} {tree other : Tree}
    (spelled : tree.IsSpelledBy octets) (also : other.IsSpelledBy octets) : tree = other :=
  Tree.lexemes_inj ((lexemes_eq_iff.2 spelled).symm.trans (lexemes_eq_iff.2 also))

theorem skipWithin_valueOrEnd {lexeme : Lexeme} (noEnd : lexeme ≠ .rightBracket)
    (outer : List Container) (behind : List Lexeme) :
    skipWithin .valueOrEnd (.list :: outer) (lexeme :: behind) =
      skipWithin .value (.list :: outer) (lexeme :: behind) := by
  cases lexeme with
  | rightBracket => exact absurd rfl noEnd
  | _ => simp only [skipWithin]

theorem skipWithin_nameOrEnd {lexeme : Lexeme} (noEnd : lexeme ≠ .rightBrace)
    (outer : List Container) (behind : List Lexeme) :
    skipWithin .nameOrEnd (.object :: outer) (lexeme :: behind) =
      skipWithin .name (.object :: outer) (lexeme :: behind) := by
  cases lexeme with
  | rightBrace => exact absurd rfl noEnd
  | _ => simp only [skipWithin]

/-- Behind its opening bracket a list goes on as behind an item. -/
theorem skipWithin_behindBracket (items : List Tree) (outer : List Container) (rest : List Lexeme) :
    skipWithin .valueOrEnd (.list :: outer) (behindBracket items ++ rest) =
      skipWithin .continuation (.list :: outer) (laterItems items ++ rest) := by
  cases items with
  | nil => simp [behindBracket, laterItems, skipWithin]
  | cons first later =>
      obtain ⟨lexeme, behind, begins, noEnd⟩ := first.exists_lexemes_eq_cons
      rw [laterItems_cons, List.cons_append, behindBracket, begins, List.append_assoc, List.cons_append,
        skipWithin_valueOrEnd noEnd]
      simp only [skipWithin]

/-- Behind its opening brace an object goes on as behind a member. -/
theorem skipWithin_behindBrace (members : List (List StringPart × Tree)) (outer : List Container)
    (rest : List Lexeme) :
    skipWithin .nameOrEnd (.object :: outer) (behindBrace members ++ rest) =
      skipWithin .continuation (.object :: outer) (laterMembers members ++ rest) := by
  cases members with
  | nil => simp [behindBrace, laterMembers, skipWithin]
  | cons member later => simp [behindBrace, laterMembers, skipWithin]

mutual

theorem skipWithin_lexemes : ∀ (tree : Tree) (outer : List Container) (rest : List Lexeme),
    skipWithin .value outer (tree.lexemes ++ rest) = skipWithin .continuation outer rest
  | .null, outer, rest => by simp [Tree.lexemes, skipWithin]
  | .boolean value, outer, rest => by simp [Tree.lexemes, skipWithin]
  | .number numeral, outer, rest => by simp [Tree.lexemes, skipWithin]
  | .string parts, outer, rest => by simp [Tree.lexemes, skipWithin]
  | .list items, outer, rest => by
      rw [Tree.lexemes, List.cons_append, skipWithin, skipWithin_behindBracket]
      exact skipWithin_laterItems items outer rest
  | .object members, outer, rest => by
      rw [Tree.lexemes, List.cons_append, skipWithin, skipWithin_behindBrace]
      exact skipWithin_laterMembers members outer rest

theorem skipWithin_laterItems : ∀ (items : List Tree) (outer : List Container) (rest : List Lexeme),
    skipWithin .continuation (.list :: outer) (laterItems items ++ rest) =
      skipWithin .continuation outer rest
  | [], outer, rest => by simp [laterItems, skipWithin]
  | item :: later, outer, rest => by
      simp only [laterItems, List.cons_append, List.append_assoc, skipWithin]
      rw [skipWithin_lexemes item, skipWithin_laterItems]

theorem skipWithin_laterMembers : ∀ (members : List (List StringPart × Tree))
    (outer : List Container) (rest : List Lexeme),
    skipWithin .continuation (.object :: outer) (laterMembers members ++ rest) =
      skipWithin .continuation outer rest
  | [], outer, rest => by simp [laterMembers, skipWithin]
  | (name, value) :: later, outer, rest => by
      simp only [laterMembers, List.cons_append, List.append_assoc, skipWithin]
      rw [skipWithin_lexemes value, skipWithin_laterMembers]

end

/-- Where a value has been skipped there was one. -/
structure SkipsTrees (lexemes : List Lexeme) : Prop where
  value : ∀ {outer : List Container} {rest : List Lexeme},
    skipWithin .value outer lexemes = some rest → ∃ tree : Tree, ∃ behind,
      lexemes = tree.lexemes ++ behind ∧ skipWithin .continuation outer behind = some rest
  items : ∀ {outer : List Container} {rest : List Lexeme},
    skipWithin .continuation (.list :: outer) lexemes = some rest → ∃ items behind,
      lexemes = laterItems items ++ behind ∧ skipWithin .continuation outer behind = some rest
  members : ∀ {outer : List Container} {rest : List Lexeme},
    skipWithin .continuation (.object :: outer) lexemes = some rest → ∃ members behind,
      lexemes = laterMembers members ++ behind ∧ skipWithin .continuation outer behind = some rest

/-- A name has been skipped with its value and all further members of the object. -/
theorem SkipsTrees.of_name {lexemes : List Lexeme}
    (shorter : ∀ fewer : List Lexeme, fewer.length < lexemes.length → SkipsTrees fewer)
    {outer : List Container} {rest : List Lexeme}
    (skipped : skipWithin .name (.object :: outer) lexemes = some rest) :
    ∃ (name : List StringPart) (value : Tree) (later : List (List StringPart × Tree)) (behind : _),
      lexemes = .string name :: .colon :: (value.lexemes ++ (laterMembers later ++ behind)) ∧
        skipWithin .continuation outer behind = some rest := by
  rcases lexemes with _ | ⟨lexeme, tail⟩
  · simp [skipWithin] at skipped
  · cases lexeme with
    | string name =>
        rcases tail with _ | ⟨lexeme, tail⟩
        · simp [skipWithin] at skipped
        · cases lexeme with
          | colon =>
              simp only [skipWithin] at skipped
              obtain ⟨value, behindValue, rfl, skippedValue⟩ :=
                (shorter tail (Nat.lt_add_of_pos_right Nat.two_pos)).value skipped
              obtain ⟨later, behind, rfl, skippedLater⟩ :=
                (shorter behindValue (by simp only [List.length_cons, List.length_append]; omega)).members
                  skippedValue
              exact ⟨name, value, later, behind, rfl, skippedLater⟩
          | _ => simp [skipWithin] at skipped
    | _ => simp [skipWithin] at skipped

/-- A value has been skipped with all further items of the list. -/
theorem SkipsTrees.of_item {lexemes : List Lexeme}
    (shorter : ∀ fewer : List Lexeme, fewer.length ≤ lexemes.length → SkipsTrees fewer)
    {outer : List Container} {rest : List Lexeme}
    (skipped : skipWithin .value (.list :: outer) lexemes = some rest) :
    ∃ (item : Tree) (later : List Tree) (behind : _),
      lexemes = item.lexemes ++ (laterItems later ++ behind) ∧
        skipWithin .continuation outer behind = some rest := by
  obtain ⟨item, behindItem, rfl, skippedItem⟩ := (shorter lexemes (Nat.le_refl _)).value skipped
  obtain ⟨later, behind, rfl, skippedLater⟩ :=
    (shorter behindItem (by simp)).items skippedItem
  exact ⟨item, later, behind, rfl, skippedLater⟩

/-- A list has been skipped behind its opening bracket. -/
theorem SkipsTrees.of_list {lexemes : List Lexeme}
    (shorter : ∀ fewer : List Lexeme, fewer.length ≤ lexemes.length → SkipsTrees fewer)
    {outer : List Container} {rest : List Lexeme}
    (skipped : skipWithin .valueOrEnd (.list :: outer) lexemes = some rest) :
    ∃ items behind, lexemes = behindBracket items ++ behind ∧
      skipWithin .continuation outer behind = some rest := by
  rcases lexemes with _ | ⟨lexeme, tail⟩
  · simp [skipWithin] at skipped
  by_cases ends : lexeme = .rightBracket
  · subst ends
    exact ⟨[], tail, rfl, by simpa only [skipWithin] using skipped⟩
  · rw [skipWithin_valueOrEnd ends] at skipped
    obtain ⟨first, later, behind, spelled, skippedAll⟩ := SkipsTrees.of_item shorter skipped
    refine ⟨first :: later, behind, ?_, skippedAll⟩
    rw [behindBracket, spelled, List.append_assoc]

/-- An object has been skipped behind its opening brace. -/
theorem SkipsTrees.of_object {lexemes : List Lexeme}
    (shorter : ∀ fewer : List Lexeme, fewer.length < lexemes.length → SkipsTrees fewer)
    {outer : List Container} {rest : List Lexeme}
    (skipped : skipWithin .nameOrEnd (.object :: outer) lexemes = some rest) :
    ∃ members behind, lexemes = behindBrace members ++ behind ∧
      skipWithin .continuation outer behind = some rest := by
  rcases lexemes with _ | ⟨lexeme, tail⟩
  · simp [skipWithin] at skipped
  by_cases ends : lexeme = .rightBrace
  · subst ends
    exact ⟨[], tail, rfl, by simpa only [skipWithin] using skipped⟩
  · rw [skipWithin_nameOrEnd ends] at skipped
    obtain ⟨name, value, later, behind, spelled, skippedAll⟩ := SkipsTrees.of_name shorter skipped
    refine ⟨(name, value) :: later, behind, ?_, skippedAll⟩
    simp only [behindBrace, spelled, List.cons_append, List.append_assoc]

theorem skipsTrees (lexemes : List Lexeme) : SkipsTrees lexemes := by
  -- Every lexeme that is skipped leaves fewer of them, for the values inside as for those behind.
  have shorter : ∀ fewer : List Lexeme, fewer.length < lexemes.length → SkipsTrees fewer :=
    fun fewer _ => skipsTrees fewer
  rcases lexemes with _ | ⟨lexeme, tail⟩
  · constructor <;> simp [skipWithin]
  have within : ∀ fewer : List Lexeme, fewer.length ≤ tail.length → SkipsTrees fewer :=
    fun fewer isShort => shorter fewer (Nat.lt_succ_of_le isShort)
  have below : ∀ fewer : List Lexeme, fewer.length < tail.length → SkipsTrees fewer :=
    fun fewer isShort => within fewer (Nat.le_of_lt isShort)
  constructor
  · intro outer rest skipped
    cases lexeme with
    | null => exact ⟨.null, tail, rfl, by simpa only [skipWithin] using skipped⟩
    | boolean value => exact ⟨.boolean value, tail, rfl, by simpa only [skipWithin] using skipped⟩
    | number numeral => exact ⟨.number numeral, tail, rfl, by simpa only [skipWithin] using skipped⟩
    | string parts => exact ⟨.string parts, tail, rfl, by simpa only [skipWithin] using skipped⟩
    | leftBracket =>
        simp only [skipWithin] at skipped
        obtain ⟨items, behind, rfl, skippedAll⟩ := SkipsTrees.of_list within skipped
        exact ⟨.list items, behind, rfl, skippedAll⟩
    | leftBrace =>
        simp only [skipWithin] at skipped
        obtain ⟨members, behind, rfl, skippedAll⟩ := SkipsTrees.of_object below skipped
        exact ⟨.object members, behind, rfl, skippedAll⟩
    | _ => simp [skipWithin] at skipped
  · intro outer rest skipped
    cases lexeme with
    | rightBracket => exact ⟨[], tail, rfl, by simpa only [skipWithin] using skipped⟩
    | comma =>
        simp only [skipWithin] at skipped
        obtain ⟨item, later, behind, rfl, skippedAll⟩ := SkipsTrees.of_item within skipped
        refine ⟨item :: later, behind, ?_, skippedAll⟩
        simp [laterItems]
    | _ => simp [skipWithin] at skipped
  · intro outer rest skipped
    cases lexeme with
    | rightBrace => exact ⟨[], tail, rfl, by simpa only [skipWithin] using skipped⟩
    | comma =>
        simp only [skipWithin] at skipped
        obtain ⟨name, value, later, behind, rfl, skippedAll⟩ := SkipsTrees.of_name below skipped
        refine ⟨(name, value) :: later, behind, ?_, skippedAll⟩
        simp [laterMembers]
    | _ => simp [skipWithin] at skipped
termination_by lexemes.length

/-- What is skipped is a tree, and every tree is skipped. -/
theorem skip_eq_ok_iff {lexemes rest : List Lexeme} :
    skip lexemes = .ok ((), rest) ↔ ∃ tree : Tree, lexemes = tree.lexemes ++ rest := by
  rw [skip]
  constructor
  · intro skipped
    split at skipped
    · next after isAfter =>
      obtain ⟨tree, behind, spelled, ends⟩ := (skipsTrees lexemes).value isAfter
      cases skipped
      simp only [skipWithin, Option.some.injEq] at ends
      exact ⟨tree, ends ▸ spelled⟩
    · nomatch skipped
  · rintro ⟨tree, rfl⟩
    rw [skipWithin_lexemes]
    simp only [skipWithin]

end PositionSync.Json
