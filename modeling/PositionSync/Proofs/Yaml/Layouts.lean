import PositionSync.Proofs.Yaml.Scalars
import PositionSync.Yaml.Layout

/-!
# Layouts between braces

The members of a JSON object stand on one line between braces. There a string is a candidate for a key
until the character behind it has been read, and the opening brace itself is one as long as it is not too
far back. When tokens are handed out depends on these candidates; which tokens there are does not.
-/

namespace PositionSync.Yaml

namespace Layout

/-- Whether a character neither is space nor begins a comment. -/
def IsSolid (char : Char) : Prop :=
  char ≠ ' ' ∧ char ≠ '\t' ∧ char ≠ '#' ∧ char ≠ '\uFEFF' ∧ isBreak char = false

instance (char : Char) : Decidable (IsSolid char) := inferInstanceAs (Decidable (_ ∧ _))

theorem skipSpace_eq {layout : Layout} {char : Char} {behind : List Char}
    (stands : layout.cursor.rest = char :: behind) (solid : IsSolid char) :
    layout.skipSpace = layout := by
  obtain ⟨noSpace, noTab, noComment, noMark, noBreak⟩ := solid
  have noComment : layout.cursor.skipComment = layout.cursor := by
    unfold Cursor.skipComment
    split
    · next rest begins =>
      rw [stands] at begins
      exact absurd (List.cons.inj begins).1 noComment
    · rfl
  rw [skipSpace, stands, skipSpaceWithin]
  simp [stands, noSpace, noTab, noMark, noBreak, Cursor.skipWhile, Cursor.skip, noComment]

/-- The next token where no space has to be passed and no block ends. -/
theorem advance?_eq {layout current next : Layout} (stands : layout.skipSpace = layout)
    (drops : layout.dropAllStale? = some current) (noBlocks : current.enclosing = [])
    (takes : current.takeToken? = some next)
    (whole : current.broken = false ∧ next.broken = false) : layout.advance? = some next := by
  have closes : current.closeBlocks current.column = current := by
    rw [closeBlocks, noBlocks]
    split <;> rfl
  simp [advance?, stands, drops, closes, takes, sees, whole]

/-- A candidate that is still recent enough. -/
def recent (cursor : Cursor) (candidate : Option KeyCandidate) : Option KeyCandidate :=
  candidate.filter fun candidate => !isStale cursor candidate

/-- Layouts that differ only in how many tokens have been handed out, and in the candidate that the
opening brace is. -/
abbrev Stage := Nat → Option KeyCandidate → Layout

/-- What all layouts of a stage have in common: the tokens in front of those that wait for a key mark
are settled, and only a candidate can keep them from being handed out. -/
structure Stage.Settles (stage : Stage) (settled pending : List Token) : Prop where
  released (released : Nat) (brace : Option KeyCandidate) : (stage released brace).released = released
  waiting (released : Nat) (brace : Option KeyCandidate) :
    (stage released brace).waiting = settled.drop released ++ pending
  goesOn (released : Nat) (brace : Option KeyCandidate) : (stage released brace).ended = false
  plain (released : Nat) (brace : Option KeyCandidate) :
    (stage released brace).enclosing = [] ∧ (stage released brace).broken = false
  drops (released : Nat) {brace : Option KeyCandidate}
    (free : ∀ candidate ∈ brace, candidate.required = false) :
    (stage released brace).dropAllStale? =
      some (stage released (recent (stage released brace).cursor brace))
  release (released : Nat) (brace : Option KeyCandidate) :
    { stage released brace with
      waiting := settled.drop (released + 1) ++ pending, released := released + 1 } =
      stage (released + 1) brace
  held (brace : Option KeyCandidate) :
    pending = [] ∨ (stage settled.length brace).isHeld = true

/-- The tokens from a layout on: those of `final` that have not been handed out. Besides handing them
out no more than `steps` steps are made. -/
def Yields (layout : Layout) (steps : Nat) (final : List Token) : Prop :=
  ∀ fuel, steps + (final.length - layout.released) < fuel →
    layout.tokensWithin fuel = final.drop layout.released

theorem free_of_recent (cursor : Cursor) {brace : Option KeyCandidate}
    (free : ∀ candidate ∈ brace, candidate.required = false) :
    ∀ candidate ∈ recent cursor brace, candidate.required = false := by
  intro candidate member
  exact free candidate (Option.mem_filter_iff.1 member).1

section Settles

variable {stage : Stage} {settled pending final : List Token}

/-- The first token that waits is settled unless it is held back. -/
theorem Stage.Settles.waiting_eq_cons (settles : stage.Settles settled pending) {released : Nat}
    {brace : Option KeyCandidate} (inside : released ≤ settled.length) {token : Token}
    {others : List Token} (waits : (stage released brace).waiting = token :: others)
    (notHeld : (stage released brace).isHeld = false) :
    released < settled.length ∧ settled.drop released = token :: settled.drop (released + 1) ∧
      others = settled.drop (released + 1) ++ pending := by
  rw [settles.waiting] at waits
  have below : released < settled.length := by
    refine Nat.lt_of_le_of_ne inside ?_
    rintro rfl
    rcases settles.held brace with nothing | held
    · simp [nothing] at waits
    · rw [held] at notHeld
      cases notHeld
  rw [List.drop_eq_getElem_cons below, List.cons_append] at waits
  obtain ⟨rfl, rfl⟩ := List.cons.inj waits
  exact ⟨below, List.drop_eq_getElem_cons below, rfl⟩

/-- What the layouts of a stage yield, as long as no token that may change has been handed out. -/
def Stage.Yields (stage : Stage) (settled : List Token) (steps : Nat) (final : List Token) : Prop :=
  ∀ released brace, released ≤ settled.length →
    (∀ candidate ∈ brace, candidate.required = false) → (stage released brace).Yields steps final

theorem Stage.Yields.mono {steps more : Nat} (yields : stage.Yields settled steps final)
    (fewer : steps ≤ more) : stage.Yields settled more final :=
  fun released brace inside free fuel enough => yields released brace inside free fuel (by omega)

/-- A stage hands settled tokens out or goes on to the next one, in whatever order. -/
theorem Stage.Settles.yields (settles : stage.Settles settled pending) (isPrefix : settled <+: final)
    {next : Stage} {later : List Token} {steps : Nat} (grows : settled <+: later)
    (advances : ∀ released brace, released ≤ settled.length →
      (∀ candidate ∈ brace, candidate.required = false) →
      (stage released brace).advance? =
        some (next released (recent (stage released brace).cursor brace)))
    (same : ∀ released brace, (next released brace).released = released)
    (yields : next.Yields later steps final) : stage.Yields settled (steps + 1) final := by
  intro released brace inside free fuel enough
  rw [settles.released] at enough ⊢
  have fits : settled.length ≤ final.length := isPrefix.length_le
  -- A token that is handed out leaves the stage as it is, so the induction is on the fuel, not on the
  -- text.
  induction fuel generalizing released brace with
  | zero => omega
  | succ fuel ih =>
      have goesOn {brace : Option KeyCandidate}
          (free : ∀ candidate ∈ brace, candidate.required = false) :
          ∃ after, (stage released brace).advance? = some after ∧
            after.tokensWithin fuel = final.drop released := by
        refine ⟨_, advances released brace inside free, ?_⟩
        rw [yields released _ (Nat.le_trans inside grows.length_le) (free_of_recent _ free) fuel
          (by rw [same]; omega), same]
      rw [tokensWithin]
      split
      · rw [settles.goesOn, if_neg (by simp)]
        obtain ⟨after, advance, yields⟩ := goesOn free
        rw [advance]
        exact yields
      · next token others waits =>
        have drops := settles.drops released free
        have freeNow := free_of_recent (stage released brace).cursor free
        generalize recent (stage released brace).cursor brace = now at drops freeNow
        rw [drops]
        simp only
        split
        · obtain ⟨after, advance, yields⟩ := goesOn freeNow
          rw [advance]
          exact yields
        · next notHeld =>
          have waitsNow : (stage released now).waiting = token :: others := by
            rw [settles.waiting, ← settles.waiting released brace, waits]
          obtain ⟨below, head, rfl⟩ :=
            settles.waiting_eq_cons inside waitsNow (Bool.eq_false_iff.2 notHeld)
          rw [settles.released, settles.release, ih _ _ (by omega) freeNow (by omega)]
          obtain ⟨last, rfl⟩ := isPrefix
          rw [List.drop_append_of_le_length inside, head,
            List.drop_append_of_le_length (Nat.succ_le_of_lt below), List.cons_append]

end Settles

/-- Inside the braces, in front of a name or behind a colon or a value. -/
def inBraces (cursor : Cursor) (settled : List Token) (keyAllowed : Bool) : Stage :=
  fun released brace => ⟨cursor, false, settled.drop released, released, -1, [], keyAllowed, 1, none,
    brace.toList.map fun candidate => (0, candidate), false⟩

/-- Inside the braces behind a name, which still may turn out to be a key. -/
def behindName (cursor : Cursor) (settled : List Token) (name : Token) (candidate : KeyCandidate) :
    Stage :=
  fun released brace => ⟨cursor, false, settled.drop released ++ [name], released, -1, [], false, 1,
    some candidate, brace.toList.map fun candidate => (0, candidate), false⟩

/-- Behind the closing brace. -/
def behindBraces (cursor : Cursor) (settled : List Token) : Stage :=
  fun released brace =>
    ⟨cursor, false, settled.drop released, released, -1, [], false, 0, brace, [], false⟩

section Stages

variable {cursor : Cursor} {settled : List Token} {brace : Option KeyCandidate}

/-- Candidates that are not required may be given up. -/
theorem dropAllStale?_eq {layout : Layout}
    (free : ∀ candidate ∈ layout.candidate, candidate.required = false)
    (outerFree : ∀ entry ∈ layout.outerCandidates, entry.2.required = false) :
    layout.dropAllStale? = some { layout with
      candidate := recent layout.cursor layout.candidate
      outerCandidates :=
        layout.outerCandidates.filter fun entry => !isStale layout.cursor entry.2 } := by
  have noCandidate : (layout.candidate.any fun candidate =>
      isStale layout.cursor candidate && candidate.required) = false := by
    cases held : layout.candidate with
    | none => rfl
    | some candidate => simp [free candidate held]
  have noOuter : (layout.outerCandidates.any fun entry =>
      isStale layout.cursor entry.2 && entry.2.required) = false := by
    simpa using fun depth candidate member _ => outerFree (depth, candidate) member
  simp [dropAllStale?, noCandidate, noOuter, recent]

theorem free_outer (free : ∀ candidate ∈ brace, candidate.required = false) :
    ∀ entry ∈ brace.toList.map fun candidate => ((0 : Nat), candidate),
      entry.2.required = false := by
  cases brace with
  | none => simp
  | some candidate => simpa using free

theorem filter_outer : (brace.toList.map fun candidate => ((0 : Nat), candidate)).filter
    (fun entry => !isStale cursor entry.2) =
      (recent cursor brace).toList.map fun candidate => (0, candidate) := by
  cases brace with
  | none => rfl
  | some candidate =>
      cases stale : isStale cursor candidate <;> simp [recent, Option.filter, stale]

theorem settles_inBraces (keyAllowed : Bool) :
    (inBraces cursor settled keyAllowed).Settles settled [] where
  released _ _ := rfl
  waiting _ _ := (List.append_nil _).symm
  goesOn _ _ := rfl
  plain _ _ := ⟨rfl, rfl⟩
  drops _ _ free := by
    rw [dropAllStale?_eq (by simp [inBraces]) (free_outer free)]
    simp [inBraces, recent, filter_outer]
  release _ _ := by simp [inBraces]
  held _ := .inl rfl

theorem settles_behindName {name : Token} {candidate : KeyCandidate}
    (isNext : candidate.number = settled.length) (free : candidate.required = false)
    (fresh : isStale cursor candidate = false) :
    (behindName cursor settled name candidate).Settles settled [name] where
  released _ _ := rfl
  waiting _ _ := rfl
  goesOn _ _ := rfl
  plain _ _ := ⟨rfl, rfl⟩
  drops _ _ outerFree := by
    rw [dropAllStale?_eq (by simp [behindName, free]) (free_outer outerFree)]
    simp [behindName, recent, filter_outer, fresh]
  release _ _ := rfl
  held _ := .inr (by simp [behindName, isHeld, isNext])

theorem settles_behindBraces : (behindBraces cursor settled).Settles settled [] where
  released _ _ := rfl
  waiting _ _ := (List.append_nil _).symm
  goesOn _ _ := rfl
  plain _ _ := ⟨rfl, rfl⟩
  drops _ _ free := dropAllStale?_eq free (by simp [behindBraces])
  release _ _ := by simp [behindBraces]
  held _ := .inl rfl

end Stages

theorem insertIdx_append {α : Type} (front back : List α) (item : α) :
    (front ++ back).insertIdx front.length item = front ++ item :: back := by
  induction front with
  | nil => simp
  | cons first front ih => simp [ih]

section Dispatch

variable {layout : Layout} {behind : List Char}

theorem takeToken?_quote (here : layout.cursor.InLine ('"' :: behind)) :
    layout.takeToken? = layout.takeQuoted? false := by
  unfold takeToken?
  simp [here.stands, here.inside]

theorem takeToken?_colon (here : layout.cursor.InLine (':' :: behind))
    (inFlow : layout.inFlow = true) :
    layout.takeToken? = layout.takeColon? := by
  unfold takeToken?
  simp [here.stands, here.inside, inFlow]

theorem takeToken?_comma (here : layout.cursor.InLine (',' :: behind)) :
    layout.takeToken? = layout.takeComma? := by
  unfold takeToken?
  simp [here.stands, here.inside]

theorem takeToken?_closing (here : layout.cursor.InLine ('\x7d' :: behind)) :
    layout.takeToken? = layout.takeClosing? .flowMappingEnd := by
  unfold takeToken?
  simp [here.stands, here.inside]

theorem isWordChar_of_isAlphanum {char : Char} (alphanumeric : char.isAlphanum = true) :
    isWordChar char = true := by
  have ranges : (decide ('A' ≤ char ∧ char ≤ 'Z') || ('a' ≤ char && char ≤ 'z') ||
      ('0' ≤ char && char ≤ '9')) = true := alphanumeric
  simp only [isWordChar, Bool.or_eq_true, Bool.and_eq_true, decide_eq_true_eq] at ranges ⊢
  rcases ranges with (upper | lower) | digit
  · exact .inl (.inl (.inl (.inr upper)))
  · exact .inl (.inl (.inr lower))
  · exact .inl (.inl (.inl (.inl digit)))

theorem isSolid_of_isAlphanum {char : Char} (alphanumeric : char.isAlphanum = true) :
    IsSolid char := by
  refine ⟨?_, ?_, ?_, ?_, (plain_of_isWordChar (isWordChar_of_isAlphanum alphanumeric)).2.1⟩
  all_goals
    rintro rfl
    cases alphanumeric

/-- Where a word begins, a plain scalar does. -/
theorem takeToken?_word {char : Char} (here : layout.cursor.InLine (char :: behind))
    (alphanumeric : char.isAlphanum = true) :
    layout.takeToken? = layout.takePlain? := by
  have differs (other : Char) (noWord : other.isAlphanum = false) : char ≠ other := by
    rintro rfl
    rw [alphanumeric] at noWord
    cases noWord
  have plain : beginsPlain layout.inFlow (char :: behind) = true := by
    simp (disch := decide) [beginsPlain, atSpace, isBlank, isBreak, differs]
  unfold takeToken?
  simp (disch := decide) [here.stands, here.inside, differs, plain]

end Dispatch

/-- How a stage goes on to the next token. -/
theorem Stage.Settles.advance?_eq {stage : Stage} {settled pending : List Token}
    (settles : stage.Settles settled pending) {released : Nat} {brace : Option KeyCandidate}
    {next : Layout} (stands : (stage released brace).skipSpace = stage released brace)
    (free : ∀ candidate ∈ brace, candidate.required = false)
    (takes : (stage released (recent (stage released brace).cursor brace)).takeToken? = some next)
    (whole : next.broken = false) : (stage released brace).advance? = some next :=
  Layout.advance?_eq stands (settles.drops released free) (settles.plain _ _).1 takes
    ⟨(settles.plain _ _).2, whole⟩

section Transitions

variable {cursor : Cursor} {settled : List Token} {released : Nat} {brace : Option KeyCandidate}
  {behind : List Char}

/-- A name is read before it is known to be a key. -/
theorem advance?_name {name : String} (here : cursor.InLine (Json.string name ++ behind))
    (visible : ∀ char ∈ name.toList, isHidden char = false)
    (within : released ≤ settled.length)
    (free : ∀ candidate ∈ brace, candidate.required = false) :
    (inBraces cursor settled true released brace).advance? =
      some (behindName (cursor.skip (Json.string name).length) settled (.scalar .doubleQuoted name)
        ⟨settled.length, cursor.index, cursor.line, cursor.column, false⟩ released
        (recent cursor brace)) := by
  refine (settles_inBraces true).advance?_eq (skipSpace_eq here.stands (by decide)) free
    ?_ rfl
  rw [takeToken?_quote here, takeQuoted?]
  simp [markCandidate?, dropCandidate?, inBraces, quoted?_string here.stands visible, behindName,
    inFlow, add, Nat.add_sub_cancel' within]

/-- The colon puts the key mark in front of the name. -/
theorem advance?_colon {name : Token} {candidate : KeyCandidate}
    (here : cursor.InLine (':' :: behind))
    (isNext : candidate.number = settled.length) (free : candidate.required = false)
    (fresh : isStale cursor candidate = false) (within : released ≤ settled.length)
    (outerFree : ∀ candidate ∈ brace, candidate.required = false) :
    (behindName cursor settled name candidate released brace).advance? =
      some (inBraces (cursor.skip 1) (settled ++ [.key, name, .value]) false released
        (recent cursor brace)) := by
  refine (settles_behindName isNext free fresh).advance?_eq
    (skipSpace_eq here.stands (by decide)) outerFree ?_ rfl
  rw [takeToken?_colon here rfl, takeColon?]
  simp only [behindName, putBefore, isNext, ← List.length_drop, insertIdx_append]
  simp [inBraces, openBlock, inFlow, take, add, List.drop_append_of_le_length within]

/-- A comma parts two members. -/
theorem advance?_comma {keyAllowed : Bool} (here : cursor.InLine (',' :: behind))
    (within : released ≤ settled.length)
    (free : ∀ candidate ∈ brace, candidate.required = false) :
    (inBraces cursor settled keyAllowed released brace).advance? =
      some (inBraces (cursor.skip 1) (settled ++ [.flowEntry]) true released
        (recent cursor brace)) := by
  refine (settles_inBraces keyAllowed).advance?_eq (skipSpace_eq here.stands (by decide)) free ?_
    rfl
  rw [takeToken?_comma here, takeComma?]
  simp [dropCandidate?, inBraces, take, add, List.drop_append_of_le_length within]

/-- A text as the value of a member. -/
theorem advance?_text {text : String} (here : cursor.InLine (Json.string text ++ behind))
    (visible : ∀ char ∈ text.toList, isHidden char = false)
    (within : released ≤ settled.length)
    (free : ∀ candidate ∈ brace, candidate.required = false) :
    (inBraces cursor settled false released brace).advance? =
      some (inBraces (cursor.skip (Json.string text).length)
        (settled ++ [.scalar .doubleQuoted text]) false released (recent cursor brace)) := by
  refine (settles_inBraces false).advance?_eq (skipSpace_eq here.stands (by decide)) free ?_ rfl
  rw [takeToken?_quote here, takeQuoted?]
  simp [markCandidate?, inBraces, quoted?_string here.stands visible, add,
    List.drop_append_of_le_length within]

/-- A word as the value of a member. -/
theorem advance?_word {word : List Char} {ending : Char}
    (here : cursor.InLine (word ++ ending :: behind))
    (alphanumeric : ∀ char ∈ word, char.isAlphanum = true) (nonempty : word ≠ [])
    (ends : endsInFlow ending = true)
    (within : released ≤ settled.length)
    (free : ∀ candidate ∈ brace, candidate.required = false) :
    (inBraces cursor settled false released brace).advance? =
      some (inBraces (cursor.skip word.length) (settled ++ [.scalar .plain (String.ofList word)]) false
        released (recent cursor brace)) := by
  obtain ⟨first, others, rfl⟩ := List.exists_cons_of_ne_nil nonempty
  have firstOne := alphanumeric first List.mem_cons_self
  have plain (char : Char) (member : char ∈ first :: others) : isWordChar char = true :=
    isWordChar_of_isAlphanum (alphanumeric char member)
  have begins : cursor.InLine (first :: (others ++ ending :: behind)) := here
  refine (settles_inBraces false).advance?_eq
    (skipSpace_eq begins.stands (isSolid_of_isAlphanum firstOne)) free ?_ rfl
  rw [takeToken?_word begins firstOne, takePlain?]
  simp [markCandidate?, inBraces, inFlow, plain?_word here plain ends, add,
    List.drop_append_of_le_length within]

/-- The closing brace takes the candidate that the opening one is with it. -/
theorem advance?_closing {keyAllowed : Bool} (here : cursor.InLine ('\x7d' :: behind))
    (within : released ≤ settled.length)
    (free : ∀ candidate ∈ brace, candidate.required = false) :
    (inBraces cursor settled keyAllowed released brace).advance? =
      some (behindBraces (cursor.skip 1) (settled ++ [.flowMappingEnd]) released
        (recent cursor brace)) := by
  have closes (brace : Option KeyCandidate) :
      (inBraces cursor settled keyAllowed released brace).takeClosing? .flowMappingEnd =
        some (behindBraces (cursor.skip 1) (settled ++ [.flowMappingEnd]) released brace) := by
    cases brace <;> simp [takeClosing?, dropCandidate?, inBraces, behindBraces, take, add,
      List.drop_append_of_le_length within]
  refine (settles_inBraces keyAllowed).advance?_eq (skipSpace_eq here.stands (by decide)) free ?_
    rfl
  rw [takeToken?_closing here]
  exact closes _

/-- The end of the text behind the braces. -/
def atEnd (cursor : Cursor) (final : List Token) (released : Nat) : Layout :=
  ⟨cursor, false, final.drop released, released, -1, [], false, 0, none, [], true⟩

theorem advance?_end (here : cursor.InLine [])
    (within : released ≤ settled.length)
    (free : ∀ candidate ∈ brace, candidate.required = false) :
    (behindBraces cursor settled released brace).advance? =
      some (atEnd ⟨[], cursor.index, cursor.line + 1, 0⟩ (settled ++ [.streamEnd]) released) := by
  have noSpace : (behindBraces cursor settled released brace).skipSpace =
      behindBraces cursor settled released brace := by
    rw [skipSpace, show (behindBraces cursor settled released brace).cursor = cursor from rfl,
      here.stands, skipSpaceWithin]
  have ends {brace : Option KeyCandidate} (free : ∀ candidate ∈ brace, candidate.required = false) :
      (behindBraces cursor settled released brace).takeToken? =
        some (atEnd ⟨[], cursor.index, cursor.line + 1, 0⟩ (settled ++ [.streamEnd]) released) := by
    unfold takeToken?
    cases brace <;>
      simp [behindBraces, here.stands, here.inside, takeEnd?, closeBlocks, closeBlocksWithin,
        dropCandidate?, atEnd, add, inFlow, List.drop_append_of_le_length within] at free ⊢
    simp [free, here.inside]
  exact settles_behindBraces.advance?_eq noSpace free (ends (free_of_recent cursor free)) rfl

/-- At the end all tokens are handed out. -/
theorem yields_atEnd (final : List Token) (released : Nat) :
    (atEnd cursor final released).Yields 0 final := by
  intro fuel enough
  rw [show (atEnd cursor final released).released = released from rfl] at enough ⊢
  induction fuel generalizing released with
  | zero => omega
  | succ fuel ih =>
      rw [tokensWithin]
      by_cases below : released < final.length
      · have drops : (atEnd cursor final released).dropAllStale? =
            some (atEnd cursor final released) := rfl
        have waits : (atEnd cursor final released).waiting =
            final[released] :: final.drop (released + 1) := List.drop_eq_getElem_cons below
        simp only [waits, drops]
        rw [if_neg (by simp [isHeld, atEnd]), List.drop_eq_getElem_cons below]
        exact congrArg _ (ih (released + 1) (by omega))
      · have nothing : final.drop released = [] := List.drop_eq_nil_of_le (by omega)
        simp [atEnd, nothing]

end Transitions

end Layout

end PositionSync.Yaml
