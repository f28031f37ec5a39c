import Mathlib.Data.List.Forall2
import PositionSync.Proofs.Json.Strings
import PositionSync.Proofs.Json.Trees

/-!
# What decoders make of trees

A decoder is known by a relation between trees and values: it takes the lexemes of a tree off exactly if
the tree means something, and gives what it means.  Decoders are put together in a few ways only, and
each of them puts the relations together.
-/

namespace PositionSync.Json

section Results

variable {α β : Type} {result : Except Fault α}

theorem ok_of_bind {next : α → Except Fault β} {value : β} (succeeds : (result >>= next) = .ok value) :
    ∃ found, result = .ok found ∧ next found = .ok value := by
  cases result with
  | error fault => cases succeeds
  | ok found => exact ⟨found, rfl, succeeds⟩

theorem ok_of_map {change : α → β} {value : β} (succeeds : result.map change = .ok value) :
    ∃ found, result = .ok found ∧ change found = value := by
  cases result with
  | error fault => cases succeeds
  | ok found =>
      injection succeeds with same
      exact ⟨found, rfl, same⟩

end Results

/-- A decoder takes the lexemes of a tree off, and nothing else, if the tree means something, and then gives
what it means. -/
structure Decodes {α : Type} (decoder : Decoder α) (Means : Tree → α → Prop) : Prop where
  complete : ∀ {tree : Tree} {value : α}, Means tree value → ∀ rest,
    decoder (tree.lexemes ++ rest) = .ok (value, rest)
  sound : ∀ {lexemes : List Lexeme} {value : α} {rest : List Lexeme},
    decoder lexemes = .ok (value, rest) → ∃ tree, lexemes = tree.lexemes ++ rest ∧ Means tree value

theorem Decodes.of_iff {α : Type} {decoder : Decoder α} {Means Other : Tree → α → Prop}
    (decodes : Decodes decoder Means) (same : ∀ tree value, Means tree value ↔ Other tree value) :
    Decodes decoder Other where
  complete means rest := decodes.complete ((same _ _).2 means) rest
  sound read := by
    obtain ⟨tree, spelled, means⟩ := decodes.sound read
    exact ⟨tree, spelled, (same _ _).1 means⟩

theorem Decodes.map {α β : Type} {decoder : Decoder α} {Means : Tree → α → Prop}
    (decodes : Decodes decoder Means) (change : α → β) :
    Decodes (fun lexemes => (decoder lexemes).map fun (value, rest) => (change value, rest))
      fun tree value => ∃ found, Means tree found ∧ value = change found where
  complete {tree value} means rest := by
    obtain ⟨found, means, rfl⟩ := means
    rw [decodes.complete means]
    rfl
  sound {lexemes value rest} read := by
    obtain ⟨⟨found, behind⟩, readFound, same⟩ := ok_of_map read
    cases same
    obtain ⟨tree, spelled, means⟩ := decodes.sound readFound
    exact ⟨tree, spelled, found, means, rfl⟩

theorem Decodes.skip : Decodes skip fun _ _ => True where
  complete {tree value} _ rest := skip_eq_ok_iff.2 ⟨tree, rfl⟩
  sound {lexemes value rest} skipped := by
    obtain ⟨tree, spelled⟩ := skip_eq_ok_iff.1 skipped
    exact ⟨tree, spelled, trivial⟩

theorem stringText_eq_ok_iff {parts : List StringPart} {text : String} :
    stringText parts = .ok text ↔ StandFor parts text.toList := by
  rw [stringText, ← textOf?_eq_some_iff]
  cases textOf? parts <;> simp

inductive Tree.IsText : Tree → String → Prop
  | string {parts : List StringPart} {text : String} (stand : StandFor parts text.toList) :
      IsText (.string parts) text

theorem Decodes.text (expected : String) : Decodes (text expected) Tree.IsText where
  complete {tree value} isText rest := by
    obtain ⟨stand⟩ := isText
    rw [Tree.lexemes, List.singleton_append, Json.text, stringText_eq_ok_iff.2 stand]
    rfl
  sound {lexemes value rest} read := by
    rw [text.eq_def] at read
    split at read
    · next parts behind =>
      obtain ⟨found, isText, same⟩ := ok_of_map read
      cases same
      exact ⟨.string parts, rfl, .string (stringText_eq_ok_iff.1 isText)⟩
    · cases read

section Lists

variable {α : Type} {item : Decoder α} {Means : Tree → α → Prop}

inductive Tree.IsList (Means : Tree → α → Prop) : Tree → List α → Prop
  | list {trees : List Tree} {values : List α} (items : List.Forall₂ Means trees values) :
      IsList Means (.list trees) values

theorem Tree.IsList.exists_of_mem {items : List Tree} {values : List α}
    (isList : (Tree.list items).IsList Means values) {tree : Tree} (member : tree ∈ items) :
    ∃ value, Means tree value := by
  obtain ⟨means⟩ := isList
  induction means with
  | nil => cases member
  | @cons first value _ _ means _ ih =>
      rcases List.mem_cons.1 member with rfl | later
      · exact ⟨value, means⟩
      · exact ih later

theorem length_lt_laterItems (items : List Tree) : items.length < (laterItems items).length := by
  induction items with
  | nil => exact Nat.zero_lt_one
  | cons item later ih =>
      rw [laterItems, List.length_append, List.length_cons, List.length_cons]
      omega

theorem items_complete (decodes : Decodes item Means) {first : Tree} {later : List Tree} {value : α}
    {values : List α} (means : Means first value) (meanLater : List.Forall₂ Means later values)
    (bound : List Lexeme) (enough : later.length < bound.length) (rest : List Lexeme) :
    items item bound (first.lexemes ++ (laterItems later ++ rest)) = .ok (value :: values, rest) := by
  induction meanLater generalizing first value bound with
  | nil =>
      obtain ⟨lexeme, bound, rfl⟩ := List.exists_cons_of_length_pos enough
      rw [items, decodes.complete means]
      rfl
  | @cons next nextValue later values meansNext _ ih =>
      obtain ⟨lexeme, bound, rfl⟩ := List.exists_cons_of_length_pos (Nat.zero_lt_of_lt enough)
      have others := ih meansNext bound (Nat.lt_of_succ_lt_succ enough)
      rw [items, decodes.complete means, laterItems, List.cons_append, List.cons_append,
        List.append_assoc]
      change (items item bound _ >>= _) = _
      rw [others]
      rfl

theorem items_sound (decodes : Decodes item Means) {bound lexemes rest : List Lexeme}
    {values : List α} (read : items item bound lexemes = .ok (values, rest)) :
    ∃ trees, lexemes = behindBracket trees ++ rest ∧ List.Forall₂ Means trees values ∧ trees ≠ [] := by
  -- The bound gets shorter by one with each item, whatever the lexemes are.
  induction bound generalizing lexemes values rest with
  | nil => cases read
  | cons lexeme bound ih =>
      rw [items] at read
      obtain ⟨⟨value, behind⟩, readFirst, readRest⟩ := ok_of_bind read
      obtain ⟨first, rfl, means⟩ := decodes.sound readFirst
      simp only at readRest
      split at readRest
      · next more =>
        obtain ⟨⟨others, after⟩, readLater, finished⟩ := ok_of_bind readRest
        obtain ⟨later, rfl, meanLater, nonempty⟩ := ih readLater
        obtain ⟨next, later, rfl⟩ := List.exists_cons_of_ne_nil nonempty
        cases finished
        refine ⟨first :: next :: later, ?_, .cons means meanLater, List.cons_ne_nil _ _⟩
        simp [behindBracket, laterItems]
      · cases readRest
        exact ⟨[first], by simp [behindBracket, laterItems], .cons means .nil, List.cons_ne_nil _ _⟩
      · cases readRest

theorem Decodes.list (decodes : Decodes item Means) : Decodes (list item) (Tree.IsList Means) where
  complete {tree values} isList rest := by
    obtain ⟨items⟩ := isList
    cases items with
    | nil => rfl
    | @cons first value later values means meanLater =>
        obtain ⟨lexeme, behind, begins, noEnd⟩ := first.exists_lexemes_eq_cons
        have enough := length_lt_laterItems later
        have read := items_complete decodes means meanLater
          (first.lexemes ++ (laterItems later ++ rest))
          (by simp only [List.length_append]; omega) rest
        rw [Tree.lexemes, behindBracket, List.cons_append, List.append_assoc, ← read, begins,
          List.cons_append, Json.list]
        exact fun after same => noEnd (List.head_eq_of_cons_eq same)
  sound {lexemes values rest} read := by
    rw [list.eq_def] at read
    split at read
    · cases read
      exact ⟨.list [], rfl, .list .nil⟩
    · next behind _ =>
      obtain ⟨trees, rfl, items, -⟩ := items_sound decodes read
      exact ⟨.list trees, rfl, .list items⟩
    · cases read

end Lists

section Members

variable {α : Type} {decoder : Decoder α} {Means : Tree → α → Prop}

theorem memberValue_complete (decodes : Decodes decoder Means) {tree : Tree} {value : α}
    (means : Means tree value) (rest : List Lexeme) :
    memberValue decoder (.colon :: (tree.lexemes ++ rest)) = .ok (value, rest) :=
  decodes.complete means rest

theorem memberValue_sound (decodes : Decodes decoder Means) {lexemes rest : List Lexeme} {value : α}
    (read : memberValue decoder lexemes = .ok (value, rest)) :
    ∃ tree, lexemes = .colon :: (tree.lexemes ++ rest) ∧ Means tree value := by
  rw [memberValue.eq_def] at read
  split at read
  · obtain ⟨tree, rfl, means⟩ := decodes.sound read
    exact ⟨tree, rfl, means⟩
  · cases read

theorem length_lt_laterMembers (members : List (List StringPart × Tree)) :
    members.length < (laterMembers members).length := by
  induction members with
  | nil => exact Nat.zero_lt_one
  | cons member later ih =>
      rw [laterMembers, List.length_append, List.length_cons, List.length_cons, List.length_cons]
      omega

end Members

section Texts

/-- A member whose value is a string, as name and text. -/
def IsTextMember (member : List StringPart × Tree) (entry : String × String) : Prop :=
  StandFor member.1 entry.1.toList ∧ member.2.IsText entry.2

inductive Tree.IsTexts : Tree → List (String × String) → Prop
  | object {members : List (List StringPart × Tree)} {entries : List (String × String)}
      (texts : List.Forall₂ IsTextMember members entries) : IsTexts (.object members) entries

theorem textMembers_complete {first : List StringPart × Tree}
    {later : List (List StringPart × Tree)} {entry : String × String}
    {entries : List (String × String)} (isText : IsTextMember first entry)
    (areTexts : List.Forall₂ IsTextMember later entries) (bound : List Lexeme)
    (enough : later.length < bound.length) (rest : List Lexeme) :
    textMembers bound (behindBrace (first :: later) ++ rest) = .ok (entry :: entries, rest) := by
  induction areTexts generalizing first entry bound with
  | nil =>
      obtain ⟨lexeme, bound, rfl⟩ := List.exists_cons_of_length_pos enough
      simp only [behindBrace, laterMembers, List.cons_append, List.append_assoc, textMembers,
        stringText_eq_ok_iff.2 isText.1]
      change (memberValue _ _ >>= _) = _
      rw [memberValue_complete (.text "a string") isText.2]
      rfl
  | @cons next nextEntry later entries isTextNext _ ih =>
      obtain ⟨lexeme, bound, rfl⟩ := List.exists_cons_of_length_pos (Nat.zero_lt_of_lt enough)
      have others := ih isTextNext bound (Nat.lt_of_succ_lt_succ enough)
      simp only [behindBrace, laterMembers, List.cons_append, List.append_assoc, textMembers,
        stringText_eq_ok_iff.2 isText.1] at others ⊢
      change (memberValue _ _ >>= _) = _
      rw [memberValue_complete (.text "a string") isText.2]
      change (textMembers bound _ >>= _) = _
      rw [others]
      rfl

theorem textMembers_sound {bound lexemes rest : List Lexeme} {entries : List (String × String)}
    (read : textMembers bound lexemes = .ok (entries, rest)) :
    ∃ members, lexemes = behindBrace members ++ rest ∧
      List.Forall₂ IsTextMember members entries ∧ members ≠ [] := by
  induction bound generalizing lexemes entries rest with
  | nil => cases read
  | cons lexeme bound ih =>
      rw [textMembers.eq_def] at read
      split at read
      · next parts behindName isBound =>
        injection isBound with _ isBound
        subst isBound
        obtain ⟨name, isName, readMember⟩ := ok_of_bind read
        obtain ⟨⟨text, behind⟩, readText, readRest⟩ := ok_of_bind readMember
        obtain ⟨tree, rfl, isText⟩ := memberValue_sound (.text "a string") readText
        have isMember : IsTextMember (parts, tree) (name, text) :=
          ⟨stringText_eq_ok_iff.1 isName, isText⟩
        simp only at readRest
        split at readRest
        · next more =>
          obtain ⟨⟨others, after⟩, readLater, finished⟩ := ok_of_bind readRest
          obtain ⟨members, rfl, texts, nonempty⟩ := ih readLater
          obtain ⟨next, later, rfl⟩ := List.exists_cons_of_ne_nil nonempty
          cases finished
          refine ⟨(parts, tree) :: next :: later, ?_, .cons isMember texts, List.cons_ne_nil _ _⟩
          simp [behindBrace, laterMembers]
        · cases readRest
          refine ⟨[(parts, tree)], ?_, .cons isMember .nil, List.cons_ne_nil _ _⟩
          simp [behindBrace, laterMembers]
        · cases readRest
      · cases read

theorem Decodes.textObject : Decodes textObject Tree.IsTexts where
  complete {tree entries} isTexts rest := by
    obtain ⟨texts⟩ := isTexts
    cases texts with
    | nil => rfl
    | @cons first entry later entries isText areTexts =>
        have enough := length_lt_laterMembers later
        have read := textMembers_complete isText areTexts (behindBrace (first :: later) ++ rest)
          (by simp only [behindBrace, List.length_append, List.length_cons]; omega) rest
        rw [Tree.lexemes, ← read]
        rfl
  sound {lexemes entries rest} read := by
    rw [textObject.eq_def] at read
    split at read
    · cases read
      exact ⟨.object [], rfl, .object .nil⟩
    · obtain ⟨members, rfl, texts, -⟩ := textMembers_sound read
      exact ⟨.object members, rfl, .object texts⟩
    · cases read

end Texts

section Records

variable {σ : Type} {fields : Fields σ} {Means : String → σ → Tree → σ → Prop}

/-- The members of an object with their names as texts. -/
def Named (members : List (List StringPart × Tree)) (named : List (String × Tree)) : Prop :=
  List.Forall₂ (fun member entry => StandFor member.1 entry.1.toList ∧ member.2 = entry.2) members
    named

/-- Names have one text each. -/
theorem Named.unique {members : List (List StringPart × Tree)} {named other : List (String × Tree)}
    (names : Named members named) (also : Named members other) : named = other := by
  refine List.right_unique_forall₂' (fun member entry same isNamed isSame => ?_) names also
  have sameName : some entry.1 = some same.1 :=
    (textOf?_eq_some_iff.2 isNamed.1).symm.trans (textOf?_eq_some_iff.2 isSame.1)
  exact Prod.ext (Option.some.inj sameName) (isNamed.2.symm.trans isSame.2)

/-- What a member makes of a record. -/
def Fields.Takes (fields : Fields σ) (Means : String → σ → Tree → σ → Prop) (record : σ)
    (member : String × Tree) (next : σ) : Prop :=
  if member.1 ∈ fields.known then
    fields.isSet member.1 record = false ∧ Means member.1 record member.2 next
  else next = record

/-- What members make of a record, one after the other. -/
inductive Fields.Fills (fields : Fields σ) (Means : String → σ → Tree → σ → Prop) :
    σ → List (String × Tree) → σ → Prop
  | nil (record : σ) : Fills fields Means record [] record
  | cons {record next last : σ} {member : String × Tree} {later : List (String × Tree)}
      (takes : fields.Takes Means record member next) (fills : Fills fields Means next later last) :
      Fills fields Means record (member :: later) last

theorem Fields.fills_cons_iff {record last : σ} {member : String × Tree}
    {later : List (String × Tree)} : fields.Fills Means record (member :: later) last ↔
      ∃ next, fields.Takes Means record member next ∧ fields.Fills Means next later last := by
  constructor
  · rintro (_ | ⟨takes, fills⟩)
    exact ⟨_, takes, fills⟩
  · rintro ⟨next, takes, fills⟩
    exact .cons takes fills

variable (decodes : ∀ name ∈ fields.known, ∀ record,
  Decodes (fields.read name record) (Means name record))

include decodes

theorem field_complete {name : String} {tree : Tree} {record next : σ}
    (takes : fields.Takes Means record (name, tree) next) (rest : List Lexeme) :
    field fields name record (.colon :: (tree.lexemes ++ rest)) = .ok (next, rest) := by
  rw [Fields.Takes] at takes
  rw [field]
  split at takes
  · next known =>
    rw [if_pos known, takes.1]
    exact memberValue_complete (decodes name known record) takes.2 rest
  · next unknown =>
    have skipped : memberValue skip (.colon :: (tree.lexemes ++ rest)) = .ok ((), rest) :=
      memberValue_complete .skip trivial rest
    rw [if_neg unknown, skipped, takes]
    rfl

theorem field_sound {name : String} {lexemes rest : List Lexeme} {record next : σ}
    (read : field fields name record lexemes = .ok (next, rest)) :
    ∃ tree, lexemes = .colon :: (tree.lexemes ++ rest) ∧ fields.Takes Means record (name, tree) next := by
  rw [field] at read
  split at read
  · next known =>
    split at read
    · cases read
    · next unset =>
      obtain ⟨tree, rfl, means⟩ := memberValue_sound (decodes name known record) read
      refine ⟨tree, rfl, ?_⟩
      rw [Fields.Takes, if_pos known]
      exact ⟨Bool.eq_false_iff.2 unset, means⟩
  · next unknown =>
    obtain ⟨⟨_, after⟩, skipped, same⟩ := ok_of_map read
    cases same
    obtain ⟨tree, rfl, -⟩ := memberValue_sound .skip skipped
    refine ⟨tree, rfl, ?_⟩
    rw [Fields.Takes, if_neg unknown]

theorem members_complete {first : List StringPart × Tree} {later : List (List StringPart × Tree)}
    {entry : String × Tree} {entries : List (String × Tree)}
    (isName : StandFor first.1 entry.1.toList ∧ first.2 = entry.2) (areNames : Named later entries)
    {record last : σ} (fills : fields.Fills Means record (entry :: entries) last)
    (bound : List Lexeme) (enough : later.length < bound.length) (rest : List Lexeme) :
    members fields bound record (behindBrace (first :: later) ++ rest) = .ok (last, rest) := by
  induction areNames generalizing first entry bound record with
  | nil =>
      obtain ⟨lexeme, bound, rfl⟩ := List.exists_cons_of_length_pos enough
      obtain ⟨name, tree⟩ := first
      obtain ⟨_, _⟩ := entry
      obtain ⟨stand, rfl⟩ := isName
      obtain _ | ⟨takes, _ | _⟩ := fills
      simp only [behindBrace, laterMembers, List.cons_append, List.append_assoc, members,
        stringText_eq_ok_iff.2 stand]
      change (field fields _ record _ >>= _) = _
      rw [field_complete decodes takes]
      rfl
  | @cons next nextEntry later entries isNameNext _ ih =>
      obtain ⟨lexeme, bound, rfl⟩ := List.exists_cons_of_length_pos (Nat.zero_lt_of_lt enough)
      obtain ⟨name, tree⟩ := first
      obtain ⟨_, _⟩ := entry
      obtain ⟨stand, rfl⟩ := isName
      obtain _ | ⟨takes, fillsLater⟩ := fills
      have others := ih isNameNext fillsLater bound (Nat.lt_of_succ_lt_succ enough)
      simp only [behindBrace, laterMembers, List.cons_append, List.append_assoc] at others ⊢
      rw [members, stringText_eq_ok_iff.2 stand]
      change (field fields _ record _ >>= _) = _
      rw [field_complete decodes takes]
      exact others

theorem members_sound {bound lexemes rest : List Lexeme} {record last : σ}
    (read : members fields bound record lexemes = .ok (last, rest)) :
    ∃ raw named, lexemes = behindBrace raw ++ rest ∧ Named raw named ∧
      fields.Fills Means record named last ∧ raw ≠ [] := by
  induction bound generalizing lexemes record rest with
  | nil => cases read
  | cons lexeme bound ih =>
      rw [members.eq_def] at read
      split at read
      · next parts behindName isBound =>
        injection isBound with _ isBound
        subst isBound
        obtain ⟨name, isName, readMember⟩ := ok_of_bind read
        obtain ⟨⟨next, behind⟩, readField, readRest⟩ := ok_of_bind readMember
        obtain ⟨tree, rfl, takes⟩ := field_sound decodes readField
        have stand := stringText_eq_ok_iff.1 isName
        simp only at readRest
        split at readRest
        · next more =>
          obtain ⟨raw, named, rfl, areNames, fills, nonempty⟩ := ih readRest
          obtain ⟨second, later, rfl⟩ := List.exists_cons_of_ne_nil nonempty
          refine ⟨(parts, tree) :: second :: later, (name, tree) :: named, ?_,
            .cons ⟨stand, rfl⟩ areNames, .cons takes fills, List.cons_ne_nil _ _⟩
          simp [behindBrace, laterMembers]
        · cases readRest
          refine ⟨[(parts, tree)], [(name, tree)], ?_, .cons ⟨stand, rfl⟩ .nil, .cons takes (.nil _),
            List.cons_ne_nil _ _⟩
          simp [behindBrace, laterMembers]
        · cases readRest
      · cases read

theorem object_complete {raw : List (List StringPart × Tree)} {named : List (String × Tree)}
    (areNames : Named raw named) {record last : σ} (fills : fields.Fills Means record named last)
    (rest : List Lexeme) : object fields record (behindBrace raw ++ rest) = .ok (last, rest) := by
  cases areNames with
  | nil =>
      cases fills
      rfl
  | @cons first entry later entries isName areNames =>
      have enough := length_lt_laterMembers later
      have read := members_complete decodes isName areNames fills (behindBrace (first :: later) ++ rest)
        (by simp only [behindBrace, List.length_append, List.length_cons]; omega) rest
      rw [← read]
      rfl

theorem object_sound {lexemes rest : List Lexeme} {record last : σ}
    (read : object fields record lexemes = .ok (last, rest)) :
    ∃ raw named, lexemes = behindBrace raw ++ rest ∧ Named raw named ∧
      fields.Fills Means record named last := by
  rw [object.eq_def] at read
  split at read
  · cases read
    exact ⟨[], [], rfl, .nil, .nil _⟩
  · obtain ⟨raw, named, spelled, areNames, fills, -⟩ := members_sound decodes read
    exact ⟨raw, named, spelled, areNames, fills⟩

end Records

/-- The values of the members with a name. -/
def valuesOf (name : String) (named : List (String × Tree)) : List Tree :=
  (named.filter fun member => member.1 = name).map Prod.snd

theorem valuesOf_cons_self (name : String) (value : Tree) (later : List (String × Tree)) :
    valuesOf name ((name, value) :: later) = value :: valuesOf name later := by
  simp [valuesOf]

theorem valuesOf_cons_of_ne {name other : String} (differs : other ≠ name) (value : Tree)
    (later : List (String × Tree)) :
    valuesOf name ((other, value) :: later) = valuesOf name later := by
  simp [valuesOf, differs]

/-- What the values of a field leave of it: there may be one, if none has been read before. -/
inductive Leaves {α : Type} (Means : Tree → α → Prop) : Option α → List Tree → Option α → Prop
  | untouched (found : Option α) : Leaves Means found [] found
  | read {tree : Tree} {value : α} (means : Means tree value) : Leaves Means none [tree] (some value)

theorem leaves_nil_iff {α : Type} {Means : Tree → α → Prop} {before after : Option α} :
    Leaves Means before [] after ↔ before = after := by
  constructor
  · rintro ⟨⟩
    rfl
  · rintro rfl
    exact .untouched before

theorem leaves_cons_iff {α : Type} {Means : Tree → α → Prop} {before after : Option α} {tree : Tree}
    {later : List Tree} : Leaves Means before (tree :: later) after ↔
      before.isSome = false ∧ ∃ value, Means tree value ∧ Leaves Means (some value) later after := by
  constructor
  · rintro ⟨⟩
    next value means => exact ⟨rfl, value, means, .untouched _⟩
  · rintro ⟨unset, value, means, leaves⟩
    cases leaves
    rw [Option.isSome_eq_false_iff, Option.isNone_iff_eq_none] at unset
    exact unset ▸ .read means

theorem leaves_none_iff {α : Type} {Means : Tree → α → Prop} {values : List Tree} :
    Leaves Means none values none ↔ values = [] := by
  constructor
  · rintro ⟨⟩
    rfl
  · rintro rfl
    exact .untouched none

theorem leaves_some_iff {α : Type} {Means : Tree → α → Prop} {values : List Tree} {value : α} :
    Leaves Means none values (some value) ↔ ∃ tree, values = [tree] ∧ Means tree value := by
  constructor
  · rintro ⟨⟩
    next tree means => exact ⟨tree, rfl, means⟩
  · rintro ⟨tree, rfl, means⟩
    exact .read means

/-- A record whose fields are read each on its own: a field has a name, a place in the record, and values
that trees mean. -/
structure Fields.AreSeparate {σ ι : Type} {Value : ι → Type} (fields : Fields σ) (name : ι → String)
    (Means : ∀ index, Tree → Value index → Prop) (get : ∀ index, σ → Option (Value index))
    (set : ∀ index, Value index → σ → σ) : Prop where
  distinct : Function.Injective name
  known : ∀ {other : String}, other ∈ fields.known ↔ ∃ index, name index = other
  ext : ∀ {record other : σ}, (∀ index, get index record = get index other) → record = other
  get_set_self : ∀ index value record, get index (set index value record) = some value
  get_set_of_ne : ∀ {index other : ι}, other ≠ index → ∀ value record,
    get other (set index value record) = get other record
  isSet : ∀ index record, fields.isSet (name index) record = (get index record).isSome
  read : ∀ index record, Decodes (fields.read (name index) record) fun tree next =>
    ∃ value, Means index tree value ∧ next = set index value record

namespace Fields.AreSeparate

variable {σ ι : Type} {Value : ι → Type} {fields : Fields σ} {name : ι → String}
  {Means : ∀ index, Tree → Value index → Prop} {get : ∀ index, σ → Option (Value index)}
  {set : ∀ index, Value index → σ → σ} (separate : fields.AreSeparate name Means get set)

/-- What the value of the field with a name makes of a record. -/
def Sets (_ : fields.AreSeparate name Means get set) (named : String) (record : σ) (tree : Tree)
    (next : σ) : Prop :=
  ∃ index value, name index = named ∧ Means index tree value ∧ next = set index value record

include separate

theorem sets_iff {index : ι} {record next : σ} {tree : Tree} :
    separate.Sets (name index) record tree next ↔
      ∃ value, Means index tree value ∧ next = set index value record := by
  constructor
  · rintro ⟨other, value, same, means⟩
    cases separate.distinct same
    exact ⟨value, means⟩
  · rintro ⟨value, means⟩
    exact ⟨index, value, rfl, means⟩

theorem decodes (named : String) (known : named ∈ fields.known) (record : σ) :
    Decodes (fields.read named record) (separate.Sets named record) := by
  obtain ⟨index, rfl⟩ := separate.known.1 known
  exact (separate.read index record).of_iff fun _ _ => separate.sets_iff.symm

/-- The members fill in a field each, whatever other members stand between them. -/
theorem fills_iff {record last : σ} {named : List (String × Tree)} :
    fields.Fills separate.Sets record named last ↔
      ∀ index, Leaves (Means index) (get index record) (valuesOf (name index) named)
        (get index last) := by
  induction named generalizing record with
  | nil =>
      simp only [valuesOf, List.filter_nil, List.map_nil, leaves_nil_iff]
      constructor
      · rintro ⟨⟩
        exact fun _ => rfl
      · intro same
        rw [separate.ext same]
        exact .nil last
  | cons member later ih =>
      obtain ⟨other, tree⟩ := member
      simp only [fills_cons_iff, ih, Takes]
      by_cases known : other ∈ fields.known
      · obtain ⟨found, rfl⟩ := separate.known.1 known
        simp only [if_pos known, separate.sets_iff, separate.isSet]
        have elsewhere {index : ι} (differs : index ≠ found) (value : Value found) :
            Leaves (Means index) (get index record) (valuesOf (name index) ((name found, tree) :: later))
                (get index last) ↔
              Leaves (Means index) (get index (set found value record))
                (valuesOf (name index) later) (get index last) := by
          rw [valuesOf_cons_of_ne (separate.distinct.ne differs.symm),
            separate.get_set_of_ne differs]
        constructor
        · rintro ⟨next, ⟨unset, value, means, rfl⟩, leaves⟩ index
          by_cases same : index = found
          · subst same
            rw [valuesOf_cons_self, leaves_cons_iff]
            exact ⟨unset, value, means, separate.get_set_self index value record ▸ leaves index⟩
          · exact (elsewhere same value).2 (leaves index)
        · intro leaves
          have leavesFound := leaves found
          rw [valuesOf_cons_self, leaves_cons_iff] at leavesFound
          obtain ⟨unset, value, means, leavesLater⟩ := leavesFound
          refine ⟨_, ⟨unset, value, means, rfl⟩, fun index => ?_⟩
          by_cases same : index = found
          · subst same
            rw [separate.get_set_self]
            exact leavesLater
          · exact (elsewhere same value).1 (leaves index)
      · have differs (index : ι) : other ≠ name index := fun same =>
          known (separate.known.2 ⟨index, same.symm⟩)
        simp only [if_neg known, exists_eq_left, valuesOf_cons_of_ne (differs _)]

/-- An object is read if there is at most one member for each field, and each of them means something. -/
theorem object_eq_ok_iff {blank : σ} (isBlank : ∀ index, get index blank = none)
    {lexemes rest : List Lexeme} {last : σ} :
    object fields blank lexemes = .ok (last, rest) ↔
      ∃ members named, lexemes = behindBrace members ++ rest ∧ Named members named ∧
        ∀ index, Leaves (Means index) none (valuesOf (name index) named) (get index last) := by
  have fillsAll {named : List (String × Tree)} :
      fields.Fills separate.Sets blank named last ↔
        ∀ index, Leaves (Means index) none (valuesOf (name index) named) (get index last) := by
    simp only [separate.fills_iff, isBlank]
  constructor
  · intro read
    obtain ⟨members, named, spelled, areNames, fills⟩ := object_sound separate.decodes read
    exact ⟨members, named, spelled, areNames, fillsAll.1 fills⟩
  · rintro ⟨members, named, rfl, areNames, leaves⟩
    exact object_complete separate.decodes areNames (fillsAll.2 leaves) rest

end Fields.AreSeparate

/-- A record of two fields, each of which is read on its own. -/
structure Fields.IsPair {σ α β : Type} (fields : Fields σ) (first second : String)
    (First : Tree → α → Prop) (Second : Tree → β → Prop) (make : Option α → Option β → σ)
    (one : σ → Option α) (other : σ → Option β) : Prop where
  distinct : first ≠ second
  known : fields.known = [first, second]
  make_eq : ∀ record, make (one record) (other record) = record
  one_make : ∀ found also, one (make found also) = found
  other_make : ∀ found also, other (make found also) = also
  isSet_first : ∀ record, fields.isSet first record = (one record).isSome
  isSet_second : ∀ record, fields.isSet second record = (other record).isSome
  read_first : ∀ record, Decodes (fields.read first record) fun tree next =>
    ∃ value, First tree value ∧ next = make (some value) (other record)
  read_second : ∀ record, Decodes (fields.read second record) fun tree next =>
    ∃ value, Second tree value ∧ next = make (one record) (some value)

namespace Fields.IsPair

variable {σ α β : Type} {fields : Fields σ} {first second : String} {First : Tree → α → Prop}
  {Second : Tree → β → Prop} {make : Option α → Option β → σ} {one : σ → Option α}
  {other : σ → Option β} (pair : fields.IsPair first second First Second make one other)

/-- Either field, the second one if so asked: its name, its values, its place in the record. -/
def name (first second : String) : Bool → String
  | false => first
  | true => second

abbrev Value (α β : Type) : Bool → Type
  | false => α
  | true => β

def Means (First : Tree → α → Prop) (Second : Tree → β → Prop) :
    ∀ isSecond, Tree → Value α β isSecond → Prop
  | false => First
  | true => Second

def get (one : σ → Option α) (other : σ → Option β) : ∀ isSecond, σ → Option (Value α β isSecond)
  | false => one
  | true => other

def set (make : Option α → Option β → σ) (one : σ → Option α) (other : σ → Option β) :
    ∀ isSecond, Value α β isSecond → σ → σ
  | false => fun value record => make (some value) (other record)
  | true => fun value record => make (one record) (some value)

include pair

theorem areSeparate : fields.AreSeparate (name first second) (Means First Second) (get one other)
    (set make one other) where
  distinct := by
    rintro (_ | _) (_ | _) same
    · rfl
    · exact absurd same pair.distinct
    · exact absurd same pair.distinct.symm
    · rfl
  known := by
    intro name
    rw [pair.known, List.mem_cons, List.mem_singleton, Bool.exists_bool]
    exact or_congr eq_comm eq_comm
  ext := by
    intro record also same
    have sameFirst : one record = one also := same false
    have sameSecond : other record = other also := same true
    rw [← pair.make_eq record, sameFirst, sameSecond, pair.make_eq]
  get_set_self := by
    rintro (_ | _) value record
    · exact pair.one_make _ _
    · exact pair.other_make _ _
  get_set_of_ne := by
    rintro (_ | _) (_ | _) differs value record
    · exact absurd rfl differs
    · exact pair.other_make _ _
    · exact pair.one_make _ _
    · exact absurd rfl differs
  isSet := by
    rintro (_ | _) record
    · exact pair.isSet_first record
    · exact pair.isSet_second record
  read := by
    rintro (_ | _) record
    · exact pair.read_first record
    · exact pair.read_second record

/-- An object is read if there is at most one member for either field, and each of them means something. -/
theorem object_eq_ok_iff {lexemes rest : List Lexeme} {last : σ} :
    object fields (make none none) lexemes = .ok (last, rest) ↔
      ∃ members named, lexemes = behindBrace members ++ rest ∧ Named members named ∧
        Leaves First none (valuesOf first named) (one last) ∧
        Leaves Second none (valuesOf second named) (other last) := by
  have isBlank : ∀ isSecond, get one other isSecond (make none none) = none := by
    rintro (_ | _)
    · exact pair.one_make none none
    · exact pair.other_make none none
  refine (pair.areSeparate.object_eq_ok_iff isBlank).trans ?_
  simp only [Bool.forall_bool]
  rfl

end Fields.IsPair

section Positional

variable {α : Type} {item : Decoder α} {Means : Tree → α → Prop}

theorem nextItem_first (decodes : Decodes item Means) {tree : Tree} {value : α}
    (means : Means tree value) (rest : List Lexeme) :
    nextItem true item (tree.lexemes ++ rest) = .ok (some value, rest) := by
  obtain ⟨lexeme, behind, begins, noEnd⟩ := tree.exists_lexemes_eq_cons
  have read := decodes.complete means rest
  rw [begins, List.cons_append] at read ⊢
  rw [nextItem.eq_def]
  split
  · next ends => exact absurd (List.head_eq_of_cons_eq ends) noEnd
  · rw [if_pos rfl, read]
    rfl

theorem nextItem_later (decodes : Decodes item Means) {tree : Tree} {value : α}
    (means : Means tree value) (rest : List Lexeme) :
    nextItem false item (.comma :: (tree.lexemes ++ rest)) = .ok (some value, rest) := by
  simp only [nextItem, decodes.complete means]
  rfl

/-- What stands before an item of a list. -/
def separator (isFirst : Bool) : List Lexeme := if isFirst then [] else [.comma]

theorem nextItem_sound (decodes : Decodes item Means) {isFirst : Bool} {lexemes rest : List Lexeme}
    {found : Option α} (read : nextItem isFirst item lexemes = .ok (found, rest)) :
    (found = none ∧ lexemes = rest ∧ ∃ behind, rest = .rightBracket :: behind) ∨
      ∃ tree value, found = some value ∧ Means tree value ∧
        lexemes = separator isFirst ++ (tree.lexemes ++ rest) := by
  rw [nextItem.eq_def] at read
  split at read
  · cases read
    exact .inl ⟨rfl, rfl, _, rfl⟩
  · split at read
    · next first =>
      obtain ⟨⟨value, behind⟩, readItem, same⟩ := ok_of_map read
      cases same
      obtain ⟨tree, rfl, means⟩ := decodes.sound readItem
      exact .inr ⟨tree, value, rfl, means, by rw [separator, if_pos first]; rfl⟩
    · next later =>
      split at read
      · obtain ⟨⟨value, behind⟩, readItem, same⟩ := ok_of_map read
        cases same
        obtain ⟨tree, rfl, means⟩ := decodes.sound readItem
        exact .inr ⟨tree, value, rfl, means, by rw [separator, if_neg later]; rfl⟩
      · cases read

theorem listEnd_eq_ok_iff {lexemes rest : List Lexeme} :
    listEnd lexemes = .ok ((), rest) ↔ lexemes = .rightBracket :: rest := by
  constructor
  · intro read
    rw [listEnd.eq_def] at read
    split at read
    · cases read
      rfl
    · cases read
  · rintro rfl
    rfl

end Positional

/-- A text is decoded if it spells a value that means something, and nothing else. -/
theorem decode_eq_ok_iff {α : Type} {decoder : Decoder α} {Means : Tree → α → Prop}
    (decodes : Decodes decoder Means) {octets : List UInt8} {value : α} :
    decode decoder octets = .ok value ↔ ∃ tree, tree.IsSpelledBy octets ∧ Means tree value := by
  rw [decode]
  constructor
  · intro read
    obtain ⟨⟨found, rest⟩, readValue, readEnd⟩ := ok_of_bind read
    obtain ⟨tree, spelled, means⟩ := decodes.sound readValue
    simp only at readEnd
    split at readEnd
    · next isEnd =>
      cases readEnd
      rw [List.isEmpty_iff.1 isEnd, List.append_nil] at spelled
      exact ⟨tree, lexemes_eq_iff.1 spelled, means⟩
    · cases readEnd
  · rintro ⟨tree, spelled, means⟩
    have read := decodes.complete means []
    rw [List.append_nil, ← lexemes_eq_iff.2 spelled] at read
    rw [read]
    rfl

end PositionSync.Json
