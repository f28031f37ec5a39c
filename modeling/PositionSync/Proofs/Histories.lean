import Mathlib.Data.List.Basic

/-!
# Histories

A history is a list of what has happened, the latest last. Statements about a history often speak of one
entry, of what was before it and of what came later. Here such a division is carried over one more entry,
and with it what lasts: what some entry has brought about and no later one has undone.
-/

namespace PositionSync

/-- A history with one more entry is divided at this entry, or at one of those before. -/
theorem append_singleton_eq_append_cons_iff {α : Type} {history earlier later : List α}
    {latest entry : α} :
    history ++ [latest] = earlier ++ entry :: later ↔
      (later = [] ∧ earlier = history ∧ entry = latest) ∨
        ∃ between, later = between ++ [latest] ∧ history = earlier ++ entry :: between := by
  constructor
  · intro divided
    rcases later.eq_nil_or_concat' with rfl | ⟨between, last, rfl⟩
    · obtain ⟨rfl, rfl⟩ := List.append_singleton_inj.1 divided
      exact .inl ⟨rfl, rfl, rfl⟩
    · rw [← List.cons_append, ← List.append_assoc, List.append_singleton_inj] at divided
      obtain ⟨rfl, rfl⟩ := divided
      exact .inr ⟨between, rfl, rfl⟩
  · rintro (⟨rfl, rfl, rfl⟩ | ⟨between, rfl, rfl⟩)
    · rfl
    · simp

variable {α : Type} {begins ends : List α → α → Prop}

/-- Whether some entry of a history has begun something that no later entry has ended. What an entry does
may depend on the history before it. -/
def Lasts (begins ends : List α → α → Prop) (history : List α) : Prop :=
  ∃ earlier entry later, history = earlier ++ entry :: later ∧ begins earlier entry ∧
    ∀ before other after, later = before ++ other :: after →
      ¬ ends (earlier ++ entry :: before) other

theorem not_lasts_nil : ¬ Lasts begins ends [] := by
  rintro ⟨earlier, entry, later, divided, -⟩
  simp at divided

/-- The latest entry begins it, or it has lasted so far and the latest entry does not end it. -/
theorem lasts_concat {history : List α} {latest : α} :
    Lasts begins ends (history ++ [latest]) ↔
      begins history latest ∨ Lasts begins ends history ∧ ¬ ends history latest := by
  constructor
  · rintro ⟨earlier, entry, later, divided, isBegun, goesOn⟩
    rcases append_singleton_eq_append_cons_iff.1 divided with
      ⟨rfl, rfl, rfl⟩ | ⟨later, rfl, rfl⟩
    · exact .inl isBegun
    · refine .inr ⟨⟨earlier, entry, later, rfl, isBegun, ?_⟩, goesOn later latest [] rfl⟩
      intro before other after rest
      exact goesOn before other (after ++ [latest]) (by simp [rest])
  · rintro (isBegun | ⟨⟨earlier, entry, later, rfl, isBegun, goesOn⟩, kept⟩)
    · exact ⟨history, latest, [], rfl, isBegun, by simp⟩
    · refine ⟨earlier, entry, later ++ [latest], by simp, isBegun, ?_⟩
      intro before other after rest
      rcases append_singleton_eq_append_cons_iff.1 rest with
        ⟨rfl, rfl, rfl⟩ | ⟨after, rfl, rfl⟩
      · exact kept
      · exact goesOn before other after rfl

end PositionSync
