import PositionSync.Position.Basic

/-!
# The order of partitions

Partitions are ordered as their attributes are, which are listed by name: the first attribute in which two
lists differ decides, by its name, or where the names agree by its value, and a list that ends first comes
first. Texts are ordered in the same way by their code points.
-/

namespace PositionSync

/-- The first character in which the texts differ decides, by its code point. -/
def TextBefore (first second : String) : Prop :=
  List.Lex (fun one other => one.toNat < other.toNat) first.toList second.toList

/-- The name decides, and between attributes of one name the value. -/
def AttributeBefore : String × String → String × String → Prop := Prod.Lex TextBefore TextBefore

/-- The first attribute that differs decides; without one, the partition that has fewer comes first. -/
def Partition.Before (first second : Partition) : Prop :=
  List.Lex AttributeBefore first.attributes.entries second.attributes.entries

theorem compareLex_eq_lt_iff {α : Type} {order : α → α → Ordering} [Std.LawfulEqCmp order]
    (first second : List α) :
    List.compareLex order first second = .lt ↔
      List.Lex (fun one other => order one other = .lt) first second := by
  induction first generalizing second with
  | nil =>
      cases second with
      | nil => exact ⟨nofun, nofun⟩
      | cons other second => exact ⟨fun _ => .nil, fun _ => rfl⟩
  | cons one first ih =>
      cases second with
      | nil => exact ⟨nofun, nofun⟩
      | cons other second =>
          rw [List.compareLex_cons_cons, Ordering.then_eq_lt]
          constructor
          · rintro (less | ⟨same, later⟩)
            · exact .rel less
            · obtain rfl : one = other := Std.LawfulEqCmp.eq_of_compare same
              exact .cons ((ih second).1 later)
          · rintro (_ | less | later)
            · exact .inl less
            · exact .inr ⟨Std.ReflCmp.compare_self, (ih second).2 later⟩

theorem compare_text_eq_lt_iff (first second : String) :
    compare first second = .lt ↔ TextBefore first second := by
  have less : compare first second = .lt ↔ first < second := compareOfLessAndEq_eq_lt
  rw [less, String.lt_iff]
  rfl

theorem compare_attribute_eq_lt_iff (first second : String × String) :
    compare first second = .lt ↔ AttributeBefore first second := by
  obtain ⟨name, value⟩ := first
  obtain ⟨otherName, otherValue⟩ := second
  have byName : compare (name, value) (otherName, otherValue) =
      (compare name otherName).then (compare value otherValue) := rfl
  rw [byName, Ordering.then_eq_lt, AttributeBefore, Prod.lex_def, compare_text_eq_lt_iff,
    compare_text_eq_lt_iff, Std.LawfulEqCmp.compare_eq_iff_eq]

/-- The order by which tables are kept is this one. -/
theorem Partition.compare_eq_lt_iff (first second : Partition) :
    compare first second = .lt ↔ first.Before second := by
  have byAttributes : compare first second =
      List.compareLex compare first.attributes.entries second.attributes.entries := rfl
  have sameOrder : (fun one other : String × String => compare one other = .lt) = AttributeBefore :=
    funext fun one => funext fun other => propext (compare_attribute_eq_lt_iff one other)
  rw [byAttributes, compareLex_eq_lt_iff, sameOrder]
  rfl

end PositionSync
