import PositionSync.SortedMap

/-!
# Attributes

A partition and an offset are both sets of named attributes. Attributes compare structurally: as
lists of (name, value) pairs in name order, where a proper prefix of a list comes first and texts
compare by code points.
-/

namespace PositionSync

instance attributeOrd : Ord (String × String) := lexOrd

instance transOrdEntry : Std.TransOrd (String × String) := Std.instTransOrdProd

instance lawfulEqOrdEntry : Std.LawfulEqOrd (String × String) := Std.instLawfulEqOrdProd

/-- Named attributes, at most one value for a name. -/
abbrev Attributes := SortedMap String String

namespace Attributes

instance : Ord Attributes := ⟨fun first second => compare first.entries second.entries⟩

instance : Std.TransOrd Attributes where
  eq_swap {first second} := Std.OrientedOrd.eq_swap (a := first.entries) (b := second.entries)
  isLE_trans {first second third} :=
    Std.TransOrd.isLE_trans (a := first.entries) (b := second.entries) (c := third.entries)

instance : Std.LawfulEqOrd Attributes where
  compare_self {attributes} := Std.ReflOrd.compare_self (a := attributes.entries)
  eq_of_compare {first second} same :=
    SortedMap.ext (Std.LawfulEqOrd.eq_of_compare (a := first.entries) (b := second.entries) same)

/-- One attribute, shown as `name=value`. -/
def showEntry (entry : String × String) : String := entry.1 ++ "=" ++ entry.2

/-- The attributes in name order between braces. -/
def render (attributes : Attributes) : String :=
  "\x7b" ++ ", ".intercalate (attributes.entries.map showEntry) ++ "\x7d"

end Attributes

end PositionSync
