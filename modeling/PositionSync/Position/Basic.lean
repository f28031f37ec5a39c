import PositionSync.Position.Attributes

/-!
# Partitions, offsets and tables

A partition names a tracked resource, an offset tells where to resume in it, and a table holds the
latest known offset of every tracked partition.
-/

namespace PositionSync

/-- The identity of a tracked resource. -/
structure Partition where
  attributes : Attributes
deriving DecidableEq, Inhabited

/-- Where to resume within a partition. -/
structure Offset where
  attributes : Attributes
deriving DecidableEq, Inhabited

namespace Partition

instance : Ord Partition := ⟨fun first second => compare first.attributes second.attributes⟩

instance : Std.TransOrd Partition where
  eq_swap {first second} :=
    Std.OrientedOrd.eq_swap (a := first.attributes) (b := second.attributes)
  isLE_trans {first second third} :=
    Std.TransOrd.isLE_trans (a := first.attributes) (b := second.attributes)
      (c := third.attributes)

instance : Std.LawfulEqOrd Partition where
  compare_self {partition} := Std.ReflOrd.compare_self (a := partition.attributes)
  eq_of_compare {first second} same :=
    congrArg Partition.mk
      (Std.LawfulEqOrd.eq_of_compare (a := first.attributes) (b := second.attributes) same)

end Partition

/-- The latest known offset of every tracked partition. -/
abbrev PositionTable := SortedMap Partition Offset

namespace PositionTable

/-- Fold a delivered entry in: it replaces a different offset of its partition. The flag tells
whether the table is now different. -/
def mergeEntry (state : PositionTable × Bool) (entry : Partition × Offset) :
    PositionTable × Bool :=
  if state.1.get? entry.1 = some entry.2 then state
  else (state.1.insert entry.1 entry.2, true)

/-- Fold delivered entries in, one after the other. The flag tells whether anything changed. -/
def merge (table : PositionTable) (incoming : List (Partition × Offset)) : PositionTable × Bool :=
  incoming.foldl mergeEntry (table, false)

/-- The entries of some partitions; those that the table does not hold are left out. -/
def restrict (table : PositionTable) (partitions : List Partition) : PositionTable :=
  .ofList (partitions.filterMap fun partition =>
    (table.get? partition).map fun offset => (partition, offset))

def eraseAll (table : PositionTable) (partitions : List Partition) : PositionTable :=
  partitions.foldl SortedMap.erase table

end PositionTable

end PositionSync
