import PositionSync.Position.Basic

/-!
# Pending partitions

Partitions that were changed locally wait until the next broadcast takes them all at once.
-/

namespace PositionSync

structure PendingSet where
  members : SortedMap Partition Unit
deriving DecidableEq

namespace PendingSet

def empty : PendingSet := ⟨.empty⟩

instance : Inhabited PendingSet := ⟨empty⟩

def insert (pending : PendingSet) (partition : Partition) : PendingSet :=
  ⟨pending.members.insert partition ()⟩

def insertAll (pending : PendingSet) (partitions : List Partition) : PendingSet :=
  partitions.foldl insert pending

def erase (pending : PendingSet) (partition : Partition) : PendingSet :=
  ⟨pending.members.erase partition⟩

def eraseAll (pending : PendingSet) (partitions : List Partition) : PendingSet :=
  partitions.foldl erase pending

def contains (pending : PendingSet) (partition : Partition) : Bool :=
  pending.members.contains partition

def toList (pending : PendingSet) : List Partition := pending.members.keys

def size (pending : PendingSet) : Nat := pending.members.size

def isEmpty (pending : PendingSet) : Bool := pending.members.isEmpty

/-- The members, and the set that is left behind. -/
def take (pending : PendingSet) : List Partition × PendingSet := (pending.toList, empty)

end PendingSet

end PositionSync
