import PositionSync.Files.Path
import PositionSync.SortedMap

/-!
# Trees of directories and files

The nodes of a tree are kept by their places. Everything lies in a directory, and every file has a
number of its own and one name only: there are no links. Putting a node into a directory keeps this,
and so does leaving nodes out as long as no directory is left out without what lies in it.
-/

namespace PositionSync

/-- What a name leads to: a directory, or the file with a number. -/
inductive FileNode where
  | directory
  | file (number : Nat)
deriving DecidableEq

/-- The place of a file or directory: the names that lead to it from the root. -/
abbrev Place := List Path.Name

namespace FileSystem

/-- What is at a place. The root is a directory. -/
def nodeAt? (nodes : SortedMap Place FileNode) (place : Place) : Option FileNode :=
  if place.isEmpty then some .directory else nodes.get? place

/-- Whether everything lies in a directory, every file has one name only, and the number of the next new
file is free. -/
structure IsTree (nodes : SortedMap Place FileNode) (next : Nat) : Prop where
  parents : ∀ place name node, nodeAt? nodes (place ++ [name]) = some node →
    nodeAt? nodes place = some .directory
  distinct : ∀ place other number, nodeAt? nodes place = some (.file number) →
    nodeAt? nodes other = some (.file number) → place = other
  fresh : ∀ place number, nodeAt? nodes place = some (.file number) → number < next

/-- Whether a node can be put at a place: there is a directory around it, and none at the place. -/
structure IsSite (nodes : SortedMap Place FileNode) (place : Place) : Prop where
  around : nodeAt? nodes place.dropLast = some .directory
  free : nodeAt? nodes place ≠ some .directory

variable {nodes : SortedMap Place FileNode} {place other : Place} {next later : Nat}

@[simp]
theorem nodeAt?_root (nodes : SortedMap Place FileNode) : nodeAt? nodes [] = some .directory :=
  rfl

theorem ne_root_of_free (free : nodeAt? nodes place ≠ some .directory) : place ≠ [] := by
  rintro rfl
  exact free rfl

theorem ne_root_of_isFile {number : Nat} (isFile : nodeAt? nodes place = some (.file number)) :
    place ≠ [] := by
  rintro rfl
  cases isFile

theorem nodeAt?_insert (nodes : SortedMap Place FileNode) (notRoot : place ≠ []) (node : FileNode)
    (other : Place) :
    nodeAt? (nodes.insert place node) other =
      if other = place then some node else nodeAt? nodes other := by
  by_cases same : other = place
  · simp [nodeAt?, same, notRoot]
  · rw [if_neg same, nodeAt?, nodeAt?, SortedMap.get?_insert_of_ne _ _ same]

theorem nodeAt?_filter (nodes : SortedMap Place FileNode) (keep : Place → Bool) (other : Place) :
    nodeAt? (nodes.filter keep) other =
      if other = [] ∨ keep other then nodeAt? nodes other else none := by
  by_cases root : other = []
  · simp [root]
  · by_cases kept : keep other <;> simp [nodeAt?, root, kept, SortedMap.get?_filter]

theorem nodeAt?_erase (nodes : SortedMap Place FileNode) (notRoot : place ≠ []) (other : Place) :
    nodeAt? (nodes.erase place) other = if other = place then none else nodeAt? nodes other := by
  by_cases same : other = place
  · simp [nodeAt?, same, notRoot]
  · rw [if_neg same, nodeAt?, nodeAt?, SortedMap.get?_erase_of_ne _ same]

theorem nodeAt?_of_filter {keep : Place → Bool} {node : FileNode}
    (isNode : nodeAt? (nodes.filter keep) place = some node) : nodeAt? nodes place = some node := by
  rw [nodeAt?_filter] at isNode
  split at isNode
  · exact isNode
  · cases isNode

theorem isTree_empty (next : Nat) : IsTree .empty next where
  parents place name node isNode := by cases place <;> cases isNode
  distinct place other number isFile := by cases place <;> cases isFile
  fresh place number isFile := by cases place <;> cases isFile

namespace IsTree

theorem parent (isTree : IsTree nodes next) (isDirectory : nodeAt? nodes place = some .directory) :
    nodeAt? nodes place.dropLast = some .directory := by
  by_cases root : place = []
  · rw [root]
    rfl
  · rw [← List.dropLast_concat_getLast root] at isDirectory
    exact isTree.parents _ _ _ isDirectory

/-- A tree with a further node in one of its directories is a tree, if no other node has its number. -/
theorem insert (isTree : IsTree nodes next) (site : IsSite nodes place) {node : FileNode}
    (numbered : ∀ number, node = .file number → number < later ∧
      ∀ other, nodeAt? nodes other = some (.file number) → other = place)
    (grows : next ≤ later) : IsTree (nodes.insert place node) later := by
  have found := nodeAt?_insert nodes (ne_root_of_free site.free) node
  constructor
  · intro outer name inner isNode
    have keeps (isDirectory : nodeAt? nodes outer = some .directory) :
        nodeAt? (nodes.insert place node) outer = some .directory := by
      have differs : outer ≠ place := fun same => site.free (same ▸ isDirectory)
      rw [found, if_neg differs, isDirectory]
    rw [found] at isNode
    split at isNode
    · next same =>
      have around := site.around
      rw [← same, List.dropLast_concat] at around
      exact keeps around
    · exact keeps (isTree.parents outer name inner isNode)
  · intro one other number isOne isOther
    rw [found] at isOne isOther
    split at isOne <;> split at isOther
    · next oneIs otherIs => rw [oneIs, otherIs]
    · next oneIs _ => rw [oneIs, (numbered number (Option.some.inj isOne)).2 other isOther]
    · next _ otherIs => rw [otherIs, (numbered number (Option.some.inj isOther)).2 one isOne]
    · exact isTree.distinct one other number isOne isOther
  · intro other number isFile
    rw [found] at isFile
    split at isFile
    · exact (numbered number (Option.some.inj isFile)).1
    · exact Nat.lt_of_lt_of_le (isTree.fresh other number isFile) grows

/-- A tree of which only some nodes are kept is a tree, if the directories around them are kept. -/
theorem filter (isTree : IsTree nodes next) {keep : Place → Bool}
    (closed : ∀ place name, keep (place ++ [name]) → nodeAt? nodes place = some .directory →
      place = [] ∨ keep place) : IsTree (nodes.filter keep) next where
  parents place name node isNode := by
    have isDirectory := isTree.parents place name node (nodeAt?_of_filter isNode)
    rw [nodeAt?_filter] at isNode ⊢
    split at isNode
    · next kept =>
      rw [if_pos (closed place name (by simpa using kept) isDirectory), isDirectory]
    · cases isNode
  distinct one other number isOne isOther :=
    isTree.distinct one other number (nodeAt?_of_filter isOne) (nodeAt?_of_filter isOther)
  fresh other number isFile := isTree.fresh other number (nodeAt?_of_filter isFile)

/-- A tree without one of its files is a tree. -/
theorem erase (isTree : IsTree nodes next) {number : Nat}
    (isFile : nodeAt? nodes place = some (.file number)) : IsTree (nodes.erase place) next := by
  refine isTree.filter fun outer _ _ isDirectory => .inr ?_
  have differs : place ≠ outer := by
    rintro rfl
    rw [isFile] at isDirectory
    cases isDirectory
  simpa using fun equal => differs (Std.LawfulEqOrd.eq_of_compare equal)

/-- A file that is moved keeps its number. -/
theorem move (isTree : IsTree nodes next) {origin : Place} {number : Nat}
    (isFile : nodeAt? nodes origin = some (.file number)) (site : IsSite nodes place) :
    IsTree ((nodes.erase origin).insert place (.file number)) next := by
  have found := nodeAt?_erase nodes (ne_root_of_isFile isFile)
  refine (isTree.erase isFile).insert ⟨?_, ?_⟩ ?_ (Nat.le_refl _)
  · have differs : place.dropLast ≠ origin := by
      intro same
      have around := site.around
      rw [same, isFile] at around
      cases around
    rw [found, if_neg differs, site.around]
  · rw [found]
    split
    · nofun
    · exact site.free
  · rintro _ ⟨rfl⟩
    refine ⟨isTree.fresh origin number isFile, fun other isOther => ?_⟩
    -- The number has been at the old place only, and nothing is left there.
    rw [found] at isOther
    split at isOther
    · cases isOther
    · next differs => exact absurd (isTree.distinct other origin number isOther isFile) differs

/-- A tree without everything at and below a place is a tree. -/
theorem removeBelow (isTree : IsTree nodes next) (place : Place) :
    IsTree (nodes.filter fun below => !place.isPrefixOf below) next := by
  refine isTree.filter fun outer name kept _ => .inr ?_
  simp only [Bool.not_eq_true', Bool.eq_false_iff, List.isPrefixOf_iff_prefix, ne_eq] at kept ⊢
  -- What lies in a directory that is removed is removed with it.
  exact fun below => kept (below.trans (List.prefix_append _ _))

end IsTree

end FileSystem

end PositionSync
