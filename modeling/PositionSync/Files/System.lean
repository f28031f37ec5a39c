import PositionSync.Files.Tree

/-!
# Files and directories

A file system is a finite tree of directories and files, and is one by its construction: an operation
puts a node only where it has found a directory around. Names lead to files, every file has one name,
and files hold octets: a reader that has opened a file keeps it, also when its name is given to another
file.
-/

namespace PositionSync

inductive FileFault where
  | notFound
  | busy
  | alreadyExists
  | notDirectory
  | isDirectory
  | nameTooLong
  | nulOctet
  | notUtf8
deriving DecidableEq

def FileFault.message : FileFault → String
  | .notFound => "No such file or directory (os error 2)"
  | .busy => "Device or resource busy (os error 16)"
  | .alreadyExists => "File exists (os error 17)"
  | .notDirectory => "Not a directory (os error 20)"
  | .isDirectory => "Is a directory (os error 21)"
  | .nameTooLong => "File name too long (os error 36)"
  | .nulOctet => "file name contained an unexpected NUL byte"
  | .notUtf8 => "stream did not contain valid UTF-8"

/-- A tree of directories and files, in which relative paths begin at the root. Every file has one name:
there are no links. -/
structure FileSystem where
  nodes : SortedMap Place FileNode
  contents : SortedMap Nat (List UInt8)
  /-- The number of the next new file. -/
  next : Nat
  isTree : FileSystem.IsTree nodes next
deriving DecidableEq

namespace FileSystem

def empty : FileSystem := ⟨.empty, .empty, 0, isTree_empty 0⟩

instance : Inhabited FileSystem := ⟨empty⟩

/-- What is at a place. The root is a directory. -/
def node? (files : FileSystem) (place : Place) : Option FileNode := nodeAt? files.nodes place

@[simp]
theorem node?_root (files : FileSystem) : files.node? [] = some .directory :=
  rfl

theorem node?_dropLast {files : FileSystem} {place : Place}
    (isDirectory : files.node? place = some .directory) :
    files.node? place.dropLast = some .directory :=
  files.isTree.parent isDirectory

def octets (files : FileSystem) (number : Nat) : List UInt8 :=
  (files.contents.get? number).getD []

def longestName : Nat := 255

def pathLimit : Nat := 4096

/-- Where a path leads: to the directory at a place itself, or to a name in it. -/
structure Target where
  directory : Place
  name : Option Path.Name
  /-- Whether the path can only name a directory. -/
  onlyDirectory : Bool
deriving DecidableEq

/-- Follow segments from a directory. All but the last one have to lead to directories. -/
def follow (files : FileSystem) (onlyDirectory : Bool) :
    Place → List Path.Name → Except FileFault Target
  | here, [] => .ok ⟨here, none, onlyDirectory⟩
  | here, name :: rest =>
    if name = Path.currentName then files.follow onlyDirectory here rest
    else if name = Path.parentName then files.follow onlyDirectory here.dropLast rest
    else if longestName < name.length then .error .nameTooLong
    else if rest.isEmpty then .ok ⟨here, some name, onlyDirectory⟩
    else match files.node? (here ++ [name]) with
      | some .directory => files.follow onlyDirectory (here ++ [name]) rest
      | some (.file _) => .error .notDirectory
      | none => .error .notFound

def locate (files : FileSystem) (path : Path) : Except FileFault Target :=
  if path.octets.contains 0 then .error .nulOctet
  else if path.isEmpty then .error .notFound
  else if pathLimit ≤ path.octets.length then .error .nameTooLong
  else files.follow path.endsWithSlash [] path.segments

def Target.place (target : Target) : Place :=
  match target.name with
  | none => target.directory
  | some name => target.directory ++ [name]

/-- A path leads to a directory, or to a name in one. -/
theorem isDirectory_of_follow {files : FileSystem} {onlyDirectory : Bool} {here : Place}
    {names : List Path.Name} {target : Target} (isDirectory : files.node? here = some .directory)
    (leads : files.follow onlyDirectory here names = .ok target) :
    files.node? target.directory = some .directory := by
  induction names generalizing here with
  | nil =>
    obtain rfl := Except.ok.inj leads
    exact isDirectory
  | cons name rest ih =>
    rw [follow] at leads
    split at leads
    · exact ih isDirectory leads
    split at leads
    · exact ih (node?_dropLast isDirectory) leads
    split at leads
    · cases leads
    split at leads
    · obtain rfl := Except.ok.inj leads
      exact isDirectory
    split at leads
    · next found => exact ih found leads
    · cases leads
    · cases leads

theorem isDirectory_of_locate {files : FileSystem} {path : Path} {target : Target}
    (leads : files.locate path = .ok target) :
    files.node? target.directory = some .directory := by
  unfold locate at leads
  split at leads
  · cases leads
  split at leads
  · cases leads
  split at leads
  · cases leads
  · exact isDirectory_of_follow rfl leads

/-- A path that leads to a name leads to a site, unless there is a directory. -/
theorem isSite_of_locate {files : FileSystem} {path : Path} {target : Target}
    (leads : files.locate path = .ok target) (named : target.name ≠ none)
    (free : files.node? target.place ≠ some .directory) : IsSite files.nodes target.place := by
  refine ⟨?_, free⟩
  have isDirectory := isDirectory_of_locate leads
  obtain ⟨name, isName⟩ := Option.ne_none_iff_exists'.1 named
  rw [Target.place, isName, List.dropLast_concat]
  exact isDirectory

def lookup (files : FileSystem) (path : Path) : Except FileFault FileNode := do
  let target ← files.locate path
  match files.node? target.place with
  | none => throw .notFound
  | some (.file number) =>
    if target.onlyDirectory then throw .notDirectory else return .file number
  | some .directory => return .directory

def pathExists (files : FileSystem) (path : Path) : Bool := (files.lookup path).isOk

def isDirectory (files : FileSystem) (path : Path) : Bool :=
  match files.lookup path with
  | .ok .directory => true
  | _ => false

def read (files : FileSystem) (path : Path) : Except FileFault (List UInt8) := do
  match ← files.lookup path with
  | .directory => throw .isDirectory
  | .file number => return files.octets number

def readChars (files : FileSystem) (path : Path) : Except FileFault (List Char) := do
  match Utf8.chars? (← files.read path) with
  | some chars => return chars
  | none => throw .notUtf8

def readText (files : FileSystem) (path : Path) : Except FileFault String :=
  (files.readChars path).map String.ofList

/-- Make a file hold the given octets. -/
def fill (files : FileSystem) (number : Nat) (octets : List UInt8) : FileSystem :=
  { files with contents := files.contents.insert number octets }

/-- Put a new file at a place. -/
def addFile (files : FileSystem) (place : Place) (site : IsSite files.nodes place)
    (octets : List UInt8) : FileSystem where
  nodes := files.nodes.insert place (.file files.next)
  contents := files.contents.insert files.next octets
  next := files.next + 1
  isTree := by
    refine files.isTree.insert site ?_ (Nat.le_succ _)
    rintro _ ⟨rfl⟩
    exact ⟨Nat.lt_succ_self _, fun other isFile =>
      absurd (files.isTree.fresh other _ isFile) (Nat.lt_irrefl _)⟩

def addDirectory (files : FileSystem) (place : Place) (site : IsSite files.nodes place) :
    FileSystem :=
  { files with
    nodes := files.nodes.insert place .directory
    isTree := files.isTree.insert site (fun _ isFile => by cases isFile) (Nat.le_refl _) }

/-- Give a file another place, and a file that is there none. -/
def moveFile (files : FileSystem) (origin place : Place) (number : Nat)
    (isFile : files.node? origin = some (.file number)) (site : IsSite files.nodes place) :
    FileSystem :=
  { files with
    nodes := (files.nodes.erase origin).insert place (.file number)
    isTree := files.isTree.move isFile site }

def dropFile (files : FileSystem) (place : Place) (number : Nat)
    (isFile : files.node? place = some (.file number)) : FileSystem :=
  { files with nodes := files.nodes.erase place, isTree := files.isTree.erase isFile }

def removeBelow (files : FileSystem) (place : Place) : FileSystem :=
  { files with
    nodes := files.nodes.filter fun below => !place.isPrefixOf below
    isTree := files.isTree.removeBelow place }

/-- Make the file at a path hold the given octets. The file that is there keeps its number, a new one
gets the next number. -/
def write (files : FileSystem) (path : Path) (octets : List UInt8) :
    Except FileFault FileSystem :=
  match located : files.locate path with
  | .error fault => .error fault
  | .ok target =>
    if mayBeFile : target.name ≠ none ∧ target.onlyDirectory = false then
      match found : files.node? target.place with
      | some .directory => .error .isDirectory
      | some (.file number) => .ok (files.fill number octets)
      | none =>
        .ok (files.addFile target.place (isSite_of_locate located mayBeFile.1 (by simp [found])) octets)
    else .error .isDirectory

/-- Append octets to the file at a path, which is made if it is not there. -/
def append (files : FileSystem) (path : Path) (octets : List UInt8) :
    Except FileFault FileSystem :=
  match files.read path with
  | .ok present => files.write path (present ++ octets)
  | .error _ => files.write path octets

def makeDirectory (files : FileSystem) (path : Path) : Except FileFault FileSystem :=
  match located : files.locate path with
  | .error fault => .error fault
  | .ok target =>
    if missing : target.name ≠ none ∧ files.node? target.place = none then
      .ok (files.addDirectory target.place
        (isSite_of_locate located missing.1 (by simp [missing.2])))
    else .error .alreadyExists

/-- Make a directory if it is not there. A fault does not matter where there is one already. -/
def ensureDirectory (files : FileSystem) (path : Path) : Except FileFault FileSystem :=
  match files.makeDirectory path with
  | .ok made => .ok made
  | .error fault => if files.isDirectory path then .ok files else .error fault

/-- Make the directory at a path and those around it that are missing; `fuel` bounds their number.
Returns the directories that could be made as well, where it fails. -/
def makeDirectoriesWithin : Nat → FileSystem → Path → FileSystem × Except FileFault Unit
  | 0, files, _ => (files, .error .notFound)
  | fuel + 1, files, path =>
    if path.isEmpty then (files, .ok ())
    else match files.makeDirectory path with
    | .ok made => (made, .ok ())
    | .error .notFound =>
      match path.parent? with
      | none => (files, .error .notFound)
      | some parent =>
        match makeDirectoriesWithin fuel files parent with
        | (around, .error fault) => (around, .error fault)
        | (around, .ok ()) =>
          match around.ensureDirectory path with
          | .ok made => (made, .ok ())
          | .error fault => (around, .error fault)
    | .error fault =>
      if files.isDirectory path then (files, .ok ()) else (files, .error fault)

/-- Make the directory at a path and those around it that are missing. -/
def makeDirectories (files : FileSystem) (path : Path) : FileSystem × Except FileFault Unit :=
  makeDirectoriesWithin (path.components.length + 1) files path

/-- Give the file at one path the name at another one. A file that has this name loses it. Both paths
have to end with a proper name. -/
def rename (files : FileSystem) (source target : Path) : Except FileFault FileSystem :=
  match files.locate source, located : files.locate target with
  | .error fault, _ => .error fault
  | .ok _, .error fault => .error fault
  | .ok origin, .ok goal =>
    if named : origin.name ≠ none ∧ goal.name ≠ none then
      match isFile : files.node? origin.place with
      | none => .error .notFound
      | some .directory => .error .isDirectory
      | some (.file number) =>
        if origin.onlyDirectory || goal.onlyDirectory then .error .notDirectory
        else if free : files.node? goal.place = some .directory then .error .isDirectory
        else
          .ok (files.moveFile origin.place goal.place number isFile
            (isSite_of_locate located named.2 free))
    else .error .busy

def removeFile (files : FileSystem) (path : Path) : Except FileFault FileSystem :=
  match files.locate path with
  | .error fault => .error fault
  | .ok target =>
    match isFile : files.node? target.place with
    | none => .error .notFound
    | some .directory => .error .isDirectory
    | some (.file number) =>
      if target.onlyDirectory then .error .notDirectory
      else .ok (files.dropFile target.place number isFile)

/-- The path of a place; that of a directory ends with a slash. -/
def showPlace (place : Place) (node : FileNode) : Path :=
  ⟨Path.joinNames place ++ if node = .directory then [Path.slash] else []⟩

/-- The paths of all files and directories, in the order of their octets. -/
def tree (files : FileSystem) : List Path :=
  (files.nodes.toList.map fun entry => showPlace entry.1 entry.2).mergeSort
    fun first second => (compare first.octets second.octets).isLE

end FileSystem

/-- A change that somebody else makes to the files. -/
inductive FileChange where
  | write (path : Path) (octets : List UInt8)
  | append (path : Path) (octets : List UInt8)
  | makeDirectory (path : Path)
  | delete (path : Path)
deriving DecidableEq

namespace FileSystem

def makeParents (files : FileSystem) (path : Path) : FileSystem :=
  match path.parent? with
  | some parent => (files.makeDirectories parent).1
  | none => files

/-- The files after a change. A change that is not possible leaves them as they are. -/
def change (files : FileSystem) : FileChange → FileSystem
  | .write path octets =>
    let ready := files.makeParents path
    (ready.write path octets).toOption.getD ready
  | .append path octets =>
    let ready := files.makeParents path
    (ready.append path octets).toOption.getD ready
  | .makeDirectory path => (files.makeDirectories path).1
  | .delete path =>
    match files.locate path with
    | .ok target => if target.place.isEmpty then files else files.removeBelow target.place
    | .error _ => files

end FileSystem

end PositionSync
