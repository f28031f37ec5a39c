import PositionSync.Text.Basic

/-!
# Paths

A path is any sequence of octets. It names a file by its segments, which slashes separate; empty
segments do not count.
-/

namespace PositionSync

structure Path where
  octets : List UInt8
deriving DecidableEq, Inhabited

namespace Path

/-- The name of a file or directory inside a directory. -/
abbrev Name := List UInt8

def slash : UInt8 := 0x2F

def dot : UInt8 := 0x2E

def currentName : Name := [dot]

def parentName : Name := [dot, dot]

def ofText (text : String) : Path := ⟨Utf8.encode text⟩

/-- The path as text, with U+FFFD for what is no UTF-8. -/
def text (path : Path) : String := Utf8.decodeLossy path.octets

def isEmpty (path : Path) : Bool := path.octets.isEmpty

def isAbsolute (path : Path) : Bool := path.octets.head? = some slash

/-- Whether the path ends with a slash, so that it can only name a directory. -/
def endsWithSlash (path : Path) : Bool := path.octets.getLast? = some slash

def splitSlashes : List UInt8 → List Name
  | [] => [[]]
  | octet :: rest =>
    if octet = slash then [] :: splitSlashes rest
    else match splitSlashes rest with
      | [] => [[octet]]
      | name :: others => (octet :: name) :: others

def segments (path : Path) : List Name :=
  (splitSlashes path.octets).filter fun name => !name.isEmpty

/-- The segments that matter for the position of the last one: the current directory is named only at
the very beginning. -/
def components (path : Path) : List Name :=
  match path.segments with
  | [] => []
  | first :: rest =>
    let rest := rest.filter (· ≠ currentName)
    if first = currentName ∧ path.isAbsolute then rest else first :: rest

def joinNames : List Name → List UInt8
  | [] => []
  | [name] => name
  | name :: next :: rest => name ++ slash :: joinNames (next :: rest)

def ofComponents (isAbsolute : Bool) (names : List Name) : Path :=
  ⟨(if isAbsolute then [slash] else []) ++ joinNames names⟩

def join (directory : Path) (name : Path) : Path :=
  if directory.isEmpty || directory.endsWithSlash then ⟨directory.octets ++ name.octets⟩
  else ⟨directory.octets ++ slash :: name.octets⟩

/-- The path without its last component. The empty path and the root have none. -/
def parent? (path : Path) : Option Path :=
  match path.components with
  | [] => none
  | first :: rest => some (ofComponents path.isAbsolute (first :: rest).dropLast)

/-- A name up to its last dot, unless that is its first character. -/
def stem (name : Name) : Name :=
  let behind := name.reverse.takeWhile (· ≠ dot)
  let before := (name.reverse.drop (behind.length + 1)).reverse
  if before.isEmpty then name else before

/-- The path with another extension. A path whose last component is no proper name stays as it is. A
name at the end of the path that has nothing but two dots in front of its extension becomes the name
of the directory around, which has no extension. -/
def withExtension (path : Path) (extension : String) : Path :=
  match path.components.getLast? with
  | none => path
  | some name =>
    if name = currentName ∨ name = parentName then path
    else
      let renamed :=
        if stem name = currentName && name.isSuffixOf path.octets then parentName
        else stem name ++ dot :: Utf8.encode extension
      ofComponents path.isAbsolute (path.components.dropLast ++ [renamed])

end Path

end PositionSync
