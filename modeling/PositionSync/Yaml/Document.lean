import PositionSync.Yaml.Event

/-!
# The first document of a text

A document is the sequence of its nodes. Aliases are replaced by the scalar or the start of the
collection that they stand for. An anchor is numbered by the distinct names before it, and an alias
stands for the last node with the number that its name has at that point.
-/

namespace PositionSync.Yaml

inductive Node where
  | scalar (scalar : Scalar)
  | sequenceStart
  | sequenceEnd
  | mappingStart
  | mappingEnd
  /-- Stands for a scalar or the collection that begins with a node. -/
  | alias (target : Node)
  /-- The document has no node at all. -/
  | void
  /-- The text is no document from here on. -/
  | malformed

/-- A part of a document whose aliases are still numbers. -/
inductive Numbered where
  | node (node : Node)
  | alias (number : Nat)

/-- What has been read of a document: its parts with the last one first, the numbers of the anchors'
names, and the node of each number. -/
structure Anchored where
  parts : List Numbered := []
  numbers : List (String × Nat) := []
  targets : List (Nat × Node) := []

namespace Anchored

/-- Add a node, under the name of its anchor if it has one. -/
def add (document : Anchored) (anchor : Option String) (node : Node) : Anchored :=
  let parts := .node node :: document.parts
  match anchor with
  | none => { document with parts }
  | some name =>
    let number := document.numbers.length
    { parts
      numbers := (name, number) :: document.numbers.filter fun entry => entry.1 ≠ name
      targets := (number, node) :: document.targets }

/-- The node that a part stands for in the whole document. -/
def resolve (document : Anchored) : Numbered → Node
  | .node node => node
  | .alias number => .alias ((document.targets.lookup number).getD .malformed)

def nodes (document : Anchored) : List Node := (document.parts.map document.resolve).reverse

/-- The nodes of the document, and the events behind it. An alias of an unknown name is a fault, and
so is a text that breaks off. -/
def read (document : Anchored) : List Event → List Node × List Event
  | [] | .malformed :: _ => (document.nodes ++ [.malformed], [.malformed])
  | .streamEnd :: _ =>
    if document.parts.isEmpty then ([.void], [.streamEnd])
    else (document.nodes, [.streamEnd])
  | .documentStart :: rest => document.read rest
  | .documentEnd :: rest => (document.nodes, rest)
  | .alias name :: rest =>
    match document.numbers.lookup name with
    | some number => { document with parts := .alias number :: document.parts }.read rest
    | none => (document.nodes ++ [.malformed], [.malformed])
  | .scalar anchor scalar :: rest => (document.add anchor (.scalar scalar)).read rest
  | .sequenceStart anchor :: rest => (document.add anchor .sequenceStart).read rest
  | .mappingStart anchor :: rest => (document.add anchor .mappingStart).read rest
  | .sequenceEnd :: rest => (document.add none .sequenceEnd).read rest
  | .mappingEnd :: rest => (document.add none .mappingEnd).read rest

end Anchored

/-- The nodes of the first document of a text, and whether the text holds nothing else. -/
def firstDocument (text : List Char) : List Node × Bool :=
  let (nodes, rest) := Anchored.read {} (events text)
  (nodes, match rest with
    | [.streamEnd] => true
    | _ => false)

end PositionSync.Yaml
