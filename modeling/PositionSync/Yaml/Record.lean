import PositionSync.Yaml.Resolution

/-!
# Records in YAML

A record is a mapping whose values are scalars. Members that are not known are left out, whatever
their values are.
-/

namespace PositionSync.Yaml

/-- Reads any scalar as a text, exactly as it is written. -/
def Node.text (expected : String) : Node → Except Fault String
  | .scalar content => .ok content.text
  | .alias target => target.text expected
  | node => .error (node.fault expected)

/-- Reads a whole number of 64 bits. It is written plainly, or as a literal block with the tag of
integers. -/
def Node.unsigned64 : Node → Except Fault Nat
  | .scalar content =>
    if content.style = .plain ∨ content.style = .literal ∧ content.tag = coreTag "int" then
      match unsigned? 0xFFFFFFFFFFFFFFFF content.text.toList with
      | some value => .ok value
      | none => .error (content.fault "u64")
    else .error (content.fault "u64")
  | .alias target => target.unsigned64
  | node => .error (node.fault "u64")

/-- Whether a plain scalar stands for an absent value. With the tag of null it must be spelled as
null. -/
def Scalar.isAbsent (scalar : Scalar) : Except Fault Bool :=
  if scalar.style ≠ .plain then .ok false
  else match scalar.tag with
  | none => .ok (scalar.text.isEmpty || isNullWord scalar.text)
  | some tag =>
    if some tag = coreTag "null" then
      if isNullWord scalar.text then .ok true
      else .error (.invalidValue (.text scalar.text) "null")
    else .ok false

/-- Put the place of a member in front of a fault in its value. Without a place a fault cannot be
described. -/
def atMember {α : Type} (place : Option String) : Except Fault α → Except Fault α
  | .ok value => .ok value
  | .error fault =>
    match fault, place with
    | .malformed, _ | _, none => .error .malformed
    | fault, some place => .error (.within place fault)

/-- Reads a whole number of 64 bits that may be absent. -/
def Node.optionalUnsigned64 (place : Option String) : Node → Except Fault (Option Nat)
  | .scalar content => do
    if ← content.isAbsent then return none
    return some (← atMember place (Node.scalar content).unsigned64)
  | .alias target => target.optionalUnsigned64 place
  | node => (atMember place node.unsigned64).map some

/-- How a record is read: `known` tells its fields by name, `isSet` whether one has been read, and
`read` reads the value of one, given the place that its faults name, if they can name one. -/
structure Fields (σ : Type) where
  known : List String
  isSet : String → σ → Bool
  read : (name : String) → (place : Option String) → σ → Node → Except Fault σ

/-- Leave out the nodes up to the end of the innermost of `depth` open collections and all around
it. -/
def skipCollections : Nat → List Node → Except Fault (List Node)
  | 0, nodes => .ok nodes
  | _ + 1, [] => .error .malformed
  | depth + 1, node :: rest =>
    match node with
    | .sequenceStart | .mappingStart => skipCollections (depth + 2) rest
    | .sequenceEnd | .mappingEnd => skipCollections depth rest
    | .malformed => .error .malformed
    | _ => skipCollections (depth + 1) rest

/-- Leave out one node with everything in it. -/
def skipNode : List Node → Except Fault (List Node)
  | .sequenceStart :: rest | .mappingStart :: rest => skipCollections 1 rest
  | [] | .malformed :: _ => .error .malformed
  | _ :: rest => .ok rest

/-- A name, and the place that faults in its value name. A name given by an alias is no place. -/
def nameOf : Node → Except Fault (String × Option String)
  | .scalar scalar => .ok (scalar.text, some scalar.text)
  | .alias target => (target.text "field identifier").map fun name => (name, none)
  | node => .error (node.fault "field identifier")

/-- Reads the members of a mapping up to its end; `fuel` bounds their number. -/
def members {σ : Type} (fields : Fields σ) : Nat → σ → List Node → Except Fault σ
  | _ + 1, record, .mappingEnd :: _ => .ok record
  | fuel + 1, record, key :: rest => do
    let (name, place) ← nameOf key
    if name ∈ fields.known then
      if fields.isSet name record then throw (.duplicateField name)
      match rest with
      | [] => throw .malformed
      | value :: rest =>
        let record ← fields.read name place record value
        members fields fuel record rest
    else
      let rest ← skipNode rest
      members fields fuel record rest
  | _, _, _ => .error .malformed

/-- Reads a record from the nodes of a document. A document that is empty or holds an empty plain
scalar is a mapping without members. -/
def record {σ : Type} (fields : Fields σ) (empty : σ) (expected : String) :
    List Node → Except Fault σ
  | [] => .error .malformed
  | .mappingStart :: rest => members fields rest.length empty rest
  | .void :: _ => .ok empty
  | .scalar scalar :: _ =>
    if scalar.text.isEmpty ∧ scalar.style = .plain then .ok empty
    else .error (scalar.fault expected)
  | node :: _ => .error (node.fault expected)

/-- Read a text that holds one document with a record. A fault in the record comes before one behind
it; `finish` checks the record once it is read. -/
def decode {σ α : Type} (fields : Fields σ) (empty : σ) (expected : String)
    (finish : σ → Except Fault α) (text : String) : Except Fault α := do
  let (nodes, isOnly) := firstDocument text.toList
  let value ← finish (← record fields empty expected nodes)
  let broken := nodes.any fun node => match node with
    | .malformed => true
    | _ => false
  if broken || !isOnly then throw .malformed
  return value

end PositionSync.Yaml
