import PositionSync.Text.Basic

/-!
# Faults of documents

A document that does not describe the expected value is refused with the first fault in it. The same
faults arise in both document formats.
-/

namespace PositionSync

/-- What a document holds at some place, as far as a message tells it. -/
inductive Found where
  | null
  | unit
  | boolean (value : Bool)
  | integer (value : Int)
  /-- An integer that does not fit into 64 bits. -/
  | wideInteger (value : Int)
  /-- A floating point number by its text. -/
  | float (shown : String)
  | text (value : String)
  | sequence
  | mapping
deriving DecidableEq

def Found.message : Found → String
  | .null => "null"
  | .unit => "unit value"
  | .boolean true => "boolean `true`"
  | .boolean false => "boolean `false`"
  | .integer value => "integer `" ++ toString value ++ "`"
  | .wideInteger value =>
    "integer `" ++ toString value ++ if value < 0 then "` as i128" else "` as u128"
  | .float shown => "floating point `" ++ shown ++ "`"
  | .text value => "string " ++ Text.quote value
  | .sequence => "sequence"
  | .mapping => "map"

/-- The first fault of a document. -/
inductive Fault where
  /-- The text is no document of its format, or leaves the range of the format's numbers. -/
  | malformed
  | invalidType (found : Found) (expected : String)
  | invalidValue (found : Found) (expected : String)
  | invalidLength (length : Nat) (expected : String)
  | missingField (name : String)
  | duplicateField (name : String)
  | unknownVariant (name : String) (known : List String)
  /-- A fault in the value of a member of the document. -/
  | within (member : String) (fault : Fault)
deriving DecidableEq

/-- The known variants in the wording of a message. -/
def Fault.alternatives : List String → String
  | [] => "there are no variants"
  | [only] => "expected `" ++ only ++ "`"
  | [first, second] => "expected `" ++ first ++ "` or `" ++ second ++ "`"
  | names => "expected one of " ++ ", ".intercalate (names.map fun name => "`" ++ name ++ "`")

/-- The wording of a fault. A malformed document is not described any further. -/
def Fault.message : Fault → String
  | .malformed => "<parse>"
  | .invalidType found expected =>
    "invalid type: " ++ found.message ++ ", expected " ++ expected
  | .invalidValue found expected =>
    "invalid value: " ++ found.message ++ ", expected " ++ expected
  | .invalidLength length expected =>
    "invalid length " ++ Nat.repr length ++ ", expected " ++ expected
  | .missingField name => "missing field `" ++ name ++ "`"
  | .duplicateField name => "duplicate field `" ++ name ++ "`"
  | .unknownVariant name known =>
    "unknown variant `" ++ name ++ "`, " ++ alternatives known
  | .within member fault => member ++ ": " ++ fault.message

end PositionSync
