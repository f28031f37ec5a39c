import PositionSync.Error
import PositionSync.Json.Decoder
import PositionSync.Position.Basic
import PositionSync.Text.Basic

/-!
# Position messages

Workers tell each other positions. A worker that has just started announces its whole table; later
ones broadcast changed positions.
-/

namespace PositionSync

inductive MessageKind where
  /-- A worker came online and announces its table. -/
  | online
  /-- Positions were inserted or updated. -/
  | positionChange
deriving DecidableEq

namespace MessageKind

def name : MessageKind → String
  | .online => "ONLINE"
  | .positionChange => "POSITION_CHANGE"

def ofName? (name : String) : Option MessageKind :=
  if name = "ONLINE" then some .online
  else if name = "POSITION_CHANGE" then some .positionChange
  else none

def parse (name : String) : Except Error MessageKind :=
  match ofName? name with
  | some kind => .ok kind
  | none => .error (.unknownMessageKind name)

def identifier : MessageKind → String
  | .online => "Online"
  | .positionChange => "PositionChange"

/-- What a kind is written as in a document: its identifier in capitals. -/
def tag (kind : MessageKind) : String := Text.capitals kind.identifier

/-- Every kind is known under what is written for it. -/
theorem ofName?_tag (kind : MessageKind) : ofName? kind.tag = some kind := by
  cases kind <;> decide

def all : List MessageKind := [.online, .positionChange]

def fromJson (octets : List UInt8) : Except Error MessageKind :=
  match Json.decode (Json.variant (all.map tag)) octets with
  | .ok found =>
    match all.find? fun kind => kind.tag = found with
    | some kind => .ok kind
    | none => .error (.json (.unknownVariant found (all.map tag)))
  | .error fault => .error (.json fault)

end MessageKind

/-- Positions that one worker tells the others. -/
structure PositionMessage where
  kind : MessageKind
  positions : PositionTable
deriving DecidableEq

/-- One inbound message, or the reason why it could not be received. -/
abbrev Delivery := Except Error PositionMessage

end PositionSync
