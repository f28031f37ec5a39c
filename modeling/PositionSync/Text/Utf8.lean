/-!
# Text as octets

Texts are written as UTF-8. Reading goes octet by octet through a small state, so that every broken
sequence is noticed where it ends: strict reading refuses it, lenient reading puts one replacement
character for each longest prefix of a character that is not continued.
-/

namespace PositionSync.Utf8

def encodeChar (char : Char) : List UInt8 :=
  let code := char.toNat
  if code < 0x80 then
    [code.toUInt8]
  else if code < 0x800 then
    [(0xC0 + code / 0x40).toUInt8, (0x80 + code % 0x40).toUInt8]
  else if code < 0x10000 then
    [(0xE0 + code / 0x1000).toUInt8, (0x80 + code / 0x40 % 0x40).toUInt8,
      (0x80 + code % 0x40).toUInt8]
  else
    [(0xF0 + code / 0x40000).toUInt8, (0x80 + code / 0x1000 % 0x40).toUInt8,
      (0x80 + code / 0x40 % 0x40).toUInt8, (0x80 + code % 0x40).toUInt8]

def encodeChars (chars : List Char) : List UInt8 := chars.flatMap encodeChar

def encode (text : String) : List UInt8 := encodeChars text.toList

/-- What has been read of the current character. -/
inductive State where
  | idle
  /-- Inside a character: `missing` octets are still to come, the next one lies between `lowest` and
  `highest`, and `value` holds the bits read so far. -/
  | within (missing : Nat) (lowest highest : UInt8) (value : Nat)
deriving DecidableEq

/-- Read an octet that cannot continue a character. `none` stands for a broken sequence. -/
def start (octet : UInt8) : List (Option Char) × State :=
  if octet < 0x80 then ([some (Char.ofNat octet.toNat)], .idle)
  else if octet < 0xC2 then ([none], .idle)
  else if octet < 0xE0 then ([], .within 1 0x80 0xBF (octet.toNat - 0xC0))
  else if octet = 0xE0 then ([], .within 2 0xA0 0xBF 0)
  else if octet = 0xED then ([], .within 2 0x80 0x9F 0xD)
  else if octet < 0xF0 then ([], .within 2 0x80 0xBF (octet.toNat - 0xE0))
  else if octet = 0xF0 then ([], .within 3 0x90 0xBF 0)
  else if octet < 0xF4 then ([], .within 3 0x80 0xBF (octet.toNat - 0xF0))
  else if octet = 0xF4 then ([], .within 3 0x80 0x8F 4)
  else ([none], .idle)

/-- Read one octet: the characters that it completes, broken ones as `none`, and the new state. -/
def step : State → UInt8 → List (Option Char) × State
  | .idle, octet => start octet
  | .within missing lowest highest value, octet =>
    if lowest ≤ octet ∧ octet ≤ highest then
      let extended := value * 0x40 + (octet.toNat - 0x80)
      match missing with
      | 0 | 1 => ([some (Char.ofNat extended)], .idle)
      | more + 2 => ([], .within (more + 1) 0x80 0xBF extended)
    else
      let (pieces, state) := start octet
      (none :: pieces, state)

/-- The characters of the octets that follow a state, broken sequences as `none`. -/
def piecesFrom : State → List UInt8 → List (Option Char)
  | .idle, [] => []
  | .within .., [] => [none]
  | state, octet :: rest => (step state octet).1 ++ piecesFrom (step state octet).2 rest

def chars? (octets : List UInt8) : Option (List Char) := (piecesFrom .idle octets).mapM id

def decode? (octets : List UInt8) : Option String := (chars? octets).map String.ofList

/-- The text of the octets with U+FFFD for every broken sequence. -/
def decodeLossy (octets : List UInt8) : String :=
  String.ofList ((piecesFrom .idle octets).map fun piece => piece.getD '\uFFFD')

end PositionSync.Utf8
