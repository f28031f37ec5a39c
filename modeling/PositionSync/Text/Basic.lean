import PositionSync.Text.Printable
import PositionSync.Text.Utf8

/-!
# Blank text, names in capitals and quoted text

White space is the Unicode property `White_Space`.

The parts of a document are tagged by the identifiers of what they stand for, written in capitals. A
capital inside an identifier begins a word; an underscore sets the words apart.

A text inside a message stands between double quotes. Quotes, backslashes and the common control
characters have short escapes, every other hidden character is written by its number.
-/

namespace PositionSync.Text

/-- Whether a character has the property `White_Space`. -/
def isWhiteSpace (char : Char) : Bool :=
  let code := char.toNat
  (0x9 ≤ code && code ≤ 0xD) || code = 0x20 || code = 0x85 || code = 0xA0 || code = 0x1680 ||
    (0x2000 ≤ code && code ≤ 0x200A) || code = 0x2028 || code = 0x2029 || code = 0x202F ||
    code = 0x205F || code = 0x3000

/-- Whether nothing is left of a text once white space is taken off both ends. -/
def isBlank (text : String) : Bool := text.toList.all isWhiteSpace

/-- The characters of an identifier in capitals, with an underscore in front of every further word. -/
def capitalChars : List Char → List Char
  | [] => []
  | first :: rest =>
    first.toUpper :: rest.flatMap fun char => if char.isUpper then ['_', char] else [char.toUpper]

def capitals (identifier : String) : String := String.ofList (capitalChars identifier.toList)

/-- The number of a character in the form that stands for it inside quotes. -/
def numberEscape (char : Char) : List Char :=
  ['\\', 'u', '\x7b'] ++ Nat.toDigits 16 char.toNat ++ ['\x7d']

/-- A character as it is shown inside double quotes. -/
def showChar (char : Char) : List Char :=
  match char with
  | '\x00' => ['\\', '0']
  | '\t' => ['\\', 't']
  | '\n' => ['\\', 'n']
  | '\r' => ['\\', 'r']
  | '"' => ['\\', '"']
  | '\\' => ['\\', '\\']
  | other => if isPrintable other then [other] else numberEscape other

def quote (text : String) : String :=
  String.ofList ('"' :: text.toList.flatMap showChar ++ ['"'])

/-- A character of a file name, where the single quote is escaped as well. -/
def showNameChar (char : Char) : List Char :=
  if char = '\'' then ['\\', '\''] else showChar char

/-- A file name between double quotes. Octets that are no UTF-8 appear as U+FFFD. -/
def quoteName (octets : List UInt8) : String :=
  String.ofList ('"' :: (Utf8.decodeLossy octets).toList.flatMap showNameChar ++ ['"'])

end PositionSync.Text
