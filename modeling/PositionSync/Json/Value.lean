import PositionSync.Text.Utf8

/-!
# Writing JSON

A value is written either compactly, without any space, or indented by two spaces a level. Object
members keep their order.
-/

namespace PositionSync.Json

inductive Value where
  | null
  | number (value : Nat)
  | text (value : String)
  | list (items : List Value)
  | object (members : List (String × Value))

def hexDigit (value : Nat) : Char := (Nat.digitChar value)

/-- A character inside a string. Only quotes, backslashes and control characters are escaped. -/
def escapeChar (char : Char) : List Char :=
  match char with
  | '"' => ['\\', '"']
  | '\\' => ['\\', '\\']
  | '\x08' => ['\\', 'b']
  | '\t' => ['\\', 't']
  | '\n' => ['\\', 'n']
  | '\x0c' => ['\\', 'f']
  | '\r' => ['\\', 'r']
  | other =>
    if other.toNat < 0x20 then
      ['\\', 'u', '0', '0', hexDigit (other.toNat / 16), hexDigit (other.toNat % 16)]
    else [other]

def string (text : String) : List Char :=
  '"' :: text.toList.flatMap escapeChar ++ ['"']

mutual

def Value.compactChars : Value → List Char
  | .null => "null".toList
  | .number value => Nat.toDigits 10 value
  | .text value => string value
  | .list items => '[' :: compactItems items
  | .object members => '\x7b' :: compactMembers members

/-- The items of a list up to its end. -/
def compactItems : List Value → List Char
  | [] => [']']
  | [item] => item.compactChars ++ [']']
  | item :: next :: rest => item.compactChars ++ ',' :: compactItems (next :: rest)

/-- The members of an object up to its end. -/
def compactMembers : List (String × Value) → List Char
  | [] => ['\x7d']
  | [(name, value)] => string name ++ ':' :: value.compactChars ++ ['\x7d']
  | (name, value) :: next :: rest =>
    string name ++ ':' :: value.compactChars ++ ',' :: compactMembers (next :: rest)

end

def newLine (depth : Nat) : List Char := '\n' :: List.replicate (2 * depth) ' '

mutual

def Value.prettyChars (depth : Nat) : Value → List Char
  | .null => "null".toList
  | .number value => Nat.toDigits 10 value
  | .text value => string value
  | .list [] => ['[', ']']
  | .list (item :: rest) => '[' :: prettyItems depth (item :: rest)
  | .object [] => ['\x7b', '\x7d']
  | .object (member :: rest) => '\x7b' :: prettyMembers depth (member :: rest)

/-- The items of a list up to its end; `depth` is that of the list. -/
def prettyItems (depth : Nat) : List Value → List Char
  | [] => newLine depth ++ [']']
  | [item] => newLine (depth + 1) ++ item.prettyChars (depth + 1) ++ newLine depth ++ [']']
  | item :: next :: rest =>
    newLine (depth + 1) ++ item.prettyChars (depth + 1) ++ ',' :: prettyItems depth (next :: rest)

/-- The members of an object up to its end; `depth` is that of the object. -/
def prettyMembers (depth : Nat) : List (String × Value) → List Char
  | [] => newLine depth ++ ['\x7d']
  | [(name, value)] =>
    newLine (depth + 1) ++ string name ++ ':' :: ' ' :: value.prettyChars (depth + 1) ++
      newLine depth ++ ['\x7d']
  | (name, value) :: next :: rest =>
    newLine (depth + 1) ++ string name ++ ':' :: ' ' :: value.prettyChars (depth + 1) ++
      ',' :: prettyMembers depth (next :: rest)

end

def Value.compact (value : Value) : String := String.ofList value.compactChars

def Value.pretty (value : Value) : String := String.ofList (value.prettyChars 0)

end PositionSync.Json
