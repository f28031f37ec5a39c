/-!
# Unsigned decimal numbers

Positions are kept as decimal text. Reading allows one leading plus sign and reports the first fault
from the left.
-/

namespace PositionSync.Decimal

inductive Fault where
  | empty
  | invalidDigit
  | tooLarge
deriving DecidableEq

def Fault.message : Fault → String
  | .empty => "cannot parse integer from empty string"
  | .invalidDigit => "invalid digit found in string"
  | .tooLarge => "number too large to fit in target type"

def digit? (char : Char) : Option Nat :=
  if '0' ≤ char ∧ char ≤ '9' then some (char.toNat - '0'.toNat) else none

/-- Read further digits behind the number read so far, which may not exceed `largest`. -/
def readDigits (largest : Nat) : Nat → List Char → Except Fault Nat
  | number, [] => .ok number
  | number, char :: rest =>
    match digit? char with
    | none => .error .invalidDigit
    | some digit =>
      if number * 10 + digit ≤ largest then readDigits largest (number * 10 + digit) rest
      else .error .tooLarge

/-- Read a number of at most `largest`. -/
def parse (largest : Nat) (text : String) : Except Fault Nat :=
  match text.toList with
  | [] => .error .empty
  | ['+'] => .error .invalidDigit
  | '+' :: digits => readDigits largest 0 digits
  | digits => readDigits largest 0 digits

def largest64 : Nat := 0xFFFFFFFFFFFFFFFF

def render (number : Nat) : String := Nat.repr number

end PositionSync.Decimal
