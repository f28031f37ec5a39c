import PositionSync.Text.Utf8

/-!
# Splitting off lines

A line ends with a line feed, a carriage return, or both in this order. A carriage return at the very
end of the data is left alone until the next octet shows what it is.
-/

namespace PositionSync

/-- A line and the number of octets that it took with its terminator. -/
structure SplitLine where
  text : String
  used : Nat
deriving DecidableEq

def lineFeed : UInt8 := 0x0A

def carriageReturn : UInt8 := 0x0D

/-- The octets before the first terminator and the number of octets up to its end. -/
def splitOctets? : List UInt8 → Option (List UInt8 × Nat)
  | [] => none
  | octet :: rest =>
    if octet = lineFeed then some ([], 1)
    else if octet = carriageReturn then
      match rest with
      | [] => none
      | next :: _ => some ([], if next = lineFeed then 2 else 1)
    else (splitOctets? rest).map fun (line, used) => (octet :: line, used + 1)

def splitLine? (data : List UInt8) : Option SplitLine :=
  (splitOctets? data).map fun (line, used) => ⟨Utf8.decodeLossy line, used⟩

/-- The complete lines of the data, at most `limit` of them, and what is left. -/
def splitLines : Nat → List UInt8 → List SplitLine × List UInt8
  | 0, data => ([], data)
  | limit + 1, data =>
    match splitLine? data with
    | none => ([], data)
    | some line =>
      let (others, rest) := splitLines limit (data.drop line.used)
      (line :: others, rest)

/-- All complete lines of the data and what is left. A line takes at least one octet. -/
def allLines (data : List UInt8) : List SplitLine × List UInt8 := splitLines data.length data

end PositionSync
