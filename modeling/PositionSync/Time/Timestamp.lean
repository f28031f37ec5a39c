import PositionSync.Text.Basic

/-!
# Points in time

A point in time is written with its date, its time of day and the offset of its clock from universal
time. Reading is lenient: white space may stand around the parts, and leading zeros may be missing.
-/

namespace PositionSync

def isLeapYear (year : Int) : Bool :=
  year % 4 = 0 && (year % 100 ≠ 0 || year % 400 = 0)

def daysInMonth (year : Int) (month : Nat) : Nat :=
  match month with
  | 1 | 3 | 5 | 7 | 8 | 10 | 12 => 31
  | 4 | 6 | 9 | 11 => 30
  | 2 => if isLeapYear year then 29 else 28
  | _ => 0

structure Timestamp where
  year : Nat
  month : Nat
  day : Nat
  hour : Nat
  minute : Nat
  second : Nat
  nanosecond : Nat
  year_le : year ≤ 9999 := by decide
  month_le : 1 ≤ month ∧ month ≤ 12 := by decide
  day_le : 1 ≤ day ∧ day ≤ daysInMonth year month := by decide
  hour_lt : hour < 24 := by decide
  minute_lt : minute < 60 := by decide
  second_lt : second < 60 := by decide
  nanosecond_lt : nanosecond < 1000000000 := by decide
deriving DecidableEq

namespace Timestamp

def epoch : Timestamp := ⟨1970, 1, 1, 0, 0, 0, 0, by decide, by decide, by decide, by decide,
  by decide, by decide, by decide⟩

instance : Inhabited Timestamp := ⟨epoch⟩

/-- A number with at least `width` digits. -/
def padded (width number : Nat) : List Char :=
  let digits := Nat.toDigits 10 number
  List.replicate (width - digits.length) '0' ++ digits

/-- The fraction of a second in groups of three digits, as many as are needed. -/
def fraction (nanosecond : Nat) : List Char :=
  if nanosecond = 0 then []
  else if nanosecond % 1000000 = 0 then '.' :: padded 3 (nanosecond / 1000000)
  else if nanosecond % 1000 = 0 then '.' :: padded 6 (nanosecond / 1000)
  else '.' :: padded 9 nanosecond

def localChars (stamp : Timestamp) : List Char :=
  padded 4 stamp.year ++ '-' :: padded 2 stamp.month ++ '-' :: padded 2 stamp.day ++
    'T' :: padded 2 stamp.hour ++ ':' :: padded 2 stamp.minute ++ ':' :: padded 2 stamp.second ++
    fraction stamp.nanosecond

/-- A point in time with the short mark of universal time. -/
def render (stamp : Timestamp) : String := String.ofList (stamp.localChars ++ ['Z'])

/-- A point in time with the offset of universal time. -/
def renderWithOffset (stamp : Timestamp) : String :=
  String.ofList (stamp.localChars ++ "+00:00".toList)

/-- Build a point in time from its parts, if they make one. -/
def ofParts? (year month day hour minute second nanosecond : Nat) : Option Timestamp :=
  if year_le : year ≤ 9999 then
    if month_le : 1 ≤ month ∧ month ≤ 12 then
      if day_le : 1 ≤ day ∧ day ≤ daysInMonth year month then
        if hour_lt : hour < 24 then
          if minute_lt : minute < 60 then
            if second_lt : second < 60 then
              if nanosecond_lt : nanosecond < 1000000000 then
                some ⟨year, month, day, hour, minute, second, nanosecond, year_le, month_le,
                  day_le, hour_lt, minute_lt, second_lt, nanosecond_lt⟩
              else none
            else none
          else none
        else none
      else none
    else none
  else none

/-- The date that lies a number of days after the start of March of the year 0: its year, month and
day. Years are counted from March, so that the leap day is the last one. -/
def dateOfDays (days : Nat) : Nat × Nat × Nat :=
  let era := days / 146097
  let dayOfEra := days % 146097
  let yearOfEra :=
    (dayOfEra - dayOfEra / 1460 + dayOfEra / 36524 - dayOfEra / 146096) / 365
  let dayOfYear := dayOfEra - (365 * yearOfEra + yearOfEra / 4 - yearOfEra / 100)
  let shifted := (5 * dayOfYear + 2) / 153
  let month := if shifted < 10 then shifted + 3 else shifted - 9
  let year := yearOfEra + era * 400 + if month ≤ 2 then 1 else 0
  (year, month, dayOfYear - (153 * shifted + 2) / 5 + 1)

/-- The number of days from the start of March of the year 0 to the start of the year 1970. -/
def epochDays : Nat := 719468

/-- The point in time that lies a span after the start of the year 1970. -/
def ofEpoch (seconds nanosecond : Nat) : Timestamp :=
  let (year, month, day) := dateOfDays (seconds / 86400 + epochDays)
  let rest := seconds % 86400
  (ofParts? year month day (rest / 3600) (rest / 60 % 60) (rest % 60) nanosecond).getD epoch

/-! ## Reading -/

def skipSpace (chars : List Char) : List Char := chars.dropWhile Text.isWhiteSpace

/-- A number of one to `most` digits. -/
def digits? (most : Nat) (chars : List Char) : Option (Nat × List Char) :=
  let digits := (chars.takeWhile Char.isDigit).take most
  if digits.isEmpty then none
  else some (digits.foldl (fun value digit => value * 10 + (digit.toNat - '0'.toNat)) 0,
    chars.drop digits.length)

def number? (most : Nat) (chars : List Char) : Option (Nat × List Char) :=
  digits? most (skipSpace chars)

/-- A year behind white space: with a sign of any length, else of up to four digits. -/
def year? (chars : List Char) : Option (Int × List Char) :=
  match skipSpace chars with
  | '-' :: rest => (digits? rest.length rest).map fun (year, rest) => (-(year : Int), rest)
  | '+' :: rest => (digits? rest.length rest).map fun (year, rest) => ((year : Int), rest)
  | chars => (digits? 4 chars).map fun (year, rest) => ((year : Int), rest)

def separator? (separator : Char) (chars : List Char) : Option (List Char) :=
  match skipSpace chars with
  | char :: rest => if char = separator then some rest else none
  | [] => none

/-- What stands between the date and the time of day: a letter or one space. -/
def dateEnd? : List Char → Option (List Char)
  | char :: rest =>
    if char = 'T' ∨ char = 't' ∨ char = ' ' then some rest else none
  | [] => none

def fractionEnd? : List Char → Option (List Char)
  | '.' :: rest =>
    if rest.head?.any Char.isDigit then some (rest.dropWhile Char.isDigit) else none
  | chars => some chars

def twoDigits? : List Char → Option (Nat × List Char)
  | first :: second :: rest => do
    if first.isDigit && second.isDigit then
      return ((first.toNat - '0'.toNat) * 10 + (second.toNat - '0'.toNat), rest)
    else none
  | _ => none

/-- The size in seconds of an offset, behind its sign. -/
def offsetSize? (chars : List Char) : Option (Nat × List Char) := do
  let (hours, rest) ← twoDigits? chars
  let (minutes, rest) ←
    twoDigits? (rest.dropWhile fun char => char = ':' || Text.isWhiteSpace char)
  if minutes < 60 then return (hours * 3600 + minutes * 60, rest) else none

/-- The offset of a clock from universal time in seconds. -/
def offset? (chars : List Char) : Option (Int × List Char) :=
  if (chars.take 3).map Char.toUpper = "UTC".toList then some (0, chars.drop 3)
  else match chars with
  | 'Z' :: rest | 'z' :: rest => some (0, rest)
  | '+' :: rest => (offsetSize? rest).map fun (size, rest) => ((size : Int), rest)
  | '-' :: rest | '\u2212' :: rest =>
    (offsetSize? rest).map fun (size, rest) => (-(size : Int), rest)
  | _ => none

def firstYear : Int := -262143

def lastYear : Int := 262142

/-- Whether a time of day with an offset still lies between the first and the last day. -/
def isInRange (year : Int) (month day secondOfDay : Nat) (offset : Int) : Bool :=
  firstYear ≤ year && year ≤ lastYear &&
    !(year = firstYear && month = 1 && day = 1 && secondOfDay < offset) &&
    !(year = lastYear && month = 12 && day = 31 && 86400 ≤ secondOfDay - offset)

/-- Whether a text is a point in time. A leap second, 60, belongs to the second before it. -/
def accepts (text : String) : Bool :=
  let read : Option Bool := do
    let (year, rest) ← year? text.toList
    let rest ← separator? '-' rest
    let (month, rest) ← number? 2 rest
    let rest ← separator? '-' rest
    let (day, rest) ← number? 2 rest
    let rest ← dateEnd? rest
    let (hour, rest) ← number? 2 rest
    let rest ← separator? ':' rest
    let (minute, rest) ← number? 2 rest
    let rest ← separator? ':' rest
    let (second, rest) ← number? 2 rest
    let rest ← fractionEnd? rest
    let (offset, rest) ← offset? (skipSpace rest)
    return (skipSpace rest).isEmpty && 1 ≤ day && day ≤ daysInMonth year month && hour < 24 &&
      minute < 60 && second ≤ 60 && -86400 < offset && offset < 86400 &&
      isInRange year month day (hour * 3600 + minute * 60 + min second 59) offset
  read.getD false

end Timestamp

end PositionSync
