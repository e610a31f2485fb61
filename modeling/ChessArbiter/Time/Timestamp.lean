import ChessArbiter.Text.Blank
import ChessArbiter.Text.Numeral
import ChessArbiter.Time.Instant

/-! # Timestamps

Timestamps are written as in RFC 3339, in UTC with the suffix `Z`, with three, six or nine digits of
the second's fraction where it has one, the fewest that are exact. A year outside 0 to 9999 carries
a sign.

Reading is more lenient than that format: blanks may stand before the numbers and their separators,
the parts after the year may have one digit, the year any number of digits after a sign, and the
offset blanks or colons between hours and minutes. An offset is required. A second numbered 60 is a
leap second.
-/

namespace ChessArbiter

namespace Date

/-- The text of a year: four digits, or a sign and at least four digits. -/
def writeYear (year : Int) : List Char :=
  if 0 ≤ year ∧ year ≤ 9999 then Text.padded 4 year.natAbs
  else (if year < 0 then '-' else '+') :: Text.padded 4 year.natAbs

def write (date : Date) : List Char :=
  writeYear date.year ++ '-' :: Text.padded 2 date.month ++ '-' :: Text.padded 2 date.day

end Date

namespace Instant

/-- The digits of a second's fraction after a point, or nothing where it is zero. -/
def writeFraction (nano : Nat) : List Char :=
  if nano = 0 then []
  else if nano % 1000000 = 0 then '.' :: Text.padded 3 (nano / 1000000)
  else if nano % 1000 = 0 then '.' :: Text.padded 6 (nano / 1000)
  else '.' :: Text.padded 9 nano

/-- The timestamp of an instant. -/
def write (instant : Instant) : List Char :=
  let secondOfDay := (instant.second % 86400).toNat
  let second := secondOfDay % 60 + if instant.leap then 1 else 0
  (Date.ofDays (instant.second / 86400)).write ++
    'T' :: Text.padded 2 (secondOfDay / 3600) ++
    ':' :: Text.padded 2 (secondOfDay / 60 % 60) ++
    ':' :: Text.padded 2 second ++ writeFraction instant.nano.val ++ ['Z']

def toText (instant : Instant) : String :=
  String.ofList instant.write

end Instant

namespace Timestamp

def skipBlank (text : List Char) : List Char :=
  text.dropWhile Text.isBlank

/-- A run of at least one and at most `width` digits. -/
def number? (width : Nat) (text : List Char) : Option (Nat × List Char) :=
  let run := (text.take width).takeWhile Char.isDigit
  if run.isEmpty then none else some (Nat.ofDigitChars 10 run 0, text.drop run.length)

/-- A run of digits after blanks, whose value lies within the given limits. -/
def part? (low high : Nat) (text : List Char) : Option (Nat × List Char) :=
  (number? 2 (skipBlank text)).filter fun (value, _) => low ≤ value && value ≤ high

/-- A year after blanks: up to four digits, or a sign and any number of digits. -/
def year? (text : List Char) : Option (Int × List Char) :=
  match skipBlank text with
  | '-' :: text => (number? text.length text).map fun (value, rest) => (-(value : Int), rest)
  | '+' :: text => (number? text.length text).map fun (value, rest) => ((value : Int), rest)
  | text => (number? 4 text).map fun (value, rest) => ((value : Int), rest)

/-- The given character after blanks. -/
def mark? (c : Char) (text : List Char) : Option (List Char) :=
  match skipBlank text with
  | head :: rest => if head = c then some rest else none
  | [] => none

/-- A point and digits, in nanoseconds; digits after the ninth are dropped. -/
def fraction? : List Char → Option (Nat × List Char)
  | '.' :: text => do
    let (value, rest) ← number? 9 text
    let scale := Nat.pow 10 (9 - (text.length - rest.length))
    return (value * scale, rest.dropWhile Char.isDigit)
  | text => some (0, text)

/-- Two digits of an offset, up to the given value. -/
def offsetPart? (high : Nat) : List Char → Option (Nat × List Char)
  | a :: b :: rest =>
    (Text.digitsValue? [a, b]).bind fun value => if value ≤ high then some (value, rest) else none
  | _ => none

/-- The hours and minutes of an offset, in seconds. -/
def offsetMagnitude? (text : List Char) : Option (Int × List Char) := do
  let (hours, rest) ← offsetPart? 99 text
  let (minutes, rest) ← offsetPart? 59 (rest.dropWhile fun c => c == ':' || Text.isBlank c)
  return ((hours * 3600 + minutes * 60 : Nat), rest)

/-- An offset from UTC in seconds: `Z`, `UTC` in any case, or a sign, hours and minutes. -/
def offset? (text : List Char) : Option (Int × List Char) :=
  if Text.lowerAscii (text.take 3) = ['u', 't', 'c'] then some (0, text.drop 3)
  else
    match text with
    | 'Z' :: rest => some (0, rest)
    | 'z' :: rest => some (0, rest)
    | '+' :: rest => offsetMagnitude? rest
    | '-' :: rest => (offsetMagnitude? rest).map fun (seconds, rest) => (-seconds, rest)
    | '\u2212' :: rest => (offsetMagnitude? rest).map fun (seconds, rest) => (-seconds, rest)
    | _ => none

/-- A date that exists. -/
def date? (text : List Char) : Option (Date × List Char) := do
  let (year, rest) ← year? text
  let rest ← mark? '-' rest
  let (month, rest) ← part? 1 12 rest
  let rest ← mark? '-' rest
  let (day, rest) ← part? 1 31 rest
  let date : Date := ⟨year, month, day⟩
  if date.Valid then some (date, rest) else none

/-- The letter or the space between a date and its time. -/
def separator? : List Char → Option (List Char)
  | c :: rest => if c == 'T' || c == 't' || c == ' ' then some rest else none
  | [] => none

/-- A time of day: hours, minutes, seconds up to 60 and nanoseconds. -/
def clock? (text : List Char) : Option ((Nat × Nat × Nat × Nat) × List Char) := do
  let (hour, rest) ← part? 0 23 text
  let rest ← mark? ':' rest
  let (minute, rest) ← part? 0 59 rest
  let rest ← mark? ':' rest
  let (second, rest) ← part? 0 60 rest
  let (nano, rest) ← fraction? rest
  return ((hour, minute, second, nano), rest)

/-- The instant that a timestamp names, where it and its local date both have a date. -/
def read? (text : List Char) : Option Instant := do
  let (date, rest) ← date? text
  let rest ← separator? rest
  let ((hour, minute, second, nano), rest) ← clock? rest
  let (offset, rest) ← offset? (skipBlank rest)
  let leap := second == 60
  let timeOfDay : Nat := hour * 3600 + minute * 60 + if leap then 59 else second
  let localTime : Instant := ⟨date.toDays * 86400 + timeOfDay, leap, Instant.part nano⟩
  let instant := { localTime with second := localTime.second - offset }
  if (skipBlank rest).isEmpty ∧ offset.natAbs < 86400 ∧ localTime.InRange ∧ instant.InRange then
    some instant
  else none

end Timestamp

end ChessArbiter
