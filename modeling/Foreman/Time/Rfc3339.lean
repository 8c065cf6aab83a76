/-
# Written instants

An instant is written in universal time with the letter Z, and its fraction of a second with
no, three, six or nine digits, whichever is the first that keeps it.  A year outside 0 to 9999
carries a sign.

Reading is freer: fields may be one digit short, blanks may stand before fields and their dashes
and colons, the day and the time may be separated by T, t or a space, and the zone may be Z, z,
UTC or an offset whose sign may be U+2212 and whose colon may be missing.

What is written is read back as it was, but for a leap second that does not end a minute
(`Foreman.Proofs.Time.Rfc3339`), so documents keep their instants.
-/
import Foreman.Text.Blank
import Foreman.Text.Search
import Foreman.Number.Decimal
import Foreman.Time.Instant

namespace Foreman
namespace Rfc3339

/-! ## 1. Writing

The calendar date of the day, the clock of the second, and the fraction.  A leap second counts on
to the next second on the clock. -/

/-- The year: four digits, or a sign and at least four digits. -/
def writeYear (year : Int) : String :=
  if 0 ≤ year ∧ year ≤ 9999 then Text.padded 4 year.natAbs
  else (if year < 0 then "-" else "+") ++ Text.padded 4 year.natAbs

/-- The fraction of a second. -/
def writeFraction (nanos : Nat) : String :=
  if nanos = 0 then ""
  else if nanos % 1000000 = 0 then "." ++ Text.padded 3 (nanos / 1000000)
  else if nanos % 1000 = 0 then "." ++ Text.padded 6 (nanos / 1000)
  else "." ++ Text.padded 9 nanos

/-- The instant in universal time.  A leap second is written as the second behind it, which
is second 60 at the end of a minute. -/
def write (t : Instant) : String :=
  let date := CivilDate.ofDays t.day
  let leap := if 1000000000 ≤ t.nanos then 1 else 0
  writeYear date.year ++ "-" ++ Text.padded 2 date.month.natAbs ++ "-" ++
    Text.padded 2 date.day.natAbs ++ "T" ++
    Text.padded 2 (t.second / 3600) ++ ":" ++ Text.padded 2 (t.second / 60 % 60) ++ ":" ++
    Text.padded 2 (t.second % 60 + leap) ++ writeFraction (t.nanos % 1000000000) ++ "Z"

/-! ## 2. Reading

Field by field, each function handing back what follows.  The fields are put together at the end,
and an instant outside of the calendar is refused there. -/

/-- One to `most` digits: their value and what follows. -/
def number? (most : Nat) (cs : List Char) : Option (Nat × List Char) :=
  let digits := (cs.takeWhile Char.isDigit).take most
  if digits = [] then none else some (Text.digitsValue digits, cs.drop digits.length)

/-- A field of at most two digits, after blanks. -/
def field? (cs : List Char) : Option (Nat × List Char) := number? 2 (Text.dropBlanks cs)

/-- The year: up to four digits, or a sign and any digits. -/
def year? (cs : List Char) : Option (Int × List Char) :=
  match Text.dropBlanks cs with
  | '-' :: r => (number? r.length r).map fun (n, rest) => (-(n : Int), rest)
  | '+' :: r => (number? r.length r).map fun (n, rest) => ((n : Int), rest)
  | r => (number? 4 r).map fun (n, rest) => ((n : Int), rest)

/-- What follows a separator that may have blanks before it. -/
def mark? (sep : Char) (cs : List Char) : Option (List Char) :=
  match Text.dropBlanks cs with
  | c :: r => if c = sep then some r else none
  | [] => none

/-- The nanoseconds of a fraction: nine digits count, more are passed over. -/
def fraction? : List Char → Option (Nat × List Char)
  | '.' :: r =>
    let digits := (r.takeWhile Char.isDigit).take 9
    if digits = [] then none
    else
      some (Text.digitsValue digits * Nat.pow 10 (9 - digits.length), r.dropWhile Char.isDigit)
  | r => some (0, r)

/-- Two digits. -/
def twoDigits? : List Char → Option (Nat × List Char)
  | a :: b :: r =>
    match Text.digitValue? a, Text.digitValue? b with
    | some x, some y => some (10 * x + y, r)
    | _, _ => none
  | _ => none

/-- An offset after its sign, in seconds: hours, colons and blanks, minutes. -/
def offsetBody? (cs : List Char) : Option (Nat × List Char) :=
  match twoDigits? cs with
  | none => none
  | some (hours, r) =>
    match twoDigits? (r.dropWhile fun c => c = ':' || Text.isBlank c) with
    | none => none
    | some (minutes, rest) =>
      if minutes < 60 ∧ hours < 24 then some (hours * 3600 + minutes * 60, rest) else none

/-- The minus sign U+2212. -/
def minusSign : Char := '\u2212'

/-- The zone: seconds ahead of universal time, and what follows. -/
def zone? : List Char → Option (Int × List Char)
  | c :: r =>
    if c = 'Z' || c = 'z' then some (0, r)
    else if ((c :: r).take 3).map Char.toUpper = ['U', 'T', 'C'] then some (0, r.drop 2)
    else if c = '+' then (offsetBody? r).map fun (n, rest) => ((n : Int), rest)
    else if c = '-' || c = minusSign then (offsetBody? r).map fun (n, rest) => (-(n : Int), rest)
    else none
  | [] => none

/-- The date: year, month and day with dashes between them. -/
def date? (cs : List Char) : Option (CivilDate × List Char) := do
  let (year, r) ← year? cs
  let r ← mark? '-' r
  let (month, r) ← field? r
  let r ← mark? '-' r
  let (day, r) ← field? r
  return (⟨year, month, day⟩, r)

/-- A time of day. -/
structure Clock where
  hour : Nat
  minute : Nat
  second : Nat
  nanos : Nat
deriving DecidableEq, Repr

def Clock.isValid (c : Clock) : Bool := c.hour < 24 && c.minute < 60 && c.second ≤ 60

/-- The time: hour, minute and second with colons between them, and a fraction. -/
def clock? (cs : List Char) : Option (Clock × List Char) := do
  let (hour, r) ← field? cs
  let r ← mark? ':' r
  let (minute, r) ← field? r
  let r ← mark? ':' r
  let (second, r) ← field? r
  let (nanos, r) ← fraction? r
  return (⟨hour, minute, second, nanos⟩, r)

/-- The instant of a local date and time in a zone, if the calendar reaches it. -/
def instant? (date : CivilDate) (clock : Clock) (ahead : Int) : Option Instant :=
  if date.isValid && clock.isValid then
    let leap := clock.second = 60
    let second : Int :=
      clock.hour * 3600 + clock.minute * 60 + (if leap then 59 else clock.second) - ahead
    let day := date.toDays + second / 86400
    if CivilDate.firstDay ≤ day ∧ day ≤ CivilDate.lastDay then
      some ⟨day, (second % 86400).toNat, clock.nanos + (if leap then 1000000000 else 0)⟩
    else none
  else none

/-- The instant in a text. -/
def readChars? (cs : List Char) : Option Instant := do
  let (date, r) ← date? cs
  let r ←
    match r with
    | c :: r => if c = 'T' || c = 't' || c = ' ' then some r else none
    | [] => none
  let (clock, r) ← clock? r
  let (ahead, r) ← zone? (Text.dropBlanks r)
  if Text.allBlank r then instant? date clock ahead else none

def read? (s : String) : Option Instant := readChars? s.toList

end Rfc3339
end Foreman
