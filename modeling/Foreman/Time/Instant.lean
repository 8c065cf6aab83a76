/-
# Instants

A point of universal time: a day, a second of that day, and nanoseconds.  During a leap second
the second stays what it was and the nanoseconds run on from 1000000000 to 1999999999, so the
order of instants is the order of their parts.

The sum of an instant and a span may lie behind the last instant there is, and then there is
none (`Instant.add?`).  No clock shows a leap second, but a document may name one, so instants
with one are ordered and subtracted like all others.
-/
import Foreman.Time.Calendar
import Foreman.Time.Span

namespace Foreman

/-- A point of universal time. -/
structure Instant where
  /-- Days from 1 January 1970. -/
  day : Int
  /-- Seconds from midnight. -/
  second : Nat
  /-- Nanoseconds of that second; those of a leap second are counted on. -/
  nanos : Nat
deriving DecidableEq, Repr, Inhabited

namespace Instant

/-- The parts are in their ranges. -/
def IsValid (t : Instant) : Prop :=
  CivilDate.firstDay ≤ t.day ∧ t.day ≤ CivilDate.lastDay ∧ t.second < 86400 ∧
    t.nanos < 2000000000

/-- `a` is earlier than `b`. -/
def before (a b : Instant) : Bool :=
  a.day < b.day || (a.day = b.day &&
    (a.second < b.second || (a.second = b.second && a.nanos < b.nanos)))

/-- The order in time. -/
def order (a b : Instant) : Ordering :=
  if a.before b then .lt else if b.before a then .gt else .eq

/-- Seconds from the start of 1970, leap seconds not counted. -/
def unixSeconds (t : Instant) : Int := t.day * 86400 + t.second

/-- Nanoseconds from `b` to `a`.  A leap second that lies between the two counts. -/
def nanosSince (a b : Instant) : Int :=
  let leap : Int :=
    if b.second < a.second then (if 1000000000 ≤ b.nanos then 1 else 0)
    else if a.second < b.second then (if 1000000000 ≤ a.nanos then -1 else 0)
    else 0
  ((a.day - b.day) * 86400 + ((a.second : Int) - b.second + leap)) * 1000000000 +
    ((a.nanos : Int) - b.nanos)

/-- Whole seconds from `b` to `a`, toward zero. -/
def secondsSince (a b : Instant) : Int := (a.nanosSince b).tdiv 1000000000

/-- The instant a span later, if the calendar reaches it.  A span that ends inside the leap
second it started in stays there; any other leaves the leap second out. -/
def add? (t : Instant) (span : Span) : Option Instant :=
  if 1000000000 ≤ t.nanos ∧ span.seconds = 0 ∧ t.nanos + span.subsecond < 2000000000 then
    some { t with nanos := t.nanos + span.subsecond }
  else
    let nanos := t.nanos % 1000000000 + span.subsecond
    let second := t.second + span.seconds + nanos / 1000000000
    let day := t.day + (second / 86400 : Nat)
    if day ≤ CivilDate.lastDay then some ⟨day, second % 86400, nanos % 1000000000⟩ else none

end Instant

end Foreman
