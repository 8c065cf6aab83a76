/-
# Lengths of time

A span is a whole number of nanoseconds.  Its text names the largest unit it fills, seconds down
to nanoseconds, with as many places as it needs.
-/
import Foreman.Text.Integer

namespace Foreman

/-- A length of time in nanoseconds. -/
structure Span where
  nanos : Nat
deriving DecidableEq, Repr, Inhabited

namespace Span

def perSecond : Nat := 1000000000
def perMilli : Nat := 1000000

def ofSeconds (secs : Nat) : Span := ⟨secs * perSecond⟩

def ofMillis (ms : Nat) : Span := ⟨ms * perMilli⟩

/-- Whole seconds, and what is left of one. -/
def seconds (s : Span) : Nat := s.nanos / perSecond
def subsecond (s : Span) : Nat := s.nanos % perSecond

/-- Whole milliseconds. -/
def millis (s : Span) : Nat := s.nanos / perMilli

/-- The digits behind the point of `part` out of `10 ^ width`, without zeros at their end. -/
def fraction (width part : Nat) : String :=
  if part = 0 then ""
  else
    let digits := (Text.padded width part).toList
    "." ++ String.ofList (digits.reverse.dropWhile (· = '0')).reverse

/-- The span in the largest unit of which it has at least one. -/
def text (s : Span) : String :=
  if perSecond ≤ s.nanos then
    toString (s.nanos / perSecond) ++ fraction 9 (s.nanos % perSecond) ++ "s"
  else if perMilli ≤ s.nanos then
    toString (s.nanos / perMilli) ++ fraction 6 (s.nanos % perMilli) ++ "ms"
  else if 1000 ≤ s.nanos then
    toString (s.nanos / 1000) ++ fraction 3 (s.nanos % 1000) ++ "µs"
  else toString s.nanos ++ "ns"

/-- Seconds in decimal, with or without a fraction; what is below a nanosecond is cut. -/
def ofDecimal? (cs : List Char) : Option Span :=
  let whole := cs.takeWhile Char.isDigit
  let seconds := if whole = [] then some 0 else Text.digitsValue? 0 whole
  match cs.drop whole.length with
  | [] => if whole = [] then none else seconds.map ofSeconds
  | '.' :: fraction =>
    if whole = [] && fraction = [] then none
    else
      seconds.bind fun n =>
        (Text.digitsValue? 0 ((fraction ++ List.replicate 9 '0').take 9)).map fun f =>
          ⟨n * perSecond + f⟩
  | _ => none

end Span

end Foreman
