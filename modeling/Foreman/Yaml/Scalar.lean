/-
# What a plain scalar stands for

A plain scalar is null, a truth value, a number or a text.  A number in decimal has no leading
zero; with a zero in front it is a text.
-/
import Foreman.Number.Decimal
import Foreman.Text.Search

namespace Foreman
namespace Yaml

/-- What a plain scalar stands for. -/
inductive Plain where
  | null
  | bool (b : Bool)
  | integer (n : Int)
  /-- An integer that no type here holds, or a number with a fraction. -/
  | otherNumber
  | text
deriving DecidableEq, Repr

/-- Digits after a leading zero, with an optional sign. -/
def isZeroPadded (cs : List Char) : Bool :=
  let digits :=
    match cs with
    | '-' :: r | '+' :: r => r
    | r => r
  match digits with
  | '0' :: d :: r => (d :: r).all Char.isDigit
  | _ => false

/-- The value of a digit in a base of at most sixteen. -/
def digitIn? (base : Nat) (c : Char) : Option Nat :=
  let value? : Option Nat :=
    if c.isDigit then some (c.toNat - '0'.toNat)
    else if 'a' ≤ c ∧ c ≤ 'f' then some (c.toNat - 'a'.toNat + 10)
    else if 'A' ≤ c ∧ c ≤ 'F' then some (c.toNat - 'A'.toNat + 10)
    else none
  match value? with
  | some v => if v < base then some v else none
  | none => none

/-- The value of at least one digit in a base. -/
def digitsIn? (base : Nat) (cs : List Char) : Option Nat :=
  if cs = [] then none
  else cs.foldl (fun acc c => acc.bind fun n => (digitIn? base c).map (base * n + ·)) (some 0)

/-- The value after the mark of a base, if the text has one. -/
def based? (cs : List Char) : Option Nat :=
  match cs with
  | '0' :: 'x' :: r => digitsIn? 16 r
  | '0' :: 'o' :: r => digitsIn? 8 r
  | '0' :: 'b' :: r => digitsIn? 2 r
  | _ => none

/-- An integer that is not negative, with an optional sign. -/
def unsigned? (cs : List Char) : Option Nat :=
  let body :=
    match cs with
    | '+' :: r => r
    | r => r
  match based? body with
  | some n => some n
  | none => if isZeroPadded cs then none else digitsIn? 10 body

/-- An integer with a minus sign. -/
def negative? (cs : List Char) : Option Nat :=
  match cs with
  | '-' :: body =>
    match based? body with
    | some n => some n
    | none => if isZeroPadded cs then none else digitsIn? 10 body
  | _ => none

def isNullWord (s : String) : Bool :=
  s = "" || s = "null" || s = "Null" || s = "NULL" || s = "~"

def boolWord? (s : String) : Option Bool :=
  if s = "true" || s = "True" || s = "TRUE" then some true
  else if s = "false" || s = "False" || s = "FALSE" then some false
  else none

/-- The names of infinity, with an optional sign, and of not a number. -/
def isSpecialFloat (s : String) : Bool :=
  [".inf", ".Inf", ".INF", "+.inf", "+.Inf", "+.INF", "-.inf", "-.Inf", "-.INF",
    ".nan", ".NaN", ".NAN"].contains s

/-- A decimal number that is finite as a double. -/
def isFiniteFloat (cs : List Char) : Bool :=
  let body :=
    match cs with
    | '+' :: '+' :: _ | '+' :: '-' :: _ => []
    | '+' :: r => r
    | '-' :: r => r
    | r => r
  match Text.unsignedDecimal? false body with
  | some d => d.toFinite?.isSome
  | none => false

/-- The greatest integers of 128 bits, unsigned and signed. -/
def bound128 : Nat := Nat.pow 2 128
def half128 : Nat := Nat.pow 2 127

/-- What a plain scalar stands for. -/
def plainValue (s : String) : Plain :=
  let cs := s.toList
  if isNullWord s then .null
  else
    match boolWord? s with
    | some b => .bool b
    | none =>
      match unsigned? cs, negative? cs with
      | some n, _ =>
        if n < Text.bound64 then .integer n
        else if n < bound128 then .otherNumber
        else floating s cs
      | none, some n =>
        if n ≤ Text.half64 then .integer (-(n : Int))
        else if n ≤ half128 then .otherNumber
        else floating s cs
      | none, none => floating s cs
where
  /-- A number with a fraction or a power, or a text. -/
  floating (s : String) (cs : List Char) : Plain :=
    if !isZeroPadded cs && (isSpecialFloat s || isFiniteFloat cs) then .otherNumber else .text

end Yaml
end Foreman
