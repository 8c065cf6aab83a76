/-
# Sums

The value of an arithmetic expression, as it stands between double brackets.  Operators bind as
usual; a name stands for the number its variable holds, and may get another one.
-/
import Foreman.Text.Integer
import Foreman.Text.Search

namespace Foreman
namespace Shell
namespace Sum

/-- Operators with how strongly they bind; longer ones come first. -/
def operators : List (String × Nat) :=
  [("||", 1), ("&&", 2), ("<<", 8), (">>", 8), ("==", 6), ("!=", 6), ("<=", 7), (">=", 7),
    ("|", 3), ("^", 4), ("&", 5), ("<", 7), (">", 7), ("+", 9), ("-", 9), ("*", 10), ("/", 10),
    ("%", 10)]

/-- Operators that join the old value of a variable with a new one. -/
def updates : List (String × String) :=
  [("<<=", "<<"), (">>=", ">>"), ("+=", "+"), ("-=", "-"), ("*=", "*"), ("/=", "/"), ("%=", "%"),
    ("&=", "&"), ("|=", "|"), ("^=", "^")]

/-- Why an expression has no value. -/
inductive Fault where
  | primary
  | ending
  | zero
  /-- A variable that holds no number. -/
  | variable (value : String)
deriving DecidableEq, Repr, Inhabited

def Fault.message : Fault → String → String
  | primary, text => "arithmetic expression: expecting primary: \"" ++ text ++ "\""
  | ending, text => "arithmetic expression: expecting EOF: \"" ++ text ++ "\""
  | zero, text => "arithmetic expression: division by zero: \"" ++ text ++ "\""
  | .variable value, _ => "Illegal number: " ++ value

def ofBool (b : Bool) : Int := if b then 1 else 0

/-- A number of 64 bits as a signed one. -/
def wrap (n : Int) : Int :=
  let r := n.emod Text.bound64
  if r < Text.half64 then r else r - Text.bound64

/-- An operation on the bits of two numbers. -/
def onBits (f : Nat → Nat → Nat) (a b : Int) : Int :=
  wrap (f (a.emod Text.bound64).toNat (b.emod Text.bound64).toNat)

/-- The value of an operation; none for a division by zero. -/
def apply (op : String) (a b : Int) : Except Fault Int :=
  match op with
  | "||" => .ok (ofBool (a ≠ 0 || b ≠ 0))
  | "&&" => .ok (ofBool (a ≠ 0 && b ≠ 0))
  | "|" => .ok (onBits Nat.lor a b)
  | "^" => .ok (onBits Nat.xor a b)
  | "&" => .ok (onBits Nat.land a b)
  | "==" => .ok (ofBool (a = b))
  | "!=" => .ok (ofBool (a ≠ b))
  | "<=" => .ok (ofBool (a ≤ b))
  | ">=" => .ok (ofBool (b ≤ a))
  | "<" => .ok (ofBool (a < b))
  | ">" => .ok (ofBool (b < a))
  | "<<" => .ok (wrap (a * Nat.pow 2 (b.toNat % 64)))
  | ">>" => .ok (a.fdiv (Nat.pow 2 (b.toNat % 64)))
  | "+" => .ok (wrap (a + b))
  | "-" => .ok (wrap (a - b))
  | "*" => .ok (wrap (a * b))
  | "/" => if b = 0 then .error .zero else .ok (wrap (a.tdiv b))
  | "%" => if b = 0 then .error .zero else .ok (a.tmod b)
  | _ => .error .primary

def skip (cs : List Char) : List Char := cs.dropWhile fun c => c = ' ' || c = '\t' || c = '\n'

/-- The digits of a base up to ten. -/
def digitsOf (base : Nat) (cs : List Char) : Option Nat :=
  if cs ≠ [] && cs.all fun c => c.isDigit && c.toNat - '0'.toNat < base then
    some (cs.foldl (fun n c => base * n + (c.toNat - '0'.toNat)) 0)
  else none

/-- The value of a digit to base sixteen. -/
def hexDigit (c : Char) : Nat :=
  if c.isDigit then c.toNat - '0'.toNat else c.toLower.toNat - 'a'.toNat + 10

/-- An unsigned number: to base sixteen behind `0x`, to base eight behind a zero. -/
def unsigned? : List Char → Option Nat
  | '0' :: x :: cs =>
    if x = 'x' || x = 'X' then
      if cs ≠ [] && cs.all fun c => c.isDigit || ('a' ≤ c.toLower && c.toLower ≤ 'f') then
        some (cs.foldl (fun n c => 16 * n + hexDigit c) 0)
      else none
    else digitsOf 8 (x :: cs)
  | cs => digitsOf 10 cs

/-- The number that a text holds. -/
def number? (text : String) : Option Int :=
  match skip text.toList with
  | '-' :: cs => (unsigned? cs).map fun n => -(n : Int)
  | '+' :: cs => (unsigned? cs).map Int.ofNat
  | cs => (unsigned? cs).map Int.ofNat

/-- Variables that got a value, the last one first. -/
abbrev Changes := List (String × String)

/-- What is left to read after a part with that value. -/
abbrev Reading := Except Fault (Int × List Char × Changes)

/-- The value of a variable. -/
def lookUp (get : String → Option String) (done : Changes) (name : String) : Except Fault Int :=
  let value := ((done.lookup name).or (get name)).getD ""
  if value = "" then .ok 0
  else
    match number? value with
    | some n => .ok n
    | none => .error (.variable value)

/-- A name at the start of a text. -/
def nameOf : List Char → List Char
  | c :: cs =>
    if c.isAlpha || c = '_' then c :: cs.takeWhile fun c => c.isAlphanum || c = '_' else []
  | [] => []

mutual
/-- A number, a name, or an expression between brackets. -/
def atom (get : String → Option String) : Nat → Changes → List Char → Reading
  | 0, _, _ => .error .primary
  | fuel + 1, done, cs => do
    match skip cs with
    | '(' :: r =>
      let (n, r, done) ← whole get fuel done r
      match skip r with
      | ')' :: r => return (n, r, done)
      | _ => throw .primary
    | '-' :: r => let (n, r, done) ← atom get fuel done r; return (wrap (-n), r, done)
    | '+' :: r => atom get fuel done r
    | '!' :: r => let (n, r, done) ← atom get fuel done r; return (ofBool (n = 0), r, done)
    | '~' :: r => let (n, r, done) ← atom get fuel done r; return (-n - 1, r, done)
    | cs =>
      let digits := cs.takeWhile fun c => c.isAlphanum
      if (cs.head?).any Char.isDigit then
        match unsigned? digits with
        | some n => return (wrap n, cs.drop digits.length, done)
        | none => throw .ending
      else
        let name := nameOf cs
        if name = [] then throw .primary
        return (← lookUp get done (String.ofList name), cs.drop name.length, done)

/-- An expression whose operators bind at least as strongly as `least`. -/
def expression (get : String → Option String) : Nat → Nat → Changes → List Char → Reading
  | 0, _, _, _ => .error .primary
  | fuel + 1, least, done, cs => do
    let (a, r, done) ← atom get fuel done cs
    rest get fuel least a done r

def rest (get : String → Option String) : Nat → Nat → Int → Changes → List Char → Reading
  | 0, _, _, _, _ => .error .primary
  | fuel + 1, least, a, done, cs => do
    let cs := skip cs
    match operators.findSome? fun op =>
        (Text.afterPrefix? op.1.toList cs).map fun r => (op.1, op.2, r) with
    | some (op, strength, r) =>
      if strength < least then return (a, cs, done)
      -- what does not matter is read but has no effect
      let idle := (op = "||" && a ≠ 0) || (op = "&&" && a = 0)
      let (b, r, after) ← expression get fuel (strength + 1) done r
      let n ← apply op a b
      rest get fuel least n (if idle then done else after) r
    | none => return (a, cs, done)

/-- A choice between two expressions, or one of them. -/
def choice (get : String → Option String) : Nat → Changes → List Char → Reading
  | 0, _, _ => .error .primary
  | fuel + 1, done, cs => do
    let (n, r, done) ← expression get fuel 0 done cs
    match skip r with
    | '?' :: r =>
      let (a, r, afterA) ← whole get fuel done r
      match skip r with
      | ':' :: r =>
        let (b, r, afterB) ← choice get fuel done r
        return if n ≠ 0 then (a, r, afterA) else (b, r, afterB)
      | _ => throw .primary
    | _ => return (n, r, done)

/-- An assignment, or what stands for a value. -/
def whole (get : String → Option String) : Nat → Changes → List Char → Reading
  | 0, _, _ => .error .primary
  | fuel + 1, done, cs => do
    let cs := skip cs
    let name := nameOf cs
    let behind := skip (cs.drop name.length)
    let key := String.ofList name
    if name = [] then choice get fuel done cs
    else
      match behind with
      | '=' :: '=' :: _ => choice get fuel done cs
      | '=' :: r =>
        let (n, r, done) ← whole get fuel done r
        return (n, r, (key, toString n) :: done)
      | _ =>
        match updates.findSome? fun op =>
            (Text.afterPrefix? op.1.toList behind).map fun r => (op.2, r) with
        | some (op, r) =>
          let old ← lookUp get done key
          let (b, r, done) ← whole get fuel done r
          let n ← apply op old b
          return (n, r, (key, toString n) :: done)
        | none => choice get fuel done cs
end

/-- The value of a whole expression, and the variables it sets. -/
def value (get : String → Option String) (text : String) : Except Fault (Int × Changes) := do
  if skip text.toList = [] then return (0, [])
  let (n, r, done) ← whole get (8 * text.length + 16) [] text.toList
  if skip r = [] then return (n, done) else throw .ending

end Sum
end Shell
end Foreman
