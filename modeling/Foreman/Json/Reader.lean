/-
# Reading JSON

A value is read from the front of a text and what follows it is handed back.  The depth of the
recursion is bounded by a count that starts above the length of the text, and every step takes
at least one character, so the count is never the reason for a refusal.

A whole number of 64 bits is kept as it is, so it is never rounded on its way through a
document.
-/
import Foreman.Json.Basic

namespace Foreman
namespace Json

/-- The four characters between which tokens may be apart. -/
def isSpace (c : Char) : Bool := c = ' ' || c = '\n' || c = '\t' || c = '\r'

def skipSpace (cs : List Char) : List Char := cs.dropWhile isSpace

/-! ## 1. Texts

An escape is a letter or a number; two numbers may be the halves of one character.  A half
without the other names no character, and a text with one is read to its end before it is
refused, as it may be passed over. -/

/-- The value of a hexadecimal digit. -/
def hexValue? (c : Char) : Option Nat :=
  if c.isDigit then some (c.toNat - '0'.toNat)
  else if 'a' ≤ c ∧ c ≤ 'f' then some (c.toNat - 'a'.toNat + 10)
  else if 'A' ≤ c ∧ c ≤ 'F' then some (c.toNat - 'A'.toNat + 10)
  else none

/-- Four hexadecimal digits. -/
def hexUnit? : List Char → Option (Nat × List Char)
  | a :: b :: c :: d :: rest => do
    let a ← hexValue? a
    let b ← hexValue? b
    let c ← hexValue? c
    let d ← hexValue? d
    return (((a * 16 + b) * 16 + c) * 16 + d, rest)
  | _ => none

/-- The character of a one-letter escape. -/
def shortEscape? (c : Char) : Option Char :=
  if c = '"' then some '"'
  else if c = '\\' then some '\\'
  else if c = '/' then some '/'
  else if c = 'b' then some '\x08'
  else if c = 'f' then some '\x0c'
  else if c = 'n' then some '\n'
  else if c = 'r' then some '\r'
  else if c = 't' then some '\t'
  else none

/-- The second half of a surrogate pair, if it follows. -/
def lowHalf? : List Char → Option (Nat × List Char)
  | '\\' :: 'u' :: rest =>
    match hexUnit? rest with
    | some (n, rest) => if 0xDC00 ≤ n ∧ n ≤ 0xDFFF then some (n, rest) else none
    | none => none
  | _ => none

/-- The characters of a text up to its closing quote, last one first in `acc`; the flag tells
that an escape named no character. -/
def textBody? : Nat → Bool → List Char → List Char → Option (Option String × List Char)
  | 0, _, _, _ => none
  | _ + 1, _, _, [] => none
  | _ + 1, broken, acc, '"' :: rest =>
    some (if broken then none else some (String.ofList acc.reverse), rest)
  | fuel + 1, broken, acc, '\\' :: 'u' :: rest =>
    match hexUnit? rest with
    | none => none
    | some (n, rest) =>
      if 0xD800 ≤ n ∧ n ≤ 0xDBFF then
        match lowHalf? rest with
        | some (low, rest) =>
          textBody? fuel broken
            (Char.ofNat (0x10000 + (n - 0xD800) * 0x400 + (low - 0xDC00)) :: acc) rest
        | none => textBody? fuel true acc rest
      else if 0xDC00 ≤ n ∧ n ≤ 0xDFFF then textBody? fuel true acc rest
      else textBody? fuel broken (Char.ofNat n :: acc) rest
  | fuel + 1, broken, acc, '\\' :: c :: rest =>
    match shortEscape? c with
    | some d => textBody? fuel broken (d :: acc) rest
    | none => none
  | fuel + 1, broken, acc, c :: rest =>
    if c.toNat < 0x20 || c = '\\' then none else textBody? fuel broken (c :: acc) rest

/-! ## 2. Numbers

The parts of a number one by one.  Whole numbers that fit 64 bits are kept as such, and
everything else as a decimal, which is taken for a double where one is asked for. -/

/-- The whole part of a number: a zero that stands alone, or digits that start with another. -/
def wholePart? (cs : List Char) : Option (List Char × List Char) :=
  match Text.spanDigits cs with
  | ([], _) => none
  | ('0' :: _ :: _, _) => none
  | (digits, rest) => some (digits, rest)

/-- The digits behind a point, if there is one; a point needs digits. -/
def fractionPart? : List Char → Option (List Char × List Char)
  | '.' :: cs =>
    match Text.spanDigits cs with
    | ([], _) => none
    | (digits, rest) => some (digits, rest)
  | cs => some ([], cs)

/-- A power of ten, if there is one.  It is cut at nine digits, far beyond any double. -/
def powerPart? : List Char → Option (Option Int × List Char)
  | c :: cs =>
    if c = 'e' || c = 'E' then
      let (negative, digits, rest) :=
        match cs with
        | '-' :: r => (true, Text.spanDigits r)
        | '+' :: r => (false, Text.spanDigits r)
        | r => (false, Text.spanDigits r)
      if digits = [] then none
      else
        let size : Int := min (Text.digitsValue digits) 999999999
        some (some (if negative then -size else size), rest)
    else some (none, c :: cs)
  | [] => some (none, [])

/-- A number after its sign. -/
def number? (negative : Bool) (cs : List Char) : Option (Json × List Char) := do
  let (whole, r) ← wholePart? cs
  let (fraction, r) ← fractionPart? r
  let (power, r) ← powerPart? r
  let n := Text.digitsValue whole
  let plain := fraction = [] && power = none
  let value :=
    if plain && !negative && n < Text.bound64 then .integer n
    else if plain && negative && 0 < n && n ≤ Text.half64 then .integer (-(n : Int))
    else .decimal
      ⟨negative, Text.digitsValue (whole ++ fraction), power.getD 0 - fraction.length⟩
  return (value, r)

/-! ## 3. Values

By mutual recursion on the count: a value may be a list or a record, whose items and fields are
values again. -/

/-- What follows one of the three words. -/
def word? (word : List Char) (value : Json) (cs : List Char) : Option (Json × List Char) :=
  match word, cs with
  | [], rest => some (value, rest)
  | w :: ws, c :: rest => if w = c then word? ws value rest else none
  | _ :: _, [] => none

/-- The record of the fields read; without a readable key it cannot be taken. -/
def ofFields (fields : List (Option String × Json)) : Json :=
  match fields.mapM fun (k, v) => k.map (·, v) with
  | some fields => .record fields
  | none => .unreadable

mutual
/-- A value, with blanks before it. -/
def value? : Nat → List Char → Option (Json × List Char)
  | 0, _ => none
  | fuel + 1, cs =>
    match skipSpace cs with
    | [] => none
    | '"' :: r =>
      (textBody? (r.length + 1) false [] r).map fun (s, rest) =>
        (match s with
          | some s => .text s
          | none => .unreadable, rest)
    | '[' :: r =>
      match skipSpace r with
      | ']' :: rest => some (.list [], rest)
      | r => (items? fuel r).map fun (items, rest) => (.list items, rest)
    | '\x7b' :: r =>
      match skipSpace r with
      | '\x7d' :: rest => some (.record [], rest)
      | r => (fields? fuel r).map fun (fields, rest) => (ofFields fields, rest)
    | 'n' :: r => word? ['u', 'l', 'l'] .null r
    | 't' :: r => word? ['r', 'u', 'e'] (.bool true) r
    | 'f' :: r => word? ['a', 'l', 's', 'e'] (.bool false) r
    | '-' :: r => number? true r
    | r => number? false r

/-- The items of a list up to its closing bracket; there is at least one. -/
def items? : Nat → List Char → Option (List Json × List Char)
  | 0, _ => none
  | fuel + 1, cs =>
    match value? fuel cs with
    | none => none
    | some (item, r) =>
      match skipSpace r with
      | ']' :: rest => some ([item], rest)
      | ',' :: r => (items? fuel r).map fun (items, rest) => (item :: items, rest)
      | _ => none

/-- The fields of a record up to its closing brace; there is at least one. -/
def fields? : Nat → List Char → Option (List (Option String × Json) × List Char)
  | 0, _ => none
  | fuel + 1, cs =>
    match skipSpace cs with
    | '"' :: r =>
      match textBody? (r.length + 1) false [] r with
      | none => none
      | some (key, r) =>
        match skipSpace r with
        | ':' :: r =>
          match value? fuel r with
          | none => none
          | some (value, r) =>
            match skipSpace r with
            | '\x7d' :: rest => some ([(key, value)], rest)
            | ',' :: r =>
              (fields? fuel r).map fun (fields, rest) => ((key, value) :: fields, rest)
            | _ => none
        | _ => none
    | _ => none
end

/-- The value of a text that holds one value and blanks. -/
def readChars? (cs : List Char) : Option Json :=
  match value? (cs.length + 1) cs with
  | some (value, rest) => if rest.all isSpace then some value else none
  | none => none

def read? (s : String) : Option Json := readChars? s.toList

end Json
end Foreman
