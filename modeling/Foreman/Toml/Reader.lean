/-
# Reading TOML

A text is a list of lines: blank ones, comments, headers, and keys with values.  Lists, tables
between braces, and dotted keys are nested less than eighty deep.  A function for a part of the
text gives what it took and the rest.

The tables of a text come together in the order of its lines (`Foreman.Toml.Basic`), and a
header or a key that is not allowed any more refuses the text.
-/
import Foreman.Number.Decimal
import Foreman.Time.Calendar
import Foreman.Toml.Basic

namespace Foreman
namespace Toml

/-! ## 1. Blanks, line ends and comments

Blanks stand within a line, and what may stand between lines is passed over by `skipSpace`.  Each
line has to end where its value does, up to a comment. -/

def isGap (c : Char) : Bool := c = ' ' || c = '\t'

def skipGaps (cs : List Char) : List Char := cs.dropWhile isGap

/-- A character of a comment or of a text between quotes: a tab, or one that is no control
character. -/
def isPrintable (c : Char) : Bool := c = '\t' || (0x20 ≤ c.toNat && c.toNat ≠ 0x7F)

/-- What follows a line feed, which may have a carriage return in front. -/
def afterBreak? : List Char → Option (List Char)
  | '\n' :: rest => some rest
  | '\r' :: '\n' :: rest => some rest
  | _ => none

/-- What follows a comment, if there is one. -/
def skipComment : List Char → List Char
  | '#' :: rest => rest.dropWhile isPrintable
  | cs => cs

/-- What follows the rest of a line that holds nothing more than a comment. -/
def endOfLine? (cs : List Char) : Option (List Char) :=
  match skipComment (skipGaps cs) with
  | [] => some []
  | rest => afterBreak? rest

/-- Over blanks, line ends and comments. -/
def skipSpace : Nat → List Char → List Char
  | 0, cs => cs
  | fuel + 1, cs =>
    let rest := skipComment (skipGaps cs)
    match afterBreak? rest with
    | some rest => skipSpace fuel rest
    | none => rest

/-! ## 2. Texts

There are four kinds, single or tripled, with escapes or without, and the marks in front tell
which.  Only a tripled text goes over several lines. -/

def isHex (c : Char) : Bool :=
  c.isDigit || ('a' ≤ c && c ≤ 'f') || ('A' ≤ c && c ≤ 'F')

def hexValue (c : Char) : Nat :=
  if c.isDigit then c.toNat - '0'.toNat else (c.toNat ||| 0x20) - 'a'.toNat + 10

/-- The character with the number in hexadecimal digits, of that count. -/
def hexEscape? (count : Nat) (cs : List Char) : Option (Char × List Char) :=
  let digits := cs.take count
  if digits.length = count && digits.all isHex then
    let n := digits.foldl (fun n c => 16 * n + hexValue c) 0
    if n < 0xD800 ∨ (0xDFFF < n ∧ n < 0x110000) then some (Char.ofNat n, cs.drop count) else none
  else none

/-- The character of an escape, behind its backslash. -/
def escape? : List Char → Option (Char × List Char)
  | 'b' :: rest => some ('\x08', rest)
  | 'f' :: rest => some ('\x0c', rest)
  | 'n' :: rest => some ('\n', rest)
  | 'r' :: rest => some ('\r', rest)
  | 't' :: rest => some ('\t', rest)
  | '"' :: rest => some ('"', rest)
  | '\\' :: rest => some ('\\', rest)
  | 'u' :: rest => hexEscape? 4 rest
  | 'U' :: rest => hexEscape? 8 rest
  | _ => none

/-- The rest of a text between single quotation marks. -/
def literalBody? (cs : List Char) : Option (String × List Char) :=
  let body := cs.takeWhile fun c => isPrintable c && c ≠ '\''
  match cs.drop body.length with
  | '\'' :: rest => some (String.ofList body, rest)
  | _ => none

/-- The rest of a text between double quotation marks, behind what was read of it. -/
def basicBody? : Nat → List Char → List Char → Option (String × List Char)
  | 0, _, _ => none
  | _ + 1, _, [] => none
  | _ + 1, acc, '"' :: rest => some (String.ofList acc.reverse, rest)
  | fuel + 1, acc, '\\' :: rest =>
    match escape? rest with
    | some (c, rest) => basicBody? fuel (c :: acc) rest
    | none => none
  | fuel + 1, acc, c :: rest => if isPrintable c then basicBody? fuel (c :: acc) rest else none

/-- Whether a backslash stands in front of the end of a line. -/
def continues? (cs : List Char) : Option (List Char) := afterBreak? (skipGaps cs)

/-- Over blanks and line ends. -/
def skipLines : Nat → List Char → List Char
  | 0, cs => cs
  | fuel + 1, cs =>
    match afterBreak? (skipGaps cs) with
    | some rest => skipLines fuel rest
    | none => skipGaps cs

/-- The rest of a text between tripled quotation marks.  Up to two marks that are not followed
by a third belong to the text, also at its end.  A line end is a line feed; with escapes
(`quote` is the double mark), a backslash at the end of a line joins it to the next word. -/
def longBody? (quote : Char) : Nat → List Char → List Char → Option (String × List Char)
  | 0, _, _ => none
  | _ + 1, _, [] => none
  | fuel + 1, acc, c :: cs =>
    if c = quote then
      let run := (c :: cs).takeWhile (· = quote)
      let rest := (c :: cs).dropWhile (· = quote)
      if run.length < 3 then longBody? quote fuel (run ++ acc) rest
      else if run.length ≤ 5 then
        some (String.ofList (List.replicate (run.length - 3) quote ++ acc).reverse, rest)
      else none
    else if c = '\\' ∧ quote = '"' then
      match continues? cs with
      | some rest => longBody? quote fuel acc (skipLines (rest.length + 1) rest)
      | none =>
        match escape? cs with
        | some (e, rest) => longBody? quote fuel (e :: acc) rest
        | none => none
    else
      match afterBreak? (c :: cs) with
      | some rest => longBody? quote fuel ('\n' :: acc) rest
      | none => if isPrintable c then longBody? quote fuel (c :: acc) cs else none

/-- A long text behind its opening marks; a line end right there does not count. -/
def longText? (quote : Char) (cs : List Char) : Option (String × List Char) :=
  let body := (afterBreak? cs).getD cs
  longBody? quote (body.length + 1) [] body

/-- A text of any of the four kinds. -/
def text? : List Char → Option (String × List Char)
  | '"' :: '"' :: '"' :: rest => longText? '"' rest
  | '\'' :: '\'' :: '\'' :: rest => longText? '\'' rest
  | '"' :: rest => basicBody? (rest.length + 1) [] rest
  | '\'' :: rest => literalBody? rest
  | _ => none

/-! ## 3. Keys

A key is bare or a text, and its parts are joined by dots.  A deep key is refused, so that the
tables it opens stay within the limit. -/

/-- A letter, a digit, an underscore or a dash, of ASCII. -/
def isBareChar (c : Char) : Bool := c.isAlphanum || c = '_' || c = '-'

/-- One part of a key, with blanks around it. -/
def keyPart? (cs : List Char) : Option (String × List Char) :=
  let taken : Option (String × List Char) :=
    match skipGaps cs with
    | '"' :: rest => basicBody? (rest.length + 1) [] rest
    | '\'' :: rest => literalBody? rest
    | cs =>
      let name := cs.takeWhile isBareChar
      if name = [] then none else some (String.ofList name, cs.drop name.length)
  taken.map fun (name, rest) => (name, skipGaps rest)

/-- Nesting stays below this. -/
def depthLimit : Nat := 80

/-- The parts of a key with dots between them. -/
def keyParts? : Nat → List Char → Option (List String × List Char)
  | 0, _ => none
  | fuel + 1, cs =>
    match keyPart? cs with
    | none => none
    | some (name, '.' :: rest) =>
      (keyParts? fuel rest).map fun (names, rest) => (name :: names, rest)
    | some (name, rest) => some ([name], rest)

/-- A key: the path to its table, and its last part. -/
def key? (cs : List Char) : Option ((List String × String) × List Char) :=
  match keyParts? (depthLimit - 1) cs with
  | none => none
  | some (names, rest) => names.getLast?.map fun last => ((names.dropLast, last), rest)

/-! ## 4. Numbers

A number is read as a whole one if nothing follows its digits that makes it a fraction.  One that
no integer of 64 bits holds is refused, not rounded. -/

/-- Digits of a class, the first one and those behind it, with single underscores between them.
Returns them without the underscores. -/
def digitsOf? (isDigit : Char → Bool) : List Char → Option (List Char × List Char)
  | [] => none
  | c :: cs => if isDigit c then more c cs else none
where
  /-- What follows the digit `d`. -/
  more (d : Char) : List Char → Option (List Char × List Char)
    | '_' :: c :: cs => if isDigit c then (more c cs).map fun (ds, r) => (d :: ds, r) else none
    | c :: cs =>
      if isDigit c then (more c cs).map fun (ds, r) => (d :: ds, r)
      else if c = '_' then none
      else some ([d], c :: cs)
    | [] => some ([d], [])

/-- The sign in front of a number, and whether it is a minus. -/
def sign : List Char → Bool × List Char
  | '-' :: rest => (true, rest)
  | '+' :: rest => (false, rest)
  | cs => (false, cs)

/-- Decimal digits that do not start with a zero, or a zero alone. -/
def wholeDigits? : List Char → Option (List Char × List Char)
  | '0' :: rest => some (['0'], rest)
  | cs => digitsOf? Char.isDigit cs

/-- An integer of 64 bits. -/
def integer64? (n : Int) : Option Toml :=
  if -(Text.half64 : Int) ≤ n ∧ n < Text.half64 then some (.integer n) else none

/-- Digits of a base behind its mark. -/
def based? (base : Nat) (isDigit : Char → Bool) (cs : List Char) : Option (Toml × List Char) := do
  let (digits, rest) ← digitsOf? isDigit cs
  return (← integer64? (digits.foldl (fun (n : Int) c => base * n + hexValue c) 0), rest)

/-- The power of ten behind its mark. -/
def power? (cs : List Char) : Option (Int × List Char) := do
  let (negative, r) := sign cs
  let (digits, rest) ← digitsOf? Char.isDigit r
  let size : Int := min (Text.digitsValue digits) 999999999
  return (if negative then -size else size, rest)

/-- A number with a fraction.  One that is too large for a double is refused. -/
def float? (negative : Bool) (whole fraction : List Char) (power : Int) : Option Toml :=
  let x := Decimal.toFloat
    ⟨negative, Text.digitsValue (whole ++ fraction), power - fraction.length⟩
  if x.isInf && !negative then none else some (.float x)

/-- Whether a power of ten starts here. -/
def isPowerMark (c : Char) : Bool := c = 'e' || c = 'E'

/-- A decimal number after its sign. -/
def decimal? (negative : Bool) (cs : List Char) : Option (Toml × List Char) := do
  let (whole, r) ← wholeDigits? cs
  match r with
  | '.' :: r =>
    let (fraction, r) ← digitsOf? Char.isDigit r
    match r with
    | c :: r' =>
      if isPowerMark c then
        let (power, rest) ← power? r'
        return (← float? negative whole fraction power, rest)
      else return (← float? negative whole fraction 0, r)
    | [] => return (← float? negative whole fraction 0, r)
  | c :: r' =>
    if isPowerMark c then
      let (power, rest) ← power? r'
      return (← float? negative whole [] power, rest)
    else
      let n : Int := Text.digitsValue whole
      return (← integer64? (if negative then -n else n), r)
  | [] =>
    let n : Int := Text.digitsValue whole
    return (← integer64? (if negative then -n else n), r)

/-- A number, whose sign may stand in front of the names of infinity and of not a number too. -/
def number? : List Char → Option (Toml × List Char)
  | '0' :: 'x' :: rest => based? 16 isHex rest
  | '0' :: 'o' :: rest => based? 8 (fun c => '0' ≤ c && c ≤ '7') rest
  | '0' :: 'b' :: rest => based? 2 (fun c => c = '0' || c = '1') rest
  | cs =>
    let (negative, r) := sign cs
    match r with
    | 'i' :: 'n' :: 'f' :: rest =>
      some (.float (if negative then -1.0 / 0.0 else 1.0 / 0.0), rest)
    | 'n' :: 'a' :: 'n' :: rest => some (.float (0.0 / 0.0), rest)
    | r => decimal? negative r

/-! ## 5. Dates and times

No setting of the program is a date, so a date is recognised and not kept: what matters is where
it ends and that it is one. -/

/-- Exactly that many digits. -/
def fixedDigits? (count : Nat) (cs : List Char) : Option (Nat × List Char) :=
  let digits := cs.take count
  if digits.length = count && digits.all Char.isDigit then
    some (Text.digitsValue digits, cs.drop count)
  else none

/-- What follows a character. -/
def expect? (c : Char) : List Char → Option (List Char)
  | x :: rest => if x = c then some rest else none
  | [] => none

/-- What follows a date. -/
def afterDate? (cs : List Char) : Option (List Char) := do
  let (year, r) ← fixedDigits? 4 cs
  let r ← expect? '-' r
  let (month, r) ← fixedDigits? 2 r
  let r ← expect? '-' r
  let (day, rest) ← fixedDigits? 2 r
  if CivilDate.isValid ⟨year, month, day⟩ then return rest else none

/-- What follows hours and minutes. -/
def afterMinutes? (cs : List Char) : Option (List Char) := do
  let (hour, r) ← fixedDigits? 2 cs
  let r ← expect? ':' r
  let (minute, rest) ← fixedDigits? 2 r
  if hour ≤ 23 ∧ minute ≤ 59 then return rest else none

/-- What follows a time of day; its sixtieth second is a leap second. -/
def afterTime? (cs : List Char) : Option (List Char) := do
  let r ← expect? ':' (← afterMinutes? cs)
  let (second, rest) ← fixedDigits? 2 r
  if 60 < second then none
  else
    match rest with
    | '.' :: r => if (r.head?.any Char.isDigit) then return r.dropWhile Char.isDigit else none
    | rest => return rest

/-- What follows an offset from UTC, if there is one. -/
def afterOffset? : List Char → Option (List Char)
  | 'Z' :: rest => some rest
  | 'z' :: rest => some rest
  | '+' :: rest => afterMinutes? rest
  | '-' :: rest => afterMinutes? rest
  | rest => some rest

/-- What follows a time behind a date, if there is one. -/
def afterTimeOfDate? : List Char → Option (List Char)
  | c :: rest =>
    if c = 'T' || c = 't' || c = ' ' then
      match afterTime? rest with
      | some rest => afterOffset? rest
      | none => if c = ' ' then some (c :: rest) else none
    else some (c :: rest)
  | [] => some []

/-- A date, a time of day, or both. -/
def moment? (cs : List Char) : Option (Toml × List Char) :=
  match afterDate? cs with
  | some rest => (afterTimeOfDate? rest).map (Toml.moment, ·)
  | none => (afterTime? cs).map (Toml.moment, ·)

/-! ## 6. Values

The first character tells a text, a list or a table; what is left are words, dates and numbers,
in that order, as a date starts like a number. -/

/-- What follows one of the words of truth values. -/
def word? (word : List Char) (value : Toml) (cs : List Char) : Option (Toml × List Char) :=
  match word, cs with
  | [], rest => some (value, rest)
  | w :: ws, c :: rest => if w = c then word? ws value rest else none
  | _ :: _, [] => none

/-- A value that is no list and no table. -/
def simple? (cs : List Char) : Option (Toml × List Char) :=
  match cs with
  | [] => none
  | c :: _ =>
    if c = '"' || c = '\'' then (text? cs).map fun (s, rest) => (.text s, rest)
    else if c = 't' then word? "true".toList (.bool true) cs
    else if c = 'f' then word? "false".toList (.bool false) cs
    else if c.isDigit || c = '+' || c = '-' then (moment? cs).or (number? cs)
    else if c = 'i' || c = 'n' then number? cs
    else none

mutual
/-- A value.  Both numbers go down: how deep it may be nested, and the fuel. -/
def value? (depth : Nat) : Nat → List Char → Option (Toml × List Char)
  | 0, _ => none
  | fuel + 1, cs =>
    match cs with
    | '[' :: r => if depth = 0 then none else items? (depth - 1) fuel [] r
    | '\x7b' :: r =>
      if depth = 0 then none
      else
        match skipGaps r with
        | '\x7d' :: rest => some (.table .inline [], rest)
        | r => pairs? (depth - 1) fuel [] r
    | cs => simple? cs

/-- The items of a list up to its closing bracket, behind those that were read. -/
def items? (depth : Nat) : Nat → List Toml → List Char → Option (Toml × List Char)
  | 0, _, _ => none
  | fuel + 1, acc, cs =>
    match skipSpace (cs.length + 1) cs with
    | ']' :: rest => some (.list acc.reverse, rest)
    | r =>
      match value? depth fuel r with
      | none => none
      | some (item, r) =>
        match skipSpace (r.length + 1) r with
        | ',' :: r => items? depth fuel (item :: acc) r
        | ']' :: rest => some (.list (item :: acc).reverse, rest)
        | _ => none

/-- The keys and values of a table up to its closing brace, behind those that were read; there
is at least one more. -/
def pairs? (depth : Nat) : Nat → Entries → List Char → Option (Toml × List Char)
  | 0, _, _ => none
  | fuel + 1, acc, cs =>
    match key? cs with
    | some ((path, key), '=' :: r) =>
      match value? depth fuel (skipGaps r) with
      | none => none
      | some (value, r) =>
        match put path key value .header acc with
        | none => none
        | some acc =>
          match skipGaps r with
          | ',' :: r => pairs? depth fuel acc r
          | '\x7d' :: rest => some (.table .inline acc, rest)
          | _ => none
    | _ => none
end

/-! ## 7. Documents

A document is read line by line into the tables that stand so far, under the header that came
last. -/

/-- The header of the current table, and all tables. -/
structure Draft where
  header : List String := []
  entries : Entries := []
deriving Repr, Inhabited

/-- A header and the rest of its line. -/
def headerLine? (d : Draft) (cs : List Char) : Option (Draft × List Char) :=
  match cs with
  | '[' :: '[' :: r =>
    match key? r with
    | some ((path, key), ']' :: ']' :: r) => do
      let rest ← endOfLine? r
      let entries ← openRow path key d.entries
      return (⟨path ++ [key], entries⟩, rest)
    | _ => none
  | '[' :: r =>
    match key? r with
    | some ((path, key), ']' :: r) => do
      let rest ← endOfLine? r
      let entries ← openTable path key d.entries
      return (⟨path ++ [key], entries⟩, rest)
    | _ => none
  | _ => none

/-- A key with its value and the rest of its line. -/
def pairLine? (d : Draft) (cs : List Char) : Option (Draft × List Char) :=
  match key? cs with
  | some ((path, key), '=' :: r) => do
    let r := skipGaps r
    let (value, r) ← value? (depthLimit - 1) (2 * r.length + 2) r
    let rest ← endOfLine? r
    let entries ← putBelow d.header path key value d.entries
    return ({ d with entries := entries }, rest)
  | _ => none

/-- The lines of a document, one after the other. -/
def lines? : Nat → Draft → List Char → Option Draft
  | 0, _, _ => none
  | fuel + 1, d, cs =>
    match skipSpace (cs.length + 1) cs with
    | [] => some d
    | '[' :: r =>
      match headerLine? d ('[' :: r) with
      | some (d, rest) => lines? fuel d rest
      | none => none
    | r =>
      match pairLine? d r with
      | some (d, rest) => lines? fuel d rest
      | none => none

/-- The entries of the document; a mark of the byte order may stand in front. -/
def read? (s : String) : Option Entries :=
  let cs :=
    match s.toList with
    | '\uFEFF' :: rest => rest
    | cs => cs
  (lines? (cs.length + 1) {} cs).map Draft.entries

end Toml
end Foreman
