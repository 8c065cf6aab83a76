/-
# Writing YAML

A text becomes a scalar in the plainest style that reads back as the same text:

* a literal block if it has line feeds;
* single quotes if it would be read as something else than a text;
* otherwise plain, and if its characters do not allow that, single quotes;
* double quotes if nothing else can hold it.

Blocks are indented by two, a sequence in a mapping not at all, and lines are never folded.

The style of a text is chosen once, for the text as a whole, and the reader has to find the same
text in each of them (`Foreman.Proofs.Yaml`).
-/
import Foreman.Yaml.Basic
import Foreman.Yaml.Cursor
import Foreman.Yaml.Scalar

namespace Foreman
namespace Yaml

/-! ## 1. The style of a text

What a text has inside decides which styles could hold it, and what it would be read as decides
which of them is taken.  Each predicate looks at the characters once, with their neighbours. -/

/-- Characters that can be written as they are. -/
def isPrintable (c : Char) : Bool :=
  let n := c.toNat
  n = 0x0A || (0x20 ≤ n && n ≤ 0x7E) || (0xA0 ≤ n && n ≤ 0xD7FF) ||
    (0xE000 ≤ n && n ≤ 0xFFFD && n ≠ 0xFEFF) || 0x10000 ≤ n

/-- A gap, a line end or the end of the text. -/
def isApart : Option Char → Bool
  | none => true
  | some c => isGap c || isBreak c

/-- Characters that mean something at the start of a scalar. -/
def isLeadMark (c : Char) (next : Option Char) : Bool :=
  "#,[]\x7b\x7d&*!|>'\"%@`".toList.contains c || ((c = '?' || c = ':' || c = '-') && isApart next)

/-- Characters that mean something inside a scalar. -/
def isInnerMark (before : Char) (c : Char) (next : Option Char) : Bool :=
  (c = ':' && isApart next) || (c = '#' && isApart (some before))

/-- A mark somewhere behind the first character. -/
def hasInnerMark (before : Char) : List Char → Bool
  | [] => false
  | c :: rest => isInnerMark before c rest.head? || hasInnerMark c rest

/-- A character that would be taken for structure. -/
def hasMark : List Char → Bool
  | [] => false
  | c :: rest => isLeadMark c rest.head? || hasInnerMark c rest

/-- The text starts like a marker of documents. -/
def startsLikeMarker (cs : List Char) : Bool :=
  cs.take 3 = ['-', '-', '-'] || cs.take 3 = ['.', '.', '.']

/-- A space stands just before a line end. -/
def spaceBeforeBreak : List Char → Bool
  | ' ' :: c :: rest => isBreak c || spaceBeforeBreak (c :: rest)
  | _ :: rest => spaceBeforeBreak rest
  | [] => false

/-- A space stands just behind a line end. -/
def spaceAfterBreak : List Char → Bool
  | c :: ' ' :: rest => isBreak c || spaceAfterBreak (' ' :: rest)
  | _ :: rest => spaceAfterBreak rest
  | [] => false

/-- The text can only stand in double quotes. -/
def needsEscapes (cs : List Char) : Bool := cs.any (fun c => !isPrintable c) || spaceBeforeBreak cs

def isSpaceOrBreak (c : Char) : Bool := c = ' ' || isBreak c

/-- The text can stand plainly in a block. -/
def allowsPlain (cs : List Char) : Bool :=
  !needsEscapes cs && !startsLikeMarker cs && !hasMark cs && !cs.any isBreak &&
    !cs.head?.any isSpaceOrBreak && !cs.getLast?.any isSpaceOrBreak

def allowsSingle (cs : List Char) : Bool := !needsEscapes cs && !spaceAfterBreak cs

def allowsLiteral (cs : List Char) : Bool := !needsEscapes cs && cs.getLast? ≠ some ' '

/-- A plain scalar of the text is read as a text. -/
def readsAsText (s : String) : Bool :=
  match plainValue s with
  | .text => !isZeroPadded s.toList
  | _ => false

/-- The style in which a text is written. -/
def styleOf (s : String) : ScalarStyle :=
  let cs := s.toList
  let quoted := if allowsSingle cs then .singleQuoted else .doubleQuoted
  if cs.contains '\n' then (if allowsLiteral cs then .literal else .doubleQuoted)
  else if readsAsText s && allowsPlain cs then .plain
  else quoted

/-- The scalar of a text. -/
def ofText (s : String) : Yaml := .scalar s none (styleOf s)

/-! ## 2. Scalars

The characters of a text in each of the styles.  `indent` is that of the lines behind the first,
which is where a line end of the text leads to. -/

/-- The indentation, after a line end. -/
def spaces (n : Nat) : List Char := List.replicate n ' '

/-- A text between single quotes; a line end is followed by the indentation. -/
def singleBody (indent : Nat) : Bool → List Char → List Char
  | broken, [] => if broken then spaces indent else []
  | broken, c :: rest =>
    if isBreak c then c :: singleBody indent true rest
    else
      (if broken then spaces indent else []) ++
        (if c = '\'' then ['\'', '\''] else [c]) ++ singleBody indent false rest

/-- An upper-case hexadecimal digit. -/
def upperHex (n : Nat) : Char := (Nat.digitChar (n % 16)).toUpper

/-- The last digits of a number in base sixteen. -/
def hexDigits : Nat → Nat → List Char
  | 0, _ => []
  | width + 1, n => hexDigits width (n / 16) ++ [upperHex n]

/-- A character between double quotes. -/
def doubleChar (c : Char) : List Char :=
  if isPrintable c && !isBreak c && c ≠ '"' && c ≠ '\\' then [c]
  else if c = '\x00' then ['\\', '0']
  else if c = '\x07' then ['\\', 'a']
  else if c = '\x08' then ['\\', 'b']
  else if c = '\t' then ['\\', 't']
  else if c = '\n' then ['\\', 'n']
  else if c = '\x0b' then ['\\', 'v']
  else if c = '\x0c' then ['\\', 'f']
  else if c = '\r' then ['\\', 'r']
  else if c = '\x1b' then ['\\', 'e']
  else if c = '"' then ['\\', '"']
  else if c = '\\' then ['\\', '\\']
  else if c = '\u0085' then ['\\', 'N']
  else if c = '\u2028' then ['\\', 'L']
  else if c = '\u2029' then ['\\', 'P']
  else if c.toNat ≤ 0xFF then '\\' :: 'x' :: hexDigits 2 c.toNat
  else if c.toNat ≤ 0xFFFF then '\\' :: 'u' :: hexDigits 4 c.toNat
  else '\\' :: 'U' :: hexDigits 8 c.toNat

/-- The mark that tells what becomes of the line ends at the end. -/
def chompMark (cs : List Char) : List Char :=
  match cs.reverse with
  | [] => ['-']
  | [c] => if isBreak c then ['+'] else ['-']
  | c :: d :: _ => if !isBreak c then ['-'] else if isBreak d then ['+'] else []

/-- The marks behind the bar: the indentation if the text starts with a blank. -/
def literalMarks (cs : List Char) : List Char :=
  (if cs.head?.any isSpaceOrBreak then ['2'] else []) ++ chompMark cs

/-- The lines of a literal block. -/
def literalBody (indent : Nat) : Bool → List Char → List Char
  | _, [] => []
  | broken, c :: rest =>
    if isBreak c then c :: literalBody indent true rest
    else (if broken then spaces indent else []) ++ c :: literalBody indent false rest

/-- A scalar with the end of its line; `indent` is that of its later lines. -/
def scalarChars (indent : Nat) (s : String) (style : ScalarStyle) : List Char :=
  let cs := s.toList
  match style with
  | .singleQuoted => '\'' :: singleBody indent false cs ++ ['\'', '\n']
  | .doubleQuoted => '"' :: cs.flatMap doubleChar ++ ['"', '\n']
  | .literal =>
    '|' :: literalMarks cs ++ '\n' :: literalBody indent true cs ++
      (if cs.getLast?.any isBreak then [] else ['\n'])
  | _ => cs ++ ['\n']

/-! ## 3. Blocks

A mapping stands at the level of its keys and a sequence at the level of its dashes.  Empty ones
are written with their brackets. -/

/-- A key, which is a plain word. -/
def keyChars : Yaml → List Char
  | .scalar s _ _ => s.toList
  | _ => []

mutual
/-- A value behind the colon of its key, which stands at `level`. -/
def valueChars (level : Nat) : Yaml → List Char
  | .scalar s _ style => ' ' :: scalarChars (level + 2) s style
  | .sequence [] => " []\n".toList
  | .sequence items => '\n' :: itemsChars level items
  | .mapping [] => " \x7b\x7d\n".toList
  | .mapping entries => '\n' :: entriesChars (level + 2) (level + 2) entries
  | .ref _ | .torn => ['\n']

/-- The items of a sequence, each behind a dash at `level`. -/
def itemsChars (level : Nat) : List Yaml → List Char
  | [] => []
  | item :: rest => spaces level ++ '-' :: ' ' :: itemChars level item ++ itemsChars level rest

/-- An item behind its dash, which stands at `level`. -/
def itemChars (level : Nat) : Yaml → List Char
  | .scalar s _ style => scalarChars (level + 2) s style
  | .sequence [] => "[]\n".toList
  | .sequence (item :: rest) =>
    '-' :: ' ' :: itemChars (level + 2) item ++ itemsChars (level + 2) rest
  | .mapping [] => "\x7b\x7d\n".toList
  | .mapping entries => entriesChars 0 (level + 2) entries
  | .ref _ | .torn => ['\n']

/-- The entries of a mapping at `level`; `lead` blanks are missing before the first. -/
def entriesChars (lead level : Nat) : List (Yaml × Yaml) → List Char
  | [] => []
  | (k, v) :: rest =>
    spaces lead ++ keyChars k ++ ':' :: valueChars level v ++ entriesChars level level rest
end

/-- The text of a document. -/
def writeChars : Yaml → List Char
  | .mapping entries => entriesChars 0 0 entries
  | node => itemChars 0 node

def write (n : Yaml) : String := String.ofList (writeChars n)

end Yaml
end Foreman
