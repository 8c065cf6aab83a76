/-
# Writing JSON

Two layouts: on one line without blanks, and over several lines with two blanks for each level.
A text has an escape for the quote, the backslash and the control characters, and nothing else.

What is written over several lines is read back as the same value
(`Foreman.Proofs.Json.RoundTrip`).
-/
import Foreman.Json.Basic

namespace Foreman
namespace Json

/-- A lower-case hexadecimal digit. -/
def hexDigit (n : Nat) : Char := (Nat.digitChar (n % 16))

/-- A character inside a text. -/
def escapeChar (c : Char) : List Char :=
  if c = '"' then ['\\', '"']
  else if c = '\\' then ['\\', '\\']
  else if c = '\x08' then ['\\', 'b']
  else if c = '\x0c' then ['\\', 'f']
  else if c = '\n' then ['\\', 'n']
  else if c = '\r' then ['\\', 'r']
  else if c = '\t' then ['\\', 't']
  else if c.toNat < 0x20 then
    ['\\', 'u', '0', '0', hexDigit (c.toNat / 16), hexDigit c.toNat]
  else [c]

/-- A text between quotes. -/
def quoted (s : String) : List Char := '"' :: s.toList.flatMap escapeChar ++ ['"']

/-- A number of the form digits, exponent. -/
def decimalText (d : Decimal) : List Char :=
  (if d.negative then ['-'] else []) ++ (toString d.digits).toList ++
    'e' :: (toString d.exponent).toList

mutual
/-- The value on one line. -/
def compactChars : Json → List Char
  | .null => ['n', 'u', 'l', 'l']
  | .bool true => ['t', 'r', 'u', 'e']
  | .bool false => ['f', 'a', 'l', 's', 'e']
  | .integer n => (toString n).toList
  | .decimal d => decimalText d
  | .text s => quoted s
  | .unreadable => ['n', 'u', 'l', 'l']
  | .list items => '[' :: compactItems items
  | .record fields => '\x7b' :: compactFields fields

/-- The items with commas between them, and the closing bracket. -/
def compactItems : List Json → List Char
  | [] => [']']
  | [j] => compactChars j ++ [']']
  | j :: rest => compactChars j ++ ',' :: compactItems rest

/-- The fields with commas between them, and the closing brace. -/
def compactFields : List (String × Json) → List Char
  | [] => ['\x7d']
  | [(k, j)] => quoted k ++ ':' :: compactChars j ++ ['\x7d']
  | (k, j) :: rest => quoted k ++ ':' :: compactChars j ++ ',' :: compactFields rest
end

/-- The value on one line. -/
def compact (j : Json) : String := String.ofList j.compactChars

/-- A new line at the given level. -/
def newline (level : Nat) : List Char := '\n' :: List.replicate (2 * level) ' '

mutual
/-- The value over several lines; `level` is that of the line it starts on. -/
def prettyChars (level : Nat) : Json → List Char
  | .list [] => ['[', ']']
  | .list items => '[' :: prettyItems (level + 1) items ++ newline level ++ [']']
  | .record [] => ['\x7b', '\x7d']
  | .record fields => '\x7b' :: prettyFields (level + 1) fields ++ newline level ++ ['\x7d']
  | .null => ['n', 'u', 'l', 'l']
  | .bool true => ['t', 'r', 'u', 'e']
  | .bool false => ['f', 'a', 'l', 's', 'e']
  | .integer n => (toString n).toList
  | .decimal d => decimalText d
  | .text s => quoted s
  | .unreadable => ['n', 'u', 'l', 'l']

/-- The items, each on a line of its own. -/
def prettyItems (level : Nat) : List Json → List Char
  | [] => []
  | [j] => newline level ++ prettyChars level j
  | j :: rest => newline level ++ prettyChars level j ++ ',' :: prettyItems level rest

/-- The fields, each on a line of its own. -/
def prettyFields (level : Nat) : List (String × Json) → List Char
  | [] => []
  | [(k, j)] => newline level ++ quoted k ++ ':' :: ' ' :: prettyChars level j
  | (k, j) :: rest =>
    newline level ++ quoted k ++ ':' :: ' ' :: prettyChars level j ++
      ',' :: prettyFields level rest
end

/-- The value over several lines. -/
def pretty (j : Json) : String := String.ofList (prettyChars 0 j)

end Json
end Foreman
