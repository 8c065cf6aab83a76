/-
# Writing TOML

A document of sections: a header, and below it a key and a value on each line.
-/
import Foreman.Number.Shortest
import Foreman.Text.Search
import Foreman.Toml.Basic

namespace Foreman
namespace Toml

/-- A character between double quotation marks. -/
def escaped (c : Char) : List Char :=
  if c = '"' then ['\\', '"']
  else if c = '\\' then ['\\', '\\']
  else if c = '\n' then ['\\', 'n']
  else if c = '\t' then ['\\', 't']
  else if c = '\r' then ['\\', 'r']
  else if c.toNat < 0x20 || c.toNat = 0x7F then
    let digits := Nat.toDigits 16 c.toNat
    ['\\', 'u'] ++ List.replicate (4 - digits.length) '0' ++ digits
  else [c]

/-- A text between double quotation marks. -/
def quoted (s : String) : String := String.ofList ('"' :: s.toList.flatMap escaped ++ ['"'])

/-- A double with a point, or one of the words. -/
def floatText (x : Float) : String :=
  let sign := if x < 0.0 then "-" else ""
  if x.isNaN then "nan"
  else if x.isInf then sign ++ "inf"
  else if x == 0.0 then (if x.toBits = 0 then "0.0" else "-0.0")
  else sign ++ (Double.shortest x.abs).positional

/-- A value of a line; lists and tables have none here. -/
def valueText : Toml → String
  | .text s => quoted s
  | .integer n => toString n
  | .float x => floatText x
  | .bool b => if b then "true" else "false"
  | _ => "[]"

/-- A section with its header. -/
def sectionText (name : String) (entries : Entries) : String :=
  "[" ++ name ++ "]\n" ++
    String.join (entries.map fun e => e.1 ++ " = " ++ valueText e.2 ++ "\n")

/-- Sections with an empty line between them. -/
def documentText (sections : List (String × Entries)) : String :=
  Text.joinWith "\n" (sections.map fun s => sectionText s.1 s.2)

end Toml
end Foreman
