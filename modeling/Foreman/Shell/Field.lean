/-
# Fields

Words become fields.  Each character of a field remembers whether it was quoted: only a character
that was not can stand for others in a pattern.
-/
import Foreman.Text.Search

namespace Foreman
namespace Shell

/-- Characters, each with whether it was quoted. -/
abbrev Field := List (Char × Bool)

namespace Field

def ofText (text : String) (quoted : Bool) : Field := text.toList.map (·, quoted)

def text (f : Field) : String := String.ofList (f.map Prod.fst)

/-! ## 1. Patterns

A pattern is matched character by character, and a quoted one stands only for itself. -/

/-- The characters between brackets, up to the bracket that closes them. -/
def bracket? : Bool → Field → Option (Field × Field)
  | _, [] => none
  | first, (c, q) :: rest =>
    if c = ']' && !q && !first then some ([], rest)
    else (bracket? false rest).map fun (a, r) => ((c, q) :: a, r)

/-- Whether a character is one of those between brackets. -/
def isAmong (c : Char) : List Char → Bool
  | [] => false
  | a :: '-' :: b :: rest => (a ≤ c && c ≤ b) || isAmong c rest
  | a :: rest => a = c || isAmong c rest

/-- The pattern covers the text. -/
def fits : Nat → Field → List Char → Bool
  | 0, _, _ => false
  | _, [], cs => cs = []
  | fuel + 1, (p, quoted) :: ps, cs =>
    if !quoted && p = '*' then
      fits fuel ps cs || (match cs with
        | [] => false
        | _ :: rest => fits fuel ((p, quoted) :: ps) rest)
    else
      match cs with
      | [] => false
      | c :: rest =>
        if !quoted && p = '?' then fits fuel ps rest
        else
          match (if !quoted && p = '[' then bracket? true ps else none) with
          | some (set, ps) =>
            let chars := set.map Prod.fst
            match chars with
            | '!' :: chars => !isAmong c chars && fits fuel ps rest
            | chars => isAmong c chars && fits fuel ps rest
          | none => p = c && fits fuel ps rest

def covers (p : Field) (text : String) : Bool :=
  fits (p.length + text.length + 1) p text.toList

/-- Whether the field can stand for several names. -/
def isPattern (f : Field) : Bool := f.any fun c => !c.2 && "*?[".toList.contains c.1

/-- The lengths at which the pattern covers the start of a text, the shortest first. -/
def starts (p : Field) (text : String) : List Nat :=
  (List.range (text.length + 1)).filter fun n =>
    p.covers (String.ofList (text.toList.take n))

/-- The text without what the pattern covers at its start. -/
def dropStart (p : Field) (longest : Bool) (text : String) : String :=
  match (if longest then (starts p text).getLast? else (starts p text).head?) with
  | some n => String.ofList (text.toList.drop n)
  | none => text

/-- The text without what the pattern covers at its end. -/
def dropEnd (p : Field) (longest : Bool) (text : String) : String :=
  let ends := (List.range (text.length + 1)).filter fun n =>
    p.covers (String.ofList (text.toList.drop n))
  match (if longest then ends.head? else ends.getLast?) with
  | some n => String.ofList (text.toList.take n)
  | none => text

end Field

/-! ## 2. Fields under construction

The words of a command are expanded from left to right, and what one expansion ends with may go
on in the next. -/

/-- Finished fields, and the one that is still open, if there is one. -/
structure Fields where
  finished : List Field := []
  opened : Option Field := none
deriving DecidableEq, Repr, Inhabited

namespace Fields

/-- Adds characters to the open field; quoted ones open it even if there are none. -/
def add (f : Fields) (piece : Field) (quoted : Bool) : Fields :=
  if piece = [] && !quoted then f else { f with opened := some (f.opened.getD [] ++ piece) }

def close (f : Fields) : Fields :=
  match f.opened with
  | some field => { finished := f.finished ++ [field] }
  | none => f

/-- The blanks among the separators, which count as one however many there are. -/
def isBlankSeparator (seps : List Char) (c : Char) : Bool :=
  seps.contains c && (c = ' ' || c = '\t' || c = '\n')

/-- Adds the value of an expansion that is not quoted: separators end fields.  Blanks among them
leave no empty field between them. -/
def split (f : Fields) (seps : List Char) : List Char → Fields
  | [] => f
  | c :: cs =>
    if isBlankSeparator seps c then f.close.split seps cs
    else if seps.contains c then
      ({ f with opened := some (f.opened.getD []) } : Fields).close.split seps cs
    else (f.add [(c, false)] false).split seps cs

/-- Adds texts, each a field of its own but for the first and the last, which join what stands
beside them. -/
def addEach (f : Fields) (seps : List Char) (quoted : Bool) : List String → Fields
  | [] => f
  | [a] => if quoted then f.add (Field.ofText a true) true else f.split seps a.toList
  | a :: rest =>
    (if quoted then f.add (Field.ofText a true) true
      else f.split seps a.toList).close.addEach seps quoted rest

/-- All fields. -/
def all (f : Fields) : List Field := f.close.finished

end Fields
end Shell
end Foreman
