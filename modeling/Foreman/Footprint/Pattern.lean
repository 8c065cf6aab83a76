/-
# Path patterns

A footprint is a list of patterns for the paths a task touches.  Patterns are compared in a
canonical spelling (`normalize_pattern`): slashes for backslashes, no `./` in front, no slash at
the end and no two slashes in a row; the project's root is a single dot.

Two patterns overlap unless their spelling shows that no path can match both
(`patterns_intersect`).  For a pattern with a glob character only the text before the first of
them counts (`literal_prefix`).  So the answer errs on the side of an overlap where globs are
concerned: two tasks may have to wait for each other without need.

Claims are stored in the canonical spelling and spelled again when they are compared.  Blanks
are trimmed once at the beginning, slashes at the end are dropped after that, and a blank in
front of such a slash is left.  So a spelling need not be its own canonical spelling;
`Proofs.Footprint.Stored` says when it is, and what follows where it is not.
-/
import Foreman.Text.Blank
import Foreman.Text.Search

namespace Foreman
namespace Pattern

/-- Backslashes become slashes. -/
def toSlash (c : Char) : Char := if c = '\\' then '/' else c

/-- Of several slashes in a row one is kept. -/
def squeeze : List Char → List Char
  | [] => []
  | c :: cs => if c = '/' ∧ cs.head? = some '/' then squeeze cs else c :: squeeze cs

/-- Every `./` in front is dropped. -/
def dropDots : List Char → List Char
  | '.' :: '/' :: cs => dropDots cs
  | cs => cs

/-- Slashes at the end are dropped, but the first character stays. -/
def dropSlashes : List Char → List Char
  | [] => []
  | c :: cs => c :: go cs
where
  /-- The text without the slashes at its end. -/
  go : List Char → List Char
    | [] => []
    | c :: cs =>
      match go cs with
      | [] => if c = '/' then [] else [c]
      | cs' => c :: cs'

/-- The canonical spelling. -/
def canonical (cs : List Char) : List Char :=
  let p := dropSlashes (dropDots (squeeze ((Text.trimChars cs).map toSlash)))
  if p = [] || p = ['/'] then ['.'] else p

/-- The pattern in its canonical spelling. -/
def normalize (p : String) : String := String.ofList (canonical p.toList)

/-- The characters with which a glob begins. -/
def isMeta (c : Char) : Bool := c = '*' || c = '?' || c = '[' || c = '\x7b'

def isGlob (cs : List Char) : Bool := cs.any isMeta

/-- The text before the first glob character. -/
def literalStart (cs : List Char) : List Char := cs.takeWhile fun c => !isMeta c

/-- The path lies under the directory. -/
def liesUnder (dir path : List Char) : Bool :=
  match Text.afterPrefix? dir path with
  | some ('/' :: _) => true
  | _ => false

/-- Whether two canonical patterns may match a common path. -/
def overlap (a b : List Char) : Bool :=
  if a = ['.'] || b = ['.'] || a = b then true
  else if isGlob a || isGlob b then
    Text.startsWithChars (literalStart b) (literalStart a) ||
      Text.startsWithChars (literalStart a) (literalStart b)
  else liesUnder a b || liesUnder b a

/-- Whether two patterns may match a common path. -/
def intersects (a b : String) : Bool := overlap (canonical a.toList) (canonical b.toList)

end Pattern

namespace Footprint

/-- The first pattern of ours that overlaps one of theirs, with the first such. -/
def intersection? (ours theirs : List String) : Option (String × String) :=
  ours.findSome? fun a => (theirs.find? fun b => Pattern.intersects a b).map (a, ·)

end Footprint
end Foreman
