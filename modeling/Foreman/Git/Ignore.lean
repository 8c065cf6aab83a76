/-
# Ignored files

A file `.gitignore` lists patterns for the directory it is in and all below.  The last pattern
that matches decides, and patterns of a deeper directory come later; a pattern with `!` takes back
what an earlier one said.  What lies in an ignored directory is ignored.

Patterns are matched on characters, by their pieces.  The match tries all ways in which a star
can be read, which is enough for names of files; there is no need to be fast.
-/
import Foreman.Files.Tree

namespace Foreman
namespace Git

/-! ## 1. Patterns

A pattern is cut into pieces first, so that matching needs to know nothing of escapes and
brackets. -/

/-- A piece of a pattern. -/
inductive Piece where
  | char (c : Char)
  /-- Any character but a slash. -/
  | any
  /-- Any number of characters without a slash. -/
  | star
  /-- One character of a set, or none of it. -/
  | set (negated : Bool) (ranges : List (Char × Char))
  /-- Any number of directories, each with its slash. -/
  | dirs
  /-- Everything that is left, at least one character. -/
  | rest
deriving DecidableEq, Repr

/-- The ranges of a set up to its bracket. -/
def setRanges : Nat → List Char → Option (List (Char × Char) × List Char)
  | 0, _ => none
  | fuel + 1, cs =>
    match cs with
    | [] => none
    | ']' :: rest => some ([], rest)
    | a :: '-' :: ']' :: rest => some ([(a, a), ('-', '-')], rest)
    | a :: '-' :: b :: rest => (setRanges fuel rest).map fun (rs, r) => ((a, b) :: rs, r)
    | '\\' :: a :: rest => (setRanges fuel rest).map fun (rs, r) => ((a, a) :: rs, r)
    | a :: rest => (setRanges fuel rest).map fun (rs, r) => ((a, a) :: rs, r)

/-- A set behind its opening bracket; a bracket that comes first belongs to it. -/
def setPiece (cs : List Char) : Option (Piece × List Char) :=
  let (negated, cs) :=
    match cs with
    | '!' :: r => (true, r)
    | '^' :: r => (true, r)
    | r => (false, r)
  match cs with
  | ']' :: r =>
    (setRanges (r.length + 1) r).map fun (rs, rest) => (.set negated ((']', ']') :: rs), rest)
  | r => (setRanges (r.length + 1) r).map fun (rs, rest) => (.set negated rs, rest)

/-- The pieces of a pattern; `start` holds behind a slash and at the start. -/
def pieces : Nat → Bool → List Char → List Piece
  | 0, _, _ => []
  | fuel + 1, start, cs =>
    match cs with
    | [] => []
    | '*' :: '*' :: '/' :: r =>
      if start then .dirs :: pieces fuel true r else .star :: pieces fuel false ('/' :: r)
    | ['*', '*'] => if start then [.rest] else [.star]
    | '*' :: r => .star :: pieces fuel false (r.dropWhile (· = '*'))
    | '?' :: r => .any :: pieces fuel false r
    | '[' :: r =>
      match setPiece r with
      | some (p, rest) => p :: pieces fuel false rest
      | none => .char '[' :: pieces fuel false r
    | '\\' :: c :: r => .char c :: pieces fuel false r
    | c :: r => .char c :: pieces fuel (c = '/') r

/-- The tails of a text, the text itself first. -/
def tails : List Char → List (List Char)
  | [] => [[]]
  | c :: cs => (c :: cs) :: tails cs

/-- What can follow some characters without a slash. -/
def starRests : List Char → List (List Char)
  | [] => [[]]
  | c :: cs => (c :: cs) :: (if c = '/' then [] else starRests cs)

/-- What can follow some directories. -/
def dirRests : List Char → List (List Char)
  | [] => [[]]
  | cs =>
    cs :: (tails cs).filterMap fun t =>
      match t with
      | '/' :: rest => some rest
      | _ => none

/-- The text is made of the pieces. -/
def matchesPieces : List Piece → List Char → Bool
  | [], cs => cs.isEmpty
  | .char c :: ps, cs =>
    match cs with
    | d :: rest => c = d && matchesPieces ps rest
    | [] => false
  | .any :: ps, cs =>
    match cs with
    | d :: rest => d ≠ '/' && matchesPieces ps rest
    | [] => false
  | .set negated ranges :: ps, cs =>
    match cs with
    | d :: rest =>
      d ≠ '/' && (ranges.any (fun r => r.1 ≤ d && d ≤ r.2) != negated) && matchesPieces ps rest
    | [] => false
  | .star :: ps, cs => (starRests cs).any (matchesPieces ps)
  | .dirs :: ps, cs => (dirRests cs).any (matchesPieces ps)
  | .rest :: _, cs => !cs.isEmpty

/-! ## 2. Rules

A rule is a pattern with what stands around it: the directory it counts for, whether it takes
back, and whether it is for directories only. -/

/-- A line of an ignore file. -/
structure IgnoreRule where
  /-- The directory of the file, with a slash at its end unless it is the top. -/
  base : String
  negated : Bool
  dirOnly : Bool
  /-- The pattern stands for a path from the base, not for a name at any depth. -/
  anchored : Bool
  pattern : List Piece
deriving DecidableEq, Repr

/-- A line without blanks at its end, unless a backslash keeps them. -/
def trimLine (line : List Char) : List Char :=
  let reversed := line.reverse
  let rest := reversed.dropWhile (· = ' ')
  match rest with
  | '\\' :: _ => if rest.length < reversed.length then (' ' :: rest).reverse else rest.reverse
  | _ => rest.reverse

/-- The rule of a line, unless it is blank or a comment. -/
def ruleOfLine? (base line : String) : Option IgnoreRule :=
  match trimLine ((Text.stripEnd? line "\r").getD line).toList with
  | [] => none
  | '#' :: _ => none
  | cs =>
    let (negated, cs) :=
      match cs with
      | '!' :: r => (true, r)
      | r => (false, r)
    let (dirOnly, cs) :=
      match cs.reverse with
      | '/' :: r => (true, r.reverse)
      | _ => (false, cs)
    let anchored := cs.contains '/'
    let cs :=
      match cs with
      | '/' :: r => r
      | r => r
    if cs = [] then none
    else some ⟨base, negated, dirOnly, anchored, pieces (cs.length + 1) true cs⟩

/-- The rule speaks of the path. -/
def IgnoreRule.applies (r : IgnoreRule) (path : String) (isDir : Bool) : Bool :=
  (isDir || !r.dirOnly) &&
    match Text.stripStart? path r.base with
    | none => false
    | some seen =>
      let name := if r.anchored then seen else ((Text.split seen '/').getLast?).getD seen
      matchesPieces r.pattern name.toList

/-- The rules below a working tree, those of deeper directories later. -/
def ignoreRules (t : Tree) (top : String) : List IgnoreRule :=
  (t.below top).flatMap fun e =>
    if e.1 = ".gitignore" || Text.endsWith e.1 "/.gitignore" then
      match t.readText (top ++ "/" ++ e.1) with
      | .ok text =>
        let base := String.ofList (e.1.toList.take (e.1.length - ".gitignore".length))
        (Text.split text '\n').filterMap (ruleOfLine? base)
      | .error _ => []
    else []

/-- What the last rule that applies says of the path itself. -/
def saysIgnored (rules : List IgnoreRule) (path : String) (isDir : Bool) : Bool :=
  match rules.reverse.find? fun r => r.applies path isDir with
  | some r => !r.negated
  | none => false

/-- The directories above a path, and the path. -/
def pathAndParents (path : String) : List String :=
  let parts := Text.split path '/'
  (List.range parts.length).map fun n => Text.joinWith "/" (parts.take (n + 1))

/-- The path or a directory above it is ignored. -/
def isIgnored (rules : List IgnoreRule) (path : String) (isDir : Bool) : Bool :=
  (pathAndParents path).any fun p => saysIgnored rules p (p ≠ path || isDir)

end Git
end Foreman
