/-
# Paths

Paths are texts with slashes.  The parts of a path are what stands between its slashes; empty
parts and single dots name nothing.  A path that is too long leads nowhere, whatever its parts are.

Nothing here looks at files.  Whether a path leads somewhere, and where `..` leads, is decided
in `Foreman.Files.Tree`.
-/
import Foreman.Text.Search

namespace Foreman
namespace Path

/-- The most bytes that a path may have. -/
def longest : Nat := 4095

/-- The path has more bytes than a path may have. -/
def isTooLong (p : String) : Bool := longest < p.utf8ByteSize

/-- The path starts at the root of the file system. -/
def isAbsolute (p : String) : Bool := Text.startsWith p "/"

/-- The path `b`, seen from `a`. -/
def join (a b : String) : String :=
  if isAbsolute b then b
  else if a = "" || Text.endsWith a "/" then a ++ b
  else a ++ "/" ++ b

/-- The parts that name something. -/
def parts (p : String) : List String :=
  (Text.split p '/').filter fun part => part ≠ "" && part ≠ "."

/-- The end of the path says that it names a directory. -/
def namesDirectory (p : String) : Bool := Text.endsWith p "/" || Text.endsWith p "/."

/-- The name of the last part, unless it leads back to a parent. -/
def fileName? (p : String) : Option String :=
  match (parts p).getLast? with
  | some name => if name = ".." then none else some name
  | none => none

/-- What follows the last dot of the file name; a dot at its start does not count. -/
def extension? (p : String) : Option String :=
  match fileName? p with
  | some name =>
    match Text.splitLast? name '.' with
    | some (stem, ext) => if stem = "" then none else some ext
    | none => none
  | none => none

/-- The text, read from its end, without the slashes and single dots that name nothing. -/
def dropIdle : List Char → List Char
  | '/' :: rest => dropIdle rest
  | '.' :: '/' :: rest => dropIdle ('/' :: rest)
  | cs => cs
termination_by cs => cs.length

/-- The path without its last part, if it has one. -/
def parent? (p : String) : Option String :=
  match parts p with
  | [] => none
  | _ =>
    let kept := dropIdle ((dropIdle p.toList.reverse).dropWhile (· ≠ '/'))
    if kept = [] && isAbsolute p then some "/" else some (String.ofList kept.reverse)

end Path
end Foreman
