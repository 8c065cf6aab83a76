/-
# A tree of files

Files and directories by their absolute paths.  The root directory is always there; every other
file or directory stands in a directory.  A name `..` leads back to the parent of a directory, as
there are no links.  A relative path is seen from the working directory.  An operation that fails
says why in the words of the operating system.

The operations are those that documents and locks are kept with.  Two of them matter for what is
proved of a coordinator: `Tree.stage` says whether a file can be written in a directory at all,
and `Tree.replace` puts a file in its place as a whole.  Between the two another process may
act, but it never sees a file that is written in part.
-/
import Foreman.Files.Path
import Foreman.Table
import Foreman.Text.Utf8

namespace Foreman

/-- The cause of a failed file operation. -/
inductive FileError where
  | notFound
  | isDirectory
  | notDirectory
  | exists
  | notEmpty
  /-- It may not be run. -/
  | denied
  | nameTooLong
  /-- The bytes are not UTF-8. -/
  | notText
deriving DecidableEq, Repr, Inhabited

namespace FileError

/-- The words of the operating system. -/
def message : FileError → String
  | notFound => "No such file or directory (os error 2)"
  | isDirectory => "Is a directory (os error 21)"
  | notDirectory => "Not a directory (os error 20)"
  | «exists» => "File exists (os error 17)"
  | notEmpty => "Directory not empty (os error 39)"
  | denied => "Permission denied (os error 13)"
  | nameTooLong => "File name too long (os error 36)"
  | notText => "stream did not contain valid UTF-8"

end FileError

/-- What stands at a path. -/
inductive Node where
  | file (bytes : List UInt8) (executable : Bool)
  | directory
deriving DecidableEq, Repr, Inhabited

/-- Files and directories by their absolute paths. -/
structure Tree where
  nodes : Table Node := .empty
  /-- The parts of the working directory. -/
  here : List String := []
deriving DecidableEq, Repr, Inhabited

namespace Tree

/-- Only the root directory. -/
def empty : Tree := {}

/-- The path of the parts. -/
def key (parts : List String) : String := "/" ++ Text.joinWith "/" parts

/-- The parts of the directory from which a path is seen. -/
def base (t : Tree) (p : String) : List String := if Path.isAbsolute p then [] else t.here

/-- The path, seen from the root directory. -/
def fullPath (t : Tree) (p : String) : String :=
  if Path.isAbsolute p then p else Path.join (key t.here) p

/-- What stands at the path of the parts. -/
def at? (t : Tree) (parts : List String) : Option Node :=
  if parts = [] then some .directory else t.nodes.get? (key parts)

def isDirAt (t : Tree) (parts : List String) : Bool :=
  match t.at? parts with
  | some .directory => true
  | _ => false

/-- All ancestors are directories; otherwise the reason why the path cannot be looked up. -/
def lookupError (t : Tree) (parts : List String) : FileError :=
  let blocked := (List.range parts.length).any fun n =>
    match t.at? (parts.take n) with
    | some (.file ..) => true
    | _ => false
  if blocked then .notDirectory else .notFound

/-- The parts of a path with `..` carried out, which only a directory admits. -/
def locate (t : Tree) (p : String) : Except FileError (List String) :=
  if Path.isTooLong p then .error .nameTooLong
  else
    (Path.parts p).foldlM
      (fun here part =>
        if part ≠ ".." then .ok (here ++ [part])
        else if t.isDirAt here then .ok here.dropLast
        else .error (t.lookupError (here ++ [part])))
      (t.base p)

/-- What stands at a path. -/
def node? (t : Tree) (p : String) : Option Node :=
  match t.locate p with
  | .ok parts =>
    match t.at? parts with
    | some .directory => some .directory
    | found => if Path.namesDirectory p then none else found
  | .error _ => none

def «exists» (t : Tree) (p : String) : Bool := (t.node? p).isSome

def isDir (t : Tree) (p : String) : Bool :=
  match t.node? p with
  | some .directory => true
  | _ => false

def isFile (t : Tree) (p : String) : Bool :=
  match t.node? p with
  | some (.file ..) => true
  | _ => false

/-- The bytes of a file. -/
def read (t : Tree) (p : String) : Except FileError (List UInt8) := do
  let parts ← t.locate p
  match t.at? parts with
  | some (.file bytes _) => if Path.namesDirectory p then .error .notDirectory else .ok bytes
  | some .directory => .error .isDirectory
  | none => .error (t.lookupError parts)

/-- The text of a file. -/
def readText (t : Tree) (p : String) : Except FileError String := do
  match Utf8.decode? (← t.read p) with
  | some cs => return String.ofList cs
  | none => .error .notText

/-- Puts a node at the path of the parts. -/
def put (t : Tree) (parts : List String) (n : Node) : Tree :=
  { t with nodes := t.nodes.insert (key parts) n }

/-- Makes the directory of the parts, seen from a directory, and those in between. -/
def makeDirs (t : Tree) : List String → List String → Except FileError Tree
  | _, [] => .ok t
  | above, part :: rest =>
    if part = ".." then makeDirs t above.dropLast rest
    else
      let here := above ++ [part]
      match t.at? here with
      | some .directory => makeDirs t here rest
      | some (.file ..) => .error (if rest = [] then .exists else .notDirectory)
      | none => makeDirs (t.put here .directory) here rest

/-- Makes a directory and those above it that are missing. -/
def mkdirAll (t : Tree) (p : String) : Except FileError Tree :=
  if Path.isTooLong p then .error .nameTooLong else t.makeDirs (t.base p) (Path.parts p)

/-- Writes a file; the directory it is in has to be there.  A file that was there keeps its
mode. -/
def write (t : Tree) (p : String) (bytes : List UInt8) : Except FileError Tree := do
  let parts ← t.locate p
  match t.at? parts with
  | some .directory => .error .isDirectory
  | some (.file _ x) =>
    if Path.namesDirectory p then .error .notDirectory else .ok (t.put parts (.file bytes x))
  | none =>
    if ¬ t.isDirAt parts.dropLast then .error (t.lookupError parts)
    else if Path.namesDirectory p then .error .isDirectory
    else .ok (t.put parts (.file bytes false))

def writeText (t : Tree) (p s : String) : Except FileError Tree :=
  t.write p (Utf8.encode s.toList)

/-- Lets a file be run as a program, or no longer. -/
def setExecutable (t : Tree) (p : String) (x : Bool) : Tree :=
  match t.locate p with
  | .error _ => t
  | .ok parts =>
    match t.at? parts with
    | some (.file bytes _) => t.put parts (.file bytes x)
    | _ => t

/-- The path lies below the directory, or is the directory itself. -/
def isWithin (dir path : String) : Bool :=
  dir = "/" || path = dir || Text.startsWith path (dir ++ "/")

/-- Removes what stands at a path, with all that is below it. -/
def removeAll (t : Tree) (p : String) : Tree :=
  match t.locate p with
  | .error _ => t
  | .ok parts =>
    let k := key parts
    { t with nodes := ⟨t.nodes.entries.filter fun e => !isWithin k e.1⟩ }

/-- Removes a file. -/
def removeFile (t : Tree) (p : String) : Except FileError Tree := do
  let parts ← t.locate p
  match t.at? parts with
  | some (.file ..) => .ok { t with nodes := t.nodes.erase (key parts) }
  | some .directory => .error .isDirectory
  | none => .error (t.lookupError parts)

/-- The paths below a directory, seen from it, with what stands there. -/
def below (t : Tree) (p : String) : List (String × Node) :=
  match t.locate p with
  | .error _ => []
  | .ok parts =>
    let start := if parts = [] then "/" else key parts ++ "/"
    t.nodes.entries.filterMap fun e => (Text.stripStart? e.1 start).map (·, e.2)

/-- The names in a directory, in order. -/
def list (t : Tree) (p : String) : List String :=
  (t.below p).filterMap fun e => if Text.contains e.1 "/" then none else some e.1

/-- Puts the node in the place of another name; the old path is free afterwards.  Whole
directories move with all that is in them. -/
def move (t : Tree) (src dst : String) : Tree :=
  match t.node? src, t.locate dst with
  | some n, .ok target =>
    let moved := t.below src
    let t := t.removeAll src
    moved.foldl (fun t e => t.put (target ++ Path.parts e.1) e.2) (t.put target n)
  | _, _ => t

/-- The name under which a file is written before it is put in its place.  The last six letters are
any that are not in use. -/
def temporaryName : String := ".tmpXXXXXX"

/-- A file can be written in a directory before it is put in its place, or the reason why not. -/
def stage (t : Tree) (dir : String) : Except FileError Unit :=
  if Path.isTooLong (Path.join (t.fullPath dir) temporaryName) then .error .nameTooLong else .ok ()

/-- Replaces the file at a path as a whole: the bytes are written beside it and then put in its
place, so a reader sees the old file or the new one.  Only a directory at the path is in the
way. -/
def replace (t : Tree) (p : String) (bytes : List UInt8) : Except FileError Tree := do
  let parts ← t.locate p
  match t.at? parts with
  | some .directory => .error .isDirectory
  | _ =>
    if t.isDirAt parts.dropLast then .ok (t.put parts (.file bytes false))
    else .error (t.lookupError parts)

end Tree
end Foreman
