/-
# The content of a commit

Files by their paths, seen from the top of the working tree.  A directory with a repository of its
own counts as one entry, a link to the commit it is at.

A content is what the next commit would hold (the index), what a commit holds, or what the files
of a working tree amount to.  Changes between two contents are listed path by path, and carrying
them out on files is the only way in which git touches a working tree here.
-/
import Foreman.Files.Tree

namespace Foreman
namespace Git

/-- What a commit holds at a path. -/
inductive Blob where
  | file (bytes : List UInt8) (executable : Bool)
  /-- A repository of its own, at that commit. -/
  | link (commit : Nat)
deriving DecidableEq, Repr, Inhabited

/-- Blobs by their paths. -/
abbrev Content := Table Blob

namespace Content

/-- A change of one path: what was there, and what is there now. -/
structure Change where
  path : String
  before : Option Blob
  after : Option Blob
deriving DecidableEq, Repr, Inhabited

/-- The paths of both contents, in order. -/
def paths (a b : Content) : List String :=
  (Table.ofList ((a.keys ++ b.keys).map fun p => (p, ()))).keys

/-- The paths at which two contents differ. -/
def changes (a b : Content) : List Change :=
  (paths a b).filterMap fun p =>
    if a.get? p = b.get? p then none else some ⟨p, a.get? p, b.get? p⟩

/-- The content with the blob at a path, or with nothing there. -/
def set (c : Content) (path : String) : Option Blob → Content
  | some b => c.insert path b
  | none => c.erase path

/-- Whether something of the content lies below a directory. -/
def touches (c : Content) (dir : String) : Bool :=
  c.keys.any fun p => Text.startsWith p (dir ++ "/")

end Content

/-- The directories a path lies in, the outermost first. -/
def parentsOf (path : String) : List String :=
  let parts := Text.split path '/'
  (List.range (parts.length - 1)).map fun n => Text.joinWith "/" (parts.take (n + 1))

/-! ## 1. Working files

What the files below a directory amount to.  Other repositories below it are links, and the files
of git itself are none of its own. -/

/-- The directories below a working tree that are working trees of their own. -/
def nestedDirs (entries : List (String × Node)) : List String :=
  entries.filterMap fun e =>
    match Text.stripEnd? e.1 "/.git" with
    | some dir => some dir
    | none => none

/-- The path belongs to the repository's own files or lies in another working tree. -/
def isForeign (nested : List String) (path : String) : Bool :=
  path = ".git" || Text.startsWith path ".git/" ||
    nested.any fun dir => path = dir || Text.startsWith path (dir ++ "/")

/-- The files of a working tree; `tip` gives the commit of a nested one. -/
def workingContent (t : Tree) (top : String) (tip : String → Nat) : Content :=
  let entries := t.below top
  let nested := nestedDirs entries
  let outer := nested.filter fun dir =>
    !(nested.any fun other => Text.startsWith dir (other ++ "/"))
  let files := entries.filterMap fun e =>
    match e.2 with
    | .file bytes x => if isForeign nested e.1 then none else some (e.1, Blob.file bytes x)
    | .directory => none
  Table.ofList (files ++ outer.map fun dir => (dir, Blob.link (tip dir)))

/-- The content with the links of an index whose directories are there but hold no working tree:
they count as they are in the index. -/
def withEmptyLinks (t : Tree) (top : String) (index c : Content) : Content :=
  index.entries.foldl
    (fun c e =>
      match e.2 with
      | .link _ =>
        if t.isDir (top ++ "/" ++ e.1) && (c.get? e.1).isNone then c.insert e.1 e.2 else c
      | .file .. => c)
    c

/-- Removes a directory that is empty, and those above it, below the top. -/
def removeEmptyDirs (t : Tree) (top : String) : List String → Tree
  | [] => t
  | dir :: rest =>
    let full := top ++ "/" ++ dir
    if t.isDir full && (t.below full).isEmpty then removeEmptyDirs (t.removeAll full) top rest
    else removeEmptyDirs t top rest

/-- Brings one working file to what it should be. -/
def writeBlob (t : Tree) (top path : String) : Option Blob → Tree
  | none =>
    let full := top ++ "/" ++ path
    if t.isFile full then removeEmptyDirs (t.removeAll full) top (parentsOf path).reverse
    else if t.isDir full && (t.below full).isEmpty then
      removeEmptyDirs (t.removeAll full) top (parentsOf path).reverse
    else t
  | some (.file bytes x) =>
    let full := top ++ "/" ++ path
    let t := (t.mkdirAll ((Path.parent? full).getD "/")).toOption.getD t
    ((t.write full bytes).toOption.getD t).setExecutable full x
  | some (.link _) => (t.mkdirAll (top ++ "/" ++ path)).toOption.getD t

/-- Carries out changes on working files, removals first. -/
def writeChanges (t : Tree) (top : String) (changes : List Content.Change) : Tree :=
  let (gone, kept) := changes.partition fun c => c.after.isNone
  (gone ++ kept).foldl (fun t c => writeBlob t top c.path c.after) t

/-! ## 2. Paths in reports

Paths are told between quotation marks where a blank or another byte would be taken for
something else. -/

/-- The octal digits of a byte. -/
def octal (n : Nat) : List Char :=
  [n / 64, n / 8 % 8, n % 8].map fun d => Char.ofNat ('0'.toNat + d)

/-- A byte of a path between quotation marks. -/
def quotedByte (b : UInt8) : List Char :=
  let n := b.toNat
  if n = 34 then ['\\', '"']
  else if n = 92 then ['\\', '\\']
  else if n = 7 then ['\\', 'a']
  else if n = 8 then ['\\', 'b']
  else if n = 9 then ['\\', 't']
  else if n = 10 then ['\\', 'n']
  else if n = 11 then ['\\', 'v']
  else if n = 12 then ['\\', 'f']
  else if n = 13 then ['\\', 'r']
  else if n < 32 || 127 ≤ n then '\\' :: octal n
  else [Char.ofNat n]

/-- A path in a report: between quotation marks if it holds a blank, or a byte that has to be
written in another way. -/
def quotedPath (path : String) : String :=
  let text := (Utf8.encode path.toList).flatMap quotedByte
  if text = path.toList && !text.contains ' ' then path
  else String.ofList ('"' :: text ++ ['"'])

end Git
end Foreman
