/-
# The status of a working tree

The commit, the index and the files are set against each other, path by path.  A file of the index
has a letter for each of the two steps; a file that is new and not ignored is untracked, and a
directory of untracked files is told as one.  A path that went and one that came with much the
same bytes are a rename.

The status decides two things of a run: whether the trunk is clean enough to be merged into, and
whether a worker left changes that are still to be committed.
-/
import Foreman.Git.Ignore
import Foreman.Git.Repository

namespace Foreman
namespace Git

/-- A line of the short status: two letters and the path as it is told. -/
structure StatusEntry where
  code : String
  path : String
deriving DecidableEq, Repr, Inhabited

/-! ## 1. Renames

Contents are compared by the pieces that they have in common, in whatever order, and two files
that share half of them may be one that was moved. -/

/-- The pieces of a file that are counted: lines, or stretches of 64 bytes. -/
def stretches (n : Nat) (piece : List UInt8) : List UInt8 → List (List UInt8)
  | [] => if piece = [] then [] else [piece.reverse]
  | b :: bs =>
    if b = 10 || n + 1 = 64 then (b :: piece).reverse :: stretches 0 [] bs
    else stretches (n + 1) (b :: piece) bs

/-- How many bytes the pieces of one file have in common with those of another. -/
def commonBytes : List (List UInt8) → List (List UInt8) → Nat
  | [], _ => 0
  | p :: ps, qs => if p ∈ qs then p.length + commonBytes ps (qs.erase p) else commonBytes ps qs

/-- How alike two blobs are, in parts of 60000. -/
def similarity : Blob → Blob → Nat
  | .file a _, .file b _ =>
    if a = b then 60000
    else if a.isEmpty || b.isEmpty then 0
    else commonBytes (stretches 0 [] a) (stretches 0 [] b) * 60000 / max a.length b.length
  | .link a, .link b => if a = b then 60000 else 0
  | _, _ => 0

/-- The least similarity of a rename. -/
def renameLimit : Nat := 30000

/-- Paths that went and came, paired; the most alike pairs are found first. -/
def renames (gone came : List (String × Blob)) : List (String × String) :=
  let scored := came.flatMap fun c => gone.filterMap fun g =>
    let score := similarity g.2 c.2
    if renameLimit ≤ score then some (score, g.1, c.1) else none
  let sorted := scored.mergeSort fun a b => b.1 ≤ a.1
  sorted.foldl
    (fun found p =>
      if found.any fun f => f.1 = p.2.1 || f.2 = p.2.2 then found else found ++ [(p.2.1, p.2.2)])
    []

/-! ## 2. Entries

Three layers, one above the other: what is committed, what is in the index, and what the files
are.  The letters of an entry tell where two of them differ. -/

/-- The three states of a working tree. -/
structure Layers where
  tip : Content
  index : Content
  files : Content
  rules : List IgnoreRule
  /-- The working trees inside this one that have changes of their own. -/
  edited : List String := []

namespace Layers

/-- The letter for the step from one layer to the next. -/
def letter (before after : Option Blob) : String :=
  match before, after with
  | none, none => " "
  | none, some _ => "A"
  | some _, none => "D"
  | some a, some b => if a = b then " " else "M"

/-- The letter for the step from the index to the files. -/
def fileLetter (l : Layers) (path : String) : String :=
  match l.index.get? path with
  | none => " "
  | some b =>
    let letter := letter (some b) (l.files.get? path)
    if letter = " " && path ∈ l.edited then "M" else letter

/-- Files of the index that changed in either step. -/
def tracked (l : Layers) : List StatusEntry :=
  let changes := Content.changes l.tip l.index
  let gone := changes.filterMap fun c => if c.after.isNone then c.before.map (c.path, ·) else none
  let came := changes.filterMap fun c => if c.before.isNone then c.after.map (c.path, ·) else none
  let pairs := renames gone came
  (Content.paths (l.tip) l.index).filterMap fun p =>
    if pairs.any fun r => r.1 = p then none
    else
      match pairs.find? fun r => r.2 = p with
      | some r =>
        some ⟨"R" ++ l.fileLetter p, quotedPath r.1 ++ " -> " ++ quotedPath p⟩
      | none =>
        let code := letter (l.tip.get? p) (l.index.get? p) ++ l.fileLetter p
        if code = "  " then none else some ⟨code, quotedPath p⟩

/-- New files that are not ignored. -/
def untrackedFiles (l : Layers) : List (String × Blob) :=
  l.files.entries.filter fun e =>
    (l.index.get? e.1).isNone &&
      !isIgnored l.rules e.1 (match e.2 with
        | .link _ => true
        | .file .. => false)

/-- How a new file is told: by the first directory above it that holds nothing of the index. -/
def untrackedName (l : Layers) (path : String) (b : Blob) : String :=
  match (parentsOf path).find? fun dir => !l.index.touches dir with
  | some dir => dir ++ "/"
  | none =>
    match b with
    | .link _ => path ++ "/"
    | .file .. => path

def untracked (l : Layers) : List StatusEntry :=
  let names := l.untrackedFiles.map fun e => (l.untrackedName e.1 e.2, ())
  (Table.ofList names).keys.map fun n => ⟨"??", quotedPath n⟩

/-- The short status. -/
def status (l : Layers) : List StatusEntry := l.tracked ++ l.untracked

/-- The index and the files it knows are as in the commit.  What happens inside of other working
trees does not count. -/
def isClean (l : Layers) : Bool := { l with edited := [] }.tracked.isEmpty

/-- The index with all files as they are now. -/
def addAll (l : Layers) : Content :=
  let kept := l.index.entries.filterMap fun e => (l.files.get? e.1).map (e.1, ·)
  Table.ofList (kept ++ l.untrackedFiles)

/-- Files a change would overwrite although no commit has them: new ones that are not ignored,
and changed ones.  One that is missing is in nobody's way. -/
def obstructed (l : Layers) (changes : List Content.Change) : Bool :=
  changes.any fun c =>
    match l.index.get? c.path with
    | some b => (l.files.get? c.path).any (· ≠ b)
    | none =>
      c.after.isSome &&
        l.untrackedFiles.any fun e =>
          e.1 = c.path || Text.startsWith c.path (e.1 ++ "/") || Text.startsWith e.1 (c.path ++ "/")

end Layers

end Git
end Foreman
