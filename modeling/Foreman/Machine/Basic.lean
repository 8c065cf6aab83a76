/-
# The machine

The files and the repositories that programs work on, and what a program leaves behind when it
ends.

A machine is all that the programs of a project share: what one of them leaves behind, the next
one finds.  It has no clock.  Where time matters, it is given with the work that takes time.

The files of a repository that a working tree does not show are not among the files of the
machine; they are a value of their own (`Git.Repository`), and `Machine.place?` finds the one
that a directory belongs to by the mark at its top.
-/
import Foreman.Git.Status

namespace Foreman

/-- Files, the repositories among them, and what programs share besides. -/
structure Machine where
  files : Tree := .empty
  repositories : List Git.Repository := []
  /-- The variables that every program finds. -/
  vars : Table String := .empty
  /-- Locked files, each with the process that holds the lock. -/
  locks : Table Nat := .empty
deriving DecidableEq, Repr, Inhabited

/-- The end of a program: its exit code and what it wrote. -/
structure Exit where
  code : Nat := 0
  out : String := ""
  err : String := ""
deriving DecidableEq, Repr, Inhabited

namespace Exit

def isSuccess (e : Exit) : Bool := e.code = 0

/-- A success with some output. -/
def ok (out : String) : Exit := { out := out }

/-- A failure with a message. -/
def fail (code : Nat) (err : String) : Exit := { code := code, err := err ++ "\n" }

end Exit

namespace Git

/-- A directory in a working tree. -/
structure Place where
  repo : Repository
  tree : Worktree
  /-- The directory, seen from the top of the working tree; empty for the top. -/
  inside : String
deriving DecidableEq, Repr, Inhabited

end Git

namespace Machine

/-- An absolute path without dots, seen from a directory. -/
def absolute (dir path : String) : String :=
  Tree.key ((Path.parts (Path.join dir path)).foldl
    (fun acc part => if part = ".." then acc.dropLast else acc ++ [part]) [])

/-- Why a directory cannot be entered. -/
def directoryError? (m : Machine) (dir : String) : Option FileError :=
  match m.files.node? dir with
  | some .directory => none
  | some (.file ..) => some .notDirectory
  | none =>
    match m.files.read dir with
    | .error e => some e
    | .ok _ => some .notDirectory

/-- The machine with a repository in the place of the one in its directory. -/
def setRepository (m : Machine) (r : Git.Repository) : Machine :=
  { m with
    repositories := m.repositories.map fun s => if s.main.path = r.main.path then r else s }

/-- The working tree whose top is at a path; its mark has to be there. -/
def treeAt? (m : Machine) (top : String) : Option (Git.Repository × Git.Worktree) :=
  if m.files.exists (top ++ "/.git") then
    m.repositories.findSome? fun r =>
      (r.worktrees.find? fun w => w.path = top).map (r, ·)
  else none

/-- The place of a directory: the innermost working tree around it. -/
def place? (m : Machine) (dir : String) : Option Git.Place :=
  let parts := Path.parts (absolute dir "")
  (List.range (parts.length + 1)).reverse.findSome? fun n =>
    (m.treeAt? (Tree.key (parts.take n))).map fun (r, w) =>
      ⟨r, w, Text.joinWith "/" (parts.drop n)⟩

/-- The three states of a working tree, looked into as deep as `depth` says. -/
def layersWithin (m : Machine) : Nat → Git.Place → Git.Layers
  | depth, p =>
    let top := p.tree.path
    let tip (dir : String) : Nat :=
      match m.treeAt? (top ++ "/" ++ dir) with
      | some (r, w) => (r.tip? w).getD 0
      | none => 0
    let plain : Git.Layers :=
      { tip := p.repo.tipContent p.tree
        index := p.tree.index
        files := Git.withEmptyLinks m.files top p.tree.index (Git.workingContent m.files top tip)
        rules := Git.ignoreRules m.files top }
    match depth with
    | 0 => plain
    | depth + 1 =>
      let isEdited (dir : String) : Bool :=
        match m.treeAt? (top ++ "/" ++ dir) with
        | some (r, w) => (layersWithin m depth ⟨r, w, ""⟩).status ≠ []
        | none => false
      -- a tree inside this one counts as edited if its own state differs anywhere
      let links := p.tree.index.entries.filter fun e =>
        match e.2 with
        | .link _ => true
        | .file .. => false
      { plain with edited := (links.map Prod.fst).filter isEdited }

/-- The three states of a working tree. -/
def layers (m : Machine) (p : Git.Place) : Git.Layers := m.layersWithin 8 p

end Machine
end Foreman
