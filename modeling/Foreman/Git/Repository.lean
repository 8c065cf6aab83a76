/-
# Repositories

Commits, branches, and the working trees that are attached to a repository.  A commit is known by
its number; its parents were there before it, so their numbers are smaller and history ends.

What git keeps of packs, of remote repositories and of the log of references is left out, since
the program asks for none of it.
-/
import Foreman.Git.Content

namespace Foreman
namespace Git

structure Commit where
  parents : List Nat
  message : String
  content : Content
deriving DecidableEq, Repr, Inhabited

/-- What is checked out. -/
inductive Head where
  | branch (name : String)
  /-- A commit on no branch. -/
  | detached (commit : Nat)
deriving DecidableEq, Repr, Inhabited

/-- A working tree: its directory, what is checked out, and what the next commit will hold. -/
structure Worktree where
  path : String
  head : Head
  index : Content := .empty
  /-- Where it stood before the last merge, rebase or reset. -/
  origin : Option Nat := none
deriving DecidableEq, Repr, Inhabited

structure Repository where
  commits : List Commit := []
  branches : Table Nat := .empty
  tags : Table Nat := .empty
  main : Worktree
  linked : List Worktree := []
deriving DecidableEq, Repr, Inhabited

namespace Repository

/-! ## 1. Commits

History is a list, and parents come before their children.  So the commits above one are found by
going down the numbers once, without a search. -/

def commit? (r : Repository) (id : Nat) : Option Commit := r.commits[id]?

def parents (r : Repository) (id : Nat) : List Nat :=
  match r.commit? id with
  | some c => c.parents.filter (· < id)
  | none => []

def content (r : Repository) (id : Nat) : Content :=
  match r.commit? id with
  | some c => c.content
  | none => .empty

/-- The content a commit started from. -/
def baseContent (r : Repository) (id : Nat) : Content :=
  match r.parents id with
  | p :: _ => r.content p
  | [] => .empty

/-- A new commit and its number. -/
def addCommit (r : Repository) (c : Commit) : Nat × Repository :=
  (r.commits.length, { r with commits := r.commits ++ [c] })

/-- The commits that can be reached, the commit itself included: going down through the numbers
meets every commit before its parents. -/
def ancestors (r : Repository) (id : Nat) : List Nat :=
  (List.range (id + 1)).reverse.foldl
    (fun found i => if i ∈ found then found ++ (r.parents i).filter (· ∉ found) else found) [id]

def isAncestor (r : Repository) (a b : Nat) : Bool := a ∈ r.ancestors b

/-- The last common ancestor, if histories meet. -/
def mergeBase? (r : Repository) (a b : Nat) : Option Nat :=
  let common := (r.ancestors a).filter (· ∈ r.ancestors b)
  let best := common.filter fun c => !common.any fun d => d ≠ c && r.isAncestor c d
  best.max?

/-- The commits of one history that another does not have, the oldest first. -/
def missing (r : Repository) (have_ want : Nat) : List Nat :=
  let known := r.ancestors have_
  ((r.ancestors want).filter (· ∉ known)).mergeSort (· ≤ ·)

/-- Takes ready commits off a stack; a parent becomes ready when all its children were taken. -/
def topoFrom (r : Repository) : Nat → List Nat → List Nat → List Nat → List Nat
  | 0, _, _, _ => []
  | _, _, _, [] => []
  | fuel + 1, all, done, c :: stack =>
    let done := c :: done
    let ready := (r.parents c).filter fun p =>
      all.all fun child => child ∈ done || p ∉ r.parents child
    c :: topoFrom r fuel all done (ready.reverse ++ stack)

/-- A history without a parent in front of a child, the second line of a merge first. -/
def topoOrder (r : Repository) (id : Nat) : List Nat :=
  let all := r.ancestors id
  topoFrom r all.length all [] [id]

/-- The first paragraph of a message on one line. -/
def subject (message : String) : String :=
  Text.joinWith " " ((Text.split message '\n').takeWhile (· ≠ ""))

def subjects (r : Repository) (id : Nat) : List String :=
  (r.topoOrder id).map fun i => subject (((r.commit? i).map Commit.message).getD "")

/-! ## 2. Working trees

The first working tree is that of the repository itself, and the others were added.  They share
commits and branches, and each has its own head and index. -/

def worktrees (r : Repository) : List Worktree := r.main :: r.linked

/-- The commit a working tree is at, unless its branch has none yet. -/
def tip? (r : Repository) (w : Worktree) : Option Nat :=
  match w.head with
  | .branch name => r.branches.get? name
  | .detached id => some id

/-- The content of the commit a working tree is at. -/
def tipContent (r : Repository) (w : Worktree) : Content :=
  match r.tip? w with
  | some id => r.content id
  | none => .empty

/-- The repository with a working tree in the place of the one with its path. -/
def setWorktree (r : Repository) (w : Worktree) : Repository :=
  if r.main.path = w.path then { r with main := w }
  else { r with linked := r.linked.map fun v => if v.path = w.path then w else v }

/-- A working tree moves on to a commit, with its branch if it is on one. -/
def moveTip (r : Repository) (w : Worktree) (id : Nat) : Repository :=
  match w.head with
  | .branch name => { r with branches := r.branches.insert name id }
  | .detached _ => r.setWorktree { w with head := .detached id }

/-- The branch is checked out somewhere, be it in a directory that is gone. -/
def isCheckedOut (r : Repository) (branch : String) : Bool :=
  r.worktrees.any fun w => w.head = .branch branch

/-! ## 3. Names of commits

A revision is a name and steps back from it.  Numbers are shown as names of forty digits, which
can be asked for in turn. -/

/-- A forty-digit name. -/
def sha (id : Nat) : String :=
  let digits := Nat.toDigits 16 (id + 1)
  String.ofList (List.replicate (40 - digits.length) 'c' ++ digits)

/-- The commit a plain name stands for. -/
def named? (r : Repository) (w : Worktree) (name : String) : Option Nat :=
  if name = "HEAD" || name = "@" then r.tip? w
  else if name = "ORIG_HEAD" then w.origin
  else
    let plain := (Text.stripStart? name "refs/heads/").getD name
    let plain := (Text.stripStart? plain "heads/").getD plain
    match r.tags.get? name, r.branches.get? plain with
    | some id, _ => some id
    | none, some id => some id
    | none, none => (List.range r.commits.length).find? fun id =>
        4 ≤ name.length && Text.startsWith (sha id) name

/-- Steps back from a commit: `^` and `^2` for a parent, `~3` for three first parents. -/
def stepBack? (r : Repository) : Nat → Nat → List Char → Option Nat
  | 0, _, _ => none
  | fuel + 1, id, cs =>
    match cs with
    | [] => some id
    | mark :: rest =>
      let digits := rest.takeWhile Char.isDigit
      let n : Nat :=
        if digits = [] then 1 else (digits.foldl (fun n c => 10 * n + (c.toNat - 48)) 0)
      let rest := rest.drop digits.length
      if mark = '^' then
        if n = 0 then stepBack? r fuel id rest
        else (r.parents id)[n - 1]?.bind fun p => stepBack? r fuel p rest
      else if mark = '~' then
        match n with
        | 0 => stepBack? r fuel id rest
        | n + 1 =>
          (r.parents id).head?.bind fun p =>
            if n = 0 then stepBack? r fuel p rest
            else stepBack? r fuel p ('~' :: (toString n).toList ++ rest)
      else none

/-- The commit that a revision names, seen from a working tree. -/
def resolve? (r : Repository) (w : Worktree) (rev : String) : Option Nat :=
  let name := rev.toList.takeWhile fun c => c ≠ '^' && c ≠ '~'
  let steps := rev.toList.drop name.length
  (r.named? w (String.ofList name)).bind fun id =>
    stepBack? r (r.commits.length + 2 * steps.length + 2) id steps

end Repository

/-! ## 4. Names of branches

What git refuses as the name of a branch; the names of workers pass. -/

/-- A part of a branch's name between slashes. -/
def isBranchPart (part : String) : Bool :=
  part ≠ "" && !Text.startsWith part "." && !Text.endsWith part ".lock"

/-- The name can be that of a branch. -/
def isBranchName (name : String) : Bool :=
  name ≠ "" && name ≠ "@" && name ≠ "HEAD" && !Text.startsWith name "-" &&
    !Text.endsWith name "." && !Text.contains name ".." && !Text.contains name "@\x7b" &&
    (Text.split name '/').all isBranchPart &&
    name.toList.all fun c => 32 < c.toNat && c.toNat ≠ 127 && !("~^:?*[\\".toList.contains c)

end Git
end Foreman
