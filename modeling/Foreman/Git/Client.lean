/-
# Git as a client

What the orchestrator asks of git, through git's command line.  A command that fails is told with
the word it starts with and what git wrote.

Each definition is one question or one change, as the program asks for it: `worktree_add` is
`addWorktree`, `rebase_onto` is `rebaseOnto`, and so on.  The two that may leave a repository
half way, a rebase and a merge, repair it before they tell the failure.

`requireFit` is what a run checks before it starts (`check_preconditions`).
-/
import Foreman.Git.Command
import Foreman.Text.Integer
import Foreman.Text.Search

namespace Foreman
namespace Git

/-- Work on the machine that may fail; what was done before stays. -/
abbrev Work (α : Type) := ExceptT String (StateM Machine) α

/-- Runs git in a directory and gives its output. -/
def command (dir : String) (args : List String) : Work String := do
  let m ← get
  let word := args.head?.getD ""
  match m.directoryError? dir with
  | some e => throw ("Failed to run git " ++ word ++ ": " ++ e.message)
  | none =>
    let (exit, m) := run m (m.files.fullPath dir) args
    set m
    if exit.isSuccess then return exit.out
    else throw ("git " ++ word ++ " failed: " ++ Text.trim exit.err)

/-- Whether a piece of work succeeds. -/
def succeeds {α : Type} (w : Work α) : Work Bool := fun m =>
  match w m with
  | (.ok _, m) => (.ok true, m)
  | (.error _, m) => (.ok false, m)

/-- Carries work out and does not mind if it fails. -/
def tryIt {α : Type} (w : Work α) : Work Unit := do
  let _ ← succeeds w

/-! ## 1. Questions

They change nothing, and a failure of git is told as it stands. -/

def noRepository : String := "Not a git repository (or git is not installed)"

/-- The directory git keeps its own files in. -/
def ownDir (dir : String) : Work String := fun m =>
  match command dir ["rev-parse", "--git-dir"] m with
  | (.ok out, m) => (.ok (Text.trim out), m)
  | (.error _, m) => (.error noRepository, m)

def requireRepository (dir : String) : Work Unit := do
  let _ ← ownDir dir

/-- A line of the short status: two letters, a blank and the path. -/
def statusEntry? (line : String) : Option StatusEntry :=
  match line.toList with
  | a :: b :: _ :: path => some ⟨String.ofList [a, b], String.ofList path⟩
  | _ => none

def status (dir : String) : Work (List StatusEntry) := do
  return (Text.lines (← command dir ["status", "--porcelain"])).filterMap statusEntry?

def headSha (dir : String) : Work String := do
  return Text.trim (← command dir ["rev-parse", "HEAD"])

def currentBranch (dir : String) : Work String := do
  return Text.trim (← command dir ["rev-parse", "--abbrev-ref", "HEAD"])

def branchExists (dir branch : String) : Work Bool :=
  succeeds (command dir ["show-ref", "--verify", "--quiet", "refs/heads/" ++ branch])

/-- The number of commits that `base` does not have. -/
def commitsAhead (dir base : String) : Work Nat := do
  let out := Text.trim (← command dir ["rev-list", "--count", base ++ "..HEAD"])
  match Text.unsigned? Text.bound32 out.toList with
  | some n => return n
  | none => throw ("Unexpected rev-list output '" ++ out ++ "'")

/-- What keeps branches from being integrated in a directory. -/
def requireFit (dir : String) : Work Unit := do
  let own ← ownDir dir
  let dirty := (← status dir).filter fun e => e.code ≠ "??"
  if dirty ≠ [] then
    throw ("Working tree has uncommitted changes (" ++ toString dirty.length ++
      " file(s)). Commit or stash them before running the orchestrator.")
  if !(← succeeds (command dir ["symbolic-ref", "--quiet", "HEAD"])) then
    throw "Detached HEAD state detected. Check out a branch before running the orchestrator."
  let files := (← get).files
  let own := Path.join dir own
  if files.exists (Path.join own "rebase-merge") || files.exists (Path.join own "rebase-apply") then
    throw "Rebase in progress. Complete or abort the rebase before running the orchestrator."
  if files.exists (Path.join own "MERGE_HEAD") then
    throw "Merge in progress. Complete or abort the merge before running the orchestrator."

/-! ## 2. Changes

A change that fails may have been carried out in part; the two that leave a merge or a rebase
open are undone first. -/

/-- Adds a working tree on a new branch that starts at `base`. -/
def addWorktree (dir path branch base : String) : Work Unit := do
  let _ ← command dir ["worktree", "add", "-b", branch, path, base]

/-- Adds a working tree on a branch that exists. -/
def attachWorktree (dir path branch : String) : Work Unit := do
  let _ ← command dir ["worktree", "add", path, branch]

def removeWorktree (dir path : String) : Work Unit := do
  let _ ← command dir ["worktree", "remove", "--force", path]

def pruneWorktrees (dir : String) : Work Unit := do
  let _ ← command dir ["worktree", "prune"]

def dropBranch (dir branch : String) : Work Unit := do
  let _ ← command dir ["branch", "-D", branch]

/-- Commits all there is; false if there was nothing. -/
def commitAll (dir message : String) : Work Bool := do
  if (← status dir) = [] then return false
  let _ ← command dir ["add", "-A"]
  let _ ← command dir ["commit", "-m", message]
  return true

/-- The work, or if it fails, a repair before the failure is told. -/
def orElse (w repair : Work String) : Work Unit := fun m =>
  match w m with
  | (.ok _, m) => (.ok (), m)
  | (.error e, m) => (.error e, (tryIt repair m).2)

/-- Carries the branch over; a conflict leaves it as it was. -/
def rebaseOnto (dir base : String) : Work Unit :=
  orElse (command dir ["rebase", base]) (command dir ["rebase", "--abort"])

/-- Merges a branch with a commit of its own; a conflict leaves all as it was. -/
def mergeWithCommit (dir branch message : String) : Work Unit :=
  orElse (command dir ["merge", "--no-ff", "-m", message, branch])
    (command dir ["merge", "--abort"])

def hardReset (dir rev : String) : Work Unit := do
  let _ ← command dir ["reset", "--hard", rev]

end Git
end Foreman
