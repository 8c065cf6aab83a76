/-
# Merging into the trunk

A branch is first carried over to the trunk in its own workspace and then merged at the root of
the project with a commit of its own.  A command may have the last word: if it fails, the merge
is taken back, to where the trunk was before it.  This is the `GitMerger`, on the machine of
`Machine.Basic`.

A workspace that is gone is no obstacle, since the branch is all that the merge needs.  The root
of the project has to be on the trunk already; the merger never changes branches there.
-/
import Foreman.Merge.Report
import Foreman.Process.Launch
import Foreman.Workspace.Basic

namespace Foreman

/-- How branches reach the trunk. -/
structure TrunkMerge where
  workspaces : Workspaces
  /-- The command that validates a merge. -/
  validate : Option String
deriving DecidableEq, Repr, Inhabited

namespace TrunkMerge

open Git (Work)

/-- A blank command is none. -/
def ofCommand (ws : Workspaces) (command : String) : TrunkMerge :=
  let command := Text.trim command
  ⟨ws, if command = "" then none else some command⟩

/-- The code as an operator sees it; a command that was killed has none. -/
def codeText : Option Nat → String
  | some code => "Some(" ++ toString code ++ ")"
  | none => "None"

/-- Runs the command that validates, if there is one. -/
def runValidation (t : TrunkMerge) : Work Unit := do
  match t.validate with
  | none => return ()
  | some text =>
    match (← get).capture ⟨"sh", ["-c", text], t.workspaces.root, []⟩ with
    | .error e => throw ("Failed to run validation command: " ++ e.message)
    | .ok (c, m) =>
      set m
      if !c.ending.isSuccess then
        throw ("validation failed (" ++ codeText c.ending.ownCode? ++ "): " ++ Text.trim c.err)

/-- The work, with a failure of it told in other words. -/
def reraise {α : Type} (w : Work α) (tell : String → String) : Work α := fun m =>
  match w m with
  | (.error e, m) => (.error (tell e), m)
  | done => done

/-- Carries the branch over to the trunk, merges it, and has the result validated (`integrate`). -/
def integrate (t : TrunkMerge) (c : Candidate) : Work Unit := do
  let root := t.workspaces.root
  let trunk := t.workspaces.trunk
  let current ← Git.currentBranch root
  if current ≠ trunk then
    throw ("project root is on '" ++ current ++ "', expected trunk '" ++ trunk ++ "'")
  if (← get).files.exists c.workspace then
    reraise (Git.rebaseOnto c.workspace trunk) fun e => "rebase onto " ++ trunk ++ " failed: " ++ e
  Git.mergeWithCommit root c.branch ("[" ++ c.taskId ++ "] Merge " ++ c.branch)
  fun m =>
    match runValidation t m with
    | (.ok (), m) => (.ok (), m)
    | (.error e, m) =>
      match Git.hardReset root "ORIG_HEAD" m with
      | (.ok (), m) => (.error e, m)
      | (.error reset, m) => (.error (e ++ "; rollback also failed: " ++ reset), m)

/-- The workspace and the branch are not needed any more. -/
def cleanup (t : TrunkMerge) (c : Candidate) : Work Unit :=
  reraise (t.workspaces.release ⟨c.workspace, c.branch, false⟩ true) fun e =>
    "Workspace error: " ++ e

/-- The merger on the machine. -/
def merger (t : TrunkMerge) : Merger Machine where
  integrate c m := t.integrate c m
  cleanup c m := t.cleanup c m

end TrunkMerge
end Foreman
