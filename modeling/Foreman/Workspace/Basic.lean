/-
# Workspaces

Each worker edits in a working tree of its own, on a branch of its own that starts at the trunk
(`WorkspaceManager`).  A worker that is tried again finds its earlier edits: a directory that is
there is used as it is, and a branch without one gets a new directory.
-/
import Foreman.Git.Client
import Foreman.Task.Id

namespace Foreman

/-- The working tree of a worker. -/
structure Workspace where
  path : String
  branch : String
  /-- It was there from an earlier attempt. -/
  reused : Bool := false
deriving DecidableEq, Repr, Inhabited

/-- Where workspaces are made. -/
structure Workspaces where
  /-- The root of the project. -/
  root : String
  /-- The directory of all workspaces. -/
  dir : String
  trunk : String
deriving DecidableEq, Repr, Inhabited

namespace Workspaces

open Git (Work)

/-- The directory of a worker. -/
def pathFor (ws : Workspaces) (workerId : String) : String := Path.join ws.dir workerId

/-- The workspace of a worker, made from the trunk if it is not there. -/
def acquire (ws : Workspaces) (workerId : String) : Work Workspace := do
  let path := ws.pathFor workerId
  let branch := WorkerId.branch workerId
  let m ← get
  if m.files.exists (Path.join path ".git") then return ⟨path, branch, true⟩
  match m.files.mkdirAll ws.dir with
  | .error e => throw ("Failed to create " ++ ws.dir ++ ": " ++ e.message)
  | .ok files =>
    set { m with files := files }
    -- the record of a directory that is gone would be in the way
    Git.tryIt (Git.pruneWorktrees ws.root)
    if ← Git.branchExists ws.root branch then Git.attachWorktree ws.root path branch
    else Git.addWorktree ws.root path branch ws.trunk
    return ⟨path, branch, false⟩

/-- Commits what is left and tells whether the branch has something the trunk has not. -/
def finalize (ws : Workspaces) (w : Workspace) (message : String) : Work Bool := do
  let _ ← Git.commitAll w.path message
  return 0 < (← Git.commitsAhead w.path ws.trunk)

/-- Removes the working tree, and the branch too if that is wanted. -/
def release (ws : Workspaces) (w : Workspace) (dropBranch : Bool) : Work Unit := do
  if (← get).files.exists w.path then Git.removeWorktree ws.root w.path
  Git.tryIt (Git.pruneWorktrees ws.root)
  if dropBranch && (← Git.branchExists ws.root w.branch) then Git.dropBranch ws.root w.branch

end Workspaces
end Foreman
