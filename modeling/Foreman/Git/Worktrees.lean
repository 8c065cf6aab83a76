/-
# Working trees beside the main one

A repository can be checked out in several directories, each on a branch of its own.  The
repository keeps a record of each, which stays when the directory is removed by hand and then
stands in the way until it is pruned.

A worker works in a tree of its own, so workers do not meet in their files before their branches
are merged.  `Foreman.Workspace.Basic` says when such a tree is made and when it is removed.
-/
import Foreman.Git.Branching

namespace Foreman
namespace Git

/-- The last part of a path. -/
def baseName (path : String) : String := (Path.fileName? path).getD ""

/-- Where the repository keeps what belongs to a working tree. -/
def gitDir (r : Repository) (w : Worktree) : String :=
  if r.main.path = w.path then w.path ++ "/.git"
  else r.main.path ++ "/.git/worktrees/" ++ baseName w.path

/-- Why a working tree cannot be put at a path. -/
def pathRefusal? (m : Machine) (r : Repository) (path : String) : Option String :=
  if m.files.exists path && !(m.files.isDir path && (m.files.below path).isEmpty) then
    some ("fatal: '" ++ path ++ "' already exists")
  else if r.worktrees.any fun w => w.path = path then
    some ("fatal: '" ++ path ++ "' is a missing but already registered worktree;\n" ++
      "use 'add -f' to override, or 'prune' or 'remove' to clear")
  else none

/-- Checks a commit out in a new working tree. -/
def attach (m : Machine) (r : Repository) (path : String) (head : Head) (id : Nat) :
    Except String Machine :=
  match m.files.mkdirAll path with
  | .error _ => .error ("fatal: could not create leading directories of '" ++ path ++ "'")
  | .ok files =>
    let content := r.content id
    let w : Worktree := { path := path, head := head, index := content, origin := some id }
    let mark := "gitdir: " ++ gitDir r w ++ "\n"
    let files := (files.writeText (path ++ "/.git") mark).toOption.getD files
    let files := writeChanges files path (Content.changes .empty content)
    .ok ({ m with files := files }.setRepository { r with linked := r.linked ++ [w] })

/-- A new working tree on a new branch.  The branch is made first and stays if the path turns out
to be taken. -/
def addOnBranch (m : Machine) (p : Place) (path branch start : String) : Done :=
  let preparing := "Preparing worktree (new branch '" ++ branch ++ "')\n"
  if (p.resolve? start).isNone then refuse m 128 ("fatal: invalid reference: " ++ start)
  else
    match createBranch p branch start with
    | .error e => refuse m 255 (preparing ++ e)
    | .ok (id, p) =>
      let m := m.setRepository p.repo
      match pathRefusal? m p.repo path with
      | some e => refuse m 128 (preparing ++ e)
      | none =>
        match attach m p.repo path (.branch branch) id with
        | .ok m => (.ok "", m)
        | .error e => refuse m 128 (preparing ++ e)

/-- A new working tree on a branch that exists, or on a commit. -/
def addOn (m : Machine) (p : Place) (path rev : String) : Done :=
  match p.resolve? rev with
  | none => refuse m 128 ("fatal: invalid reference: " ++ rev)
  | some id =>
    let isBranch := (p.repo.branches.get? rev).isSome
    let preparing :=
      if isBranch then "Preparing worktree (checking out '" ++ rev ++ "')\n"
      else "Preparing worktree (detached HEAD)\n"
    match pathRefusal? m p.repo path with
    | some e => refuse m 128 (preparing ++ e)
    | none =>
      if isBranch && p.repo.isCheckedOut rev then
        refuse m 128 (preparing ++ "fatal: '" ++ rev ++ "' is already used by a worktree")
      else
        match attach m p.repo path (if isBranch then .branch rev else .detached id) id with
        | .ok m => (.ok "", m)
        | .error e => refuse m 128 (preparing ++ e)

/-- Removes a working tree with its directory. -/
def removeTree (m : Machine) (p : Place) (force : Bool) (path : String) : Done :=
  if p.repo.main.path = path then refuse m 128 ("fatal: '" ++ path ++ "' is a main working tree")
  else
    match p.repo.linked.find? fun w => w.path = path with
    | none => refuse m 128 ("fatal: '" ++ path ++ "' is not a working tree")
    | some w =>
      let there := m.files.exists path
      if there && !m.files.isFile (path ++ "/.git") then
        refuse m 128 ("fatal: validation failed, cannot remove working tree: '" ++ path ++ "'")
      else if there && !force && !((m.layers ⟨p.repo, w, ""⟩).status).isEmpty then
        refuse m 128
          ("fatal: '" ++ path ++ "' contains modified or untracked files, use --force to delete it")
      else
        let linked := p.repo.linked.filter fun v => v.path ≠ path
        (.ok "", { m with files := m.files.removeAll path }.setRepository
          { p.repo with linked := linked })

/-- Forgets the working trees whose directories are gone. -/
def prune (m : Machine) (p : Place) : Done :=
  let linked := p.repo.linked.filter fun w => m.files.isFile (w.path ++ "/.git")
  (.ok "", m.setRepository { p.repo with linked := linked })

end Git
end Foreman
