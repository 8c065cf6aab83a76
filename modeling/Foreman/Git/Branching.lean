/-
# Commits, branches and merges in a working tree

Each operation works at a place and gives how it ended and the machine after it.  An operation
that fails leaves files and history as they were.

A place is a working tree with its repository, taken out of the machine for the time of the
operation and put back by `Place.save`.  Commits are only ever added.

Merges and rebases work on contents and not on files: the files are changed once it is clear
that there is no conflict, so there is nothing to take back.
-/
import Foreman.Git.ThreeWay
import Foreman.Machine.Basic
import Foreman.Text.Blank

namespace Foreman
namespace Git

/-- How an operation ended, and the machine after it. -/
abbrev Done := Exit × Machine

/-- Nothing happened but a message. -/
def refuse (m : Machine) (code : Nat) (message : String) : Done := (.fail code message, m)

namespace Place

/-- The repository and working tree of the place are put back into the machine. -/
def save (p : Place) (m : Machine) : Machine := m.setRepository (p.repo.setWorktree p.tree)

def tip? (p : Place) : Option Nat := p.repo.tip? p.tree

def resolve? (p : Place) (rev : String) : Option Nat := p.repo.resolve? p.tree rev

/-- A path seen from the place, as one seen from the top of the working tree. -/
def seen (p : Place) (path : String) : String :=
  let full := Machine.absolute (Path.join p.tree.path p.inside) path
  (Text.stripStart? full (p.tree.path ++ "/")).getD ""

/-- The place with another index. -/
def withIndex (p : Place) (index : Content) : Place :=
  { p with tree := { p.tree with index := index } }

/-- The working tree moves on to a commit. -/
def moveTip (p : Place) (id : Nat) : Place :=
  let repo := p.repo.moveTip p.tree id
  match p.tree.head with
  | .branch _ => { p with repo := repo }
  | .detached _ => { p with repo := repo, tree := { p.tree with head := .detached id } }

/-- Notes where the working tree stands. -/
def noteOrigin (p : Place) : Place := { p with tree := { p.tree with origin := p.tip? } }

/-- Index and files change as told. -/
def carryOut (p : Place) (m : Machine) (changes : List Content.Change) : Place × Machine :=
  let index := changes.foldl (fun c ch => c.set ch.path ch.after) p.tree.index
  (p.withIndex index, { m with files := writeChanges m.files p.tree.path changes })

end Place

/-! ## 1. Commits

A commit takes the index as it is.  Its message is tidied, and an empty one is refused unless
that is asked for. -/

/-- One blank line in the place of several; `blank` holds behind a blank line and at the start. -/
def squeezeLines (blank : Bool) : List String → List String
  | [] => []
  | l :: rest =>
    if l = "" then (if blank then squeezeLines true rest else "" :: squeezeLines true rest)
    else l :: squeezeLines false rest

/-- Blanks at the ends of lines go, and so do blank lines at both ends and all but one in
between. -/
def tidyMessage (message : String) : String :=
  let lines := squeezeLines true ((Text.split message '\n').map Text.trimEnd)
  Text.joinWith "\n" (lines.reverse.dropWhile (· = "")).reverse

/-- Commits the index. -/
def commit (m : Machine) (p : Place) (message : String) (allowEmpty amend : Bool) : Done :=
  let message := tidyMessage message
  if message = "" then refuse m 1 "Aborting commit due to empty commit message."
  else if !allowEmpty && !amend && p.repo.tipContent p.tree = p.tree.index then
    ({ code := 1, out := "nothing to commit, working tree clean\n" }, m)
  else
    let parents :=
      match p.tip? with
      | some id => if amend then p.repo.parents id else [id]
      | none => []
    let (id, repo) := p.repo.addCommit ⟨parents, message, p.tree.index⟩
    (.ok "", ({ p with repo := repo }.moveTip id).save m)

/-! ## 2. Branches

A branch is a name for a commit.  One that is checked out somewhere is neither removed nor
checked out a second time. -/

/-- A new branch at a commit. -/
def createBranch (p : Place) (name start : String) : Except String (Nat × Place) :=
  if !isBranchName name then .error ("fatal: '" ++ name ++ "' is not a valid branch name")
  else if (p.repo.branches.get? name).isSome then
    .error ("fatal: a branch named '" ++ name ++ "' already exists")
  else
    match p.resolve? start with
    | none => .error ("fatal: not a valid object name: '" ++ start ++ "'")
    | some id =>
      .ok (id, { p with repo := { p.repo with branches := p.repo.branches.insert name id } })

def deleteBranch (m : Machine) (p : Place) (force : Bool) (name : String) : Done :=
  match p.repo.branches.get? name with
  | none => refuse m 1 ("error: branch '" ++ name ++ "' not found")
  | some id =>
    if p.repo.isCheckedOut name then
      refuse m 1 ("error: cannot delete branch '" ++ name ++ "' used by worktree")
    else if !force && !(p.tip?.any fun tip => p.repo.isAncestor id tip) then
      refuse m 1 ("error: the branch '" ++ name ++ "' is not fully merged")
    else
      let repo := { p.repo with branches := p.repo.branches.erase name }
      (.ok "", m.setRepository repo)

def renameBranch (m : Machine) (p : Place) (force : Bool) (old new : String) : Done :=
  if !isBranchName new then
    refuse m 128 ("fatal: '" ++ new ++ "' is not a valid branch name")
  else if !force && old ≠ new && (p.repo.branches.get? new).isSome then
    refuse m 128 ("fatal: a branch named '" ++ new ++ "' already exists")
  else
    match p.repo.branches.get? old with
    | none => refuse m 128 ("fatal: no branch named '" ++ old ++ "'")
    | some id =>
      let turn (w : Worktree) : Worktree :=
        if w.head = .branch old then { w with head := .branch new } else w
      let repo :=
        { p.repo with
          branches := (p.repo.branches.erase old).insert new id
          main := turn p.repo.main
          linked := p.repo.linked.map turn }
      (.ok "", m.setRepository repo)

/-- Goes over to a commit; changes of files that it does not touch are kept. -/
def switchTo (m : Machine) (p : Place) (id : Nat) (head : Head) : Done :=
  let l := m.layers p
  let changes := Content.changes l.tip (p.repo.content id)
  if (changes.any fun c => l.index.get? c.path ≠ c.before) || l.obstructed changes then
    refuse m 1 "error: Your local changes to the following files would be overwritten by checkout"
  else
    let (p, m) := p.carryOut m changes
    (.ok "", { p with tree := { p.tree with head := head } }.save m)

/-! ## 3. Reset

A hard reset changes the files of the commits before and after it, and leaves those alone that
neither has. -/

/-- Files and index become those of a commit. -/
def resetHard (m : Machine) (p : Place) (id : Nat) : Machine :=
  let l := m.layers p
  let target := p.repo.content id
  let changes := (Content.paths l.index target).filterMap fun path =>
    if l.files.get? path = target.get? path then none
    else some (⟨path, l.files.get? path, target.get? path⟩ : Content.Change)
  let (p, m) := (p.noteOrigin).carryOut m changes
  ((p.moveTip id).withIndex target).save m

/-- Only the branch moves, or the index with it. -/
def resetSoft (m : Machine) (p : Place) (id : Nat) (index : Bool) : Machine :=
  let p := p.noteOrigin.moveTip id
  (if index then p.withIndex (p.repo.content id) else p).save m

/-! ## 4. Merge

A merge is refused before it begins if the index is not as in the commit, and given up before a
file is touched if there is a conflict. -/

/-- Whether a merge waits for its commit. -/
def isMerging (m : Machine) (p : Place) : Bool :=
  m.files.exists (p.tree.path ++ "/.git/MERGE_HEAD")

/-- Merges a commit into the one that is checked out. -/
def merge (m : Machine) (p : Place) (other : Nat) (message : String) (fastForward : Bool) : Done :=
  match p.tip? with
  | none => refuse m 128 "fatal: no commit to merge into"
  | some tip =>
    if isMerging m p then
      refuse m 128 "fatal: You have not concluded your merge (MERGE_HEAD exists)."
    else
      let l := m.layers p
      -- the tip is noted as origin before anything is compared, so a refusal leaves it noted
      let p := p.noteOrigin
      if p.repo.isAncestor other tip then (.ok "Already up to date.\n", p.save m)
      else if l.index ≠ l.tip then
        refuse (p.save m) 2
          "error: Your local changes to the following files would be overwritten by merge"
      else
        let base := ((p.repo.mergeBase? tip other).map p.repo.content).getD .empty
        match mergeContent base l.tip (p.repo.content other) with
        | none =>
          refuse (p.save m) 1 "Automatic merge failed; fix conflicts and then commit the result."
        | some merged =>
          let changes := Content.changes l.tip merged
          -- files that differ from the tip, or are not tracked, are not written over
          if l.obstructed changes then
            refuse (p.save m) 1 "error: The following files would be overwritten by merge"
          else
            let (p, m) := p.carryOut m changes
            if fastForward && p.repo.isAncestor tip other then (.ok "", (p.moveTip other).save m)
            else
              let (id, repo) := p.repo.addCommit ⟨[tip, other], tidyMessage message, merged⟩
              (.ok "", ({ p with repo := repo }.moveTip id).save m)

/-! ## 5. Rebase

Commits are carried over in the repository alone, and the working tree goes over to the last of
them when all fit. -/

/-- What a commit changed. -/
def patch (r : Repository) (id : Nat) : List Content.Change :=
  Content.changes (r.baseContent id) (r.content id)

/-- The commits that are carried over: those on this side alone, without merges, and without
those whose change the other side made too. -/
def toReplay (r : Repository) (onto tip : Nat) : List Nat :=
  let theirs := (r.missing tip onto).map (patch r)
  (r.missing onto tip).filter fun id =>
    (r.parents id).length ≤ 1 && ((patch r id).isEmpty || patch r id ∉ theirs)

/-- Carries commits over, one after the other; `none` if there is a conflict.  A commit that
changes nothing any more is left out. -/
def replay (r : Repository) (at_ : Nat) : List Nat → Option (Nat × Repository)
  | [] => some (at_, r)
  | id :: rest =>
    match mergeContent (r.baseContent id) (r.content at_) (r.content id) with
    | none => none
    | some merged =>
      if merged = r.content at_ && !(patch r id).isEmpty then replay r at_ rest
      else
        let (new, r) := r.addCommit ⟨[at_], ((r.commit? id).map Commit.message).getD "", merged⟩
        replay r new rest

/-- Carries the commits of the working tree over to another commit. -/
def rebase (m : Machine) (p : Place) (onto : Nat) : Done :=
  match p.tip? with
  | none => refuse m 128 "fatal: no commit to rebase"
  | some tip =>
    let l := m.layers p
    if !l.isClean then refuse m 1 "error: cannot rebase: You have unstaged changes."
    else if m.files.exists (p.tree.path ++ "/.git/rebase-merge") then
      refuse m 128 "fatal: It seems that there is already a rebase-merge directory"
    -- nothing to carry over, unless a merge stands among the commits and is to be made flat
    else if p.repo.isAncestor onto tip &&
        (p.repo.missing onto tip).all fun id => (p.repo.parents id).length ≤ 1 then
      (.ok "Current branch is up to date.\n", m)
    else
      match replay p.repo onto (toReplay p.repo onto tip) with
      | none => refuse (p.noteOrigin.save m) 1 "error: could not apply a commit"
      | some (new, repo) =>
        let changes := Content.changes l.tip (repo.content new)
        if l.obstructed changes then
          refuse (p.noteOrigin.save m) 1
            "error: The following untracked working tree files would be overwritten by checkout"
        else
          let (p, m) := ({ p.noteOrigin with repo := repo } : Place).carryOut m changes
          (.ok "", (p.moveTip new).save m)

end Git
end Foreman
