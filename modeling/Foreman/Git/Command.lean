/-
# Git's command line

The commands and options that programs use, each carried out on the machine.  A command that is
not known here fails.

The arguments are taken apart here and nowhere else; what a command then does is in the modules
on branches, working trees and the status.  The messages of failures are those that git writes,
since the program tells them to the operator.
-/
import Foreman.Git.Worktrees

namespace Foreman
namespace Git

/-! ## 1. Arguments

The arguments of all commands are taken apart alike: flags, options with values, words, and
paths behind two dashes. -/

/-- The arguments of a command. -/
structure Args where
  flags : List String := []
  values : List (String × String) := []
  words : List String := []
  /-- What stands behind two dashes. -/
  paths : Option (List String) := none
deriving Repr, Inhabited

namespace Args

/-- Letters behind one dash stand for flags of their own. -/
def cluster (arg : String) : List String :=
  match arg.toList with
  | '-' :: c :: d :: rest =>
    if c = '-' then [arg] else (c :: d :: rest).map fun c => String.ofList ['-', c]
  | _ => [arg]

/-- Takes the arguments apart; `valued` lists the options that take the next argument. -/
def read (valued : List String) : Nat → List String → Args
  | 0, _ => {}
  | _, [] => {}
  | fuel + 1, arg :: rest =>
    if arg = "--" then { paths := some rest }
    else if Text.startsWith arg "-" && arg ≠ "-" then
      match cluster arg with
      | a :: b :: more => read valued fuel (a :: b :: more ++ rest)
      | _ =>
        if arg ∈ valued then
          match rest with
          | v :: rest => let a := read valued fuel rest; { a with values := (arg, v) :: a.values }
          | [] => { flags := [arg] }
        else let a := read valued fuel rest; { a with flags := arg :: a.flags }
    else let a := read valued fuel rest; { a with words := arg :: a.words }

def ofList (valued args : List String) : Args :=
  read valued (args.foldl (fun n a => n + a.length + 1) 1) args

def has (a : Args) (flag : String) : Bool := flag ∈ a.flags

def value? (a : Args) (name : String) : Option String :=
  (a.values.find? fun v => v.1 = name).map Prod.snd

/-- The words, and the paths behind two dashes. -/
def all (a : Args) : List String := a.words ++ a.paths.getD []

end Args

/-! ## 2. Files and the index

The commands that change what the next commit holds.  A path of theirs may be a directory, and
then stands for all below it. -/

/-- The path is one that was asked for, or lies below it. -/
def isAsked (asked path : String) : Bool :=
  asked = "" || path = asked || Text.startsWith path (asked ++ "/")

def add (m : Machine) (p : Place) (a : Args) : Done :=
  let l := m.layers p
  let everything := l.addAll
  if a.has "-A" || a.has "--all" then
    if a.all = [] then (.ok "", (p.withIndex everything).save m)
    else (.ok "", ((p.withIndex (pick l everything a.all)).save m))
  else if a.has "-u" then
    (.ok "", (p.withIndex ⟨everything.entries.filter fun e => (l.index.get? e.1).isSome⟩).save m)
  else
    let known := (Content.paths l.index everything)
    match a.all.find? fun s => !(known.any (isAsked (p.seen s))) with
    | some s =>
      if (l.files.keys.any (isAsked (p.seen s))) then
        refuse m 1 "The following paths are ignored by one of your .gitignore files"
      else refuse m 128 ("fatal: pathspec '" ++ s ++ "' did not match any files")
    | none => (.ok "", (p.withIndex (pick l everything a.all)).save m)
where
  /-- The index, with the paths that were asked for as they are now. -/
  pick (l : Layers) (everything : Content) (specs : List String) : Content :=
    (Content.changes l.index everything).foldl
      (fun c ch =>
        if specs.any fun s => isAsked (p.seen s) ch.path then c.set ch.path ch.after else c)
      l.index

/-- Removes tracked files. -/
def remove (m : Machine) (p : Place) (a : Args) : Done :=
  let l := m.layers p
  let asked (path : String) : Bool := a.all.any fun s => isAsked (p.seen s) path
  match a.all.find? fun s => !(l.index.keys.any (isAsked (p.seen s))) with
  | some s => refuse m 128 ("fatal: pathspec '" ++ s ++ "' did not match any files")
  | none =>
    let gone := l.index.entries.filter fun e => asked e.1
    let isDir := a.all.any fun s => (l.index.get? (p.seen s)).isNone
    let changed := gone.any fun e =>
      l.tip.get? e.1 ≠ some e.2 || ((l.files.get? e.1).isSome && l.files.get? e.1 ≠ some e.2)
    if isDir && !a.has "-r" then refuse m 128 "fatal: not removing recursively without -r"
    else if changed && !a.has "-f" && !a.has "--force" && !a.has "--cached" then
      refuse m 1 "error: the following file has changes; use -f to force removal"
    else
      let changes := gone.map fun e => (⟨e.1, some e.2, none⟩ : Content.Change)
      let (p', m') := p.carryOut m changes
      if a.has "--cached" then (.ok "", (p.withIndex p'.tree.index).save m)
      else (.ok "", p'.save m')

/-- Moves a tracked file or directory. -/
def rename (m : Machine) (p : Place) (a : Args) : Done :=
  match a.all with
  | [src, dst] =>
    let top := p.tree.path
    let from_ := p.seen src
    let target :=
      if m.files.isDir (top ++ "/" ++ p.seen dst) then p.seen dst ++ "/" ++ baseName from_
      else p.seen dst
    let moved := p.tree.index.entries.filter fun e => isAsked from_ e.1
    if moved = [] || !m.files.exists (top ++ "/" ++ from_) then
      refuse m 128 ("fatal: bad source, source=" ++ src ++ ", destination=" ++ dst)
    else if m.files.exists (top ++ "/" ++ target) && !a.has "-f" then
      refuse m 128 ("fatal: destination exists, source=" ++ src ++ ", destination=" ++ dst)
    else if !(m.files.isDir ((Path.parent? (top ++ "/" ++ target)).getD "/")) then
      refuse m 128 ("fatal: renaming '" ++ src ++ "' failed: No such file or directory")
    else
      let index := moved.foldl
        (fun c e =>
          let tail := String.ofList (e.1.toList.drop from_.length)
          (c.erase e.1).insert (target ++ tail) e.2)
        p.tree.index
      (.ok "", (p.withIndex index).save
        { m with files := m.files.move (top ++ "/" ++ from_) (top ++ "/" ++ target) })
  | _ => refuse m 129 "usage: git mv <source> <destination>"

/-! ## 3. History

The commands that move branches.  What they do is in `Foreman.Git.Branching`; here are their
options and their refusals. -/

def commitCommand (m : Machine) (p : Place) (args : List String) : Done :=
  let a := Args.ofList ["-m", "--message", "--author", "--date"] args
  let messages := a.values.filterMap fun v =>
    if v.1 = "-m" || v.1 = "--message" then some v.2 else none
  let p :=
    if a.has "-a" || a.has "--all" then
      let l := m.layers p
      p.withIndex ⟨l.addAll.entries.filter fun e => (l.index.get? e.1).isSome⟩
    else p
  let amend := a.has "--amend"
  let message :=
    if messages = [] && amend then
      ((p.tip?.bind p.repo.commit?).map Commit.message).getD ""
    else Text.joinWith "\n\n" messages
  commit m p message (a.has "--allow-empty") amend

def branchCommand (m : Machine) (p : Place) (args : List String) : Done :=
  let a := Args.ofList [] args
  match a.words with
  | [] =>
    if a.has "-D" || a.has "-d" || a.has "-m" || a.has "-M" then
      refuse m 128 "fatal: branch name required"
    else
      let mark (b : String) : String := if p.tree.head = .branch b then "* " else "  "
      (.ok (String.join (p.repo.branches.keys.map fun b => mark b ++ b ++ "\n")), m)
  | name :: more =>
    if a.has "-D" || a.has "-d" || a.has "--delete" then deleteBranch m p (a.has "-D") name
    else if a.has "-m" || a.has "-M" then
      match p.tree.head, more with
      | _, [new] => renameBranch m p (a.has "-M") name new
      | .branch current, _ => renameBranch m p (a.has "-M") current name
      | .detached _, _ => refuse m 128 "fatal: cannot rename the current branch while not on any"
    else
      match createBranch p name (more.head?.getD "HEAD") with
      | .ok (_, p) => (.ok "", m.setRepository p.repo)
      | .error e => refuse m 128 e

/-- Goes over to a branch, a commit or a new branch, or restores files from the index. -/
def checkoutCommand (m : Machine) (p : Place) (args : List String) : Done :=
  let a := Args.ofList ["-b", "-B", "-c", "-C"] args
  let restore (paths : List String) : Done :=
    let l := m.layers p
    let asked := l.index.entries.filter fun e => paths.any fun s => isAsked (p.seen s) e.1
    if asked = [] then refuse m 1 "error: pathspec did not match any file(s) known to git"
    else
      let changes := asked.filterMap fun e =>
        if l.files.get? e.1 = some e.2 then none
        else some (⟨e.1, l.files.get? e.1, some e.2⟩ : Content.Change)
      (.ok "", { m with files := writeChanges m.files p.tree.path changes })
  match (a.value? "-b").or (a.value? "-c"), a.paths with
  | some name, _ =>
    match createBranch p name (a.words.head?.getD "HEAD") with
    | .ok (id, q) =>
      match switchTo m q id (.branch name) with
      | (⟨0, out, err⟩, m) => (⟨0, out, err⟩, m)
      | (e, _) => (e, m)
    | .error e =>
      -- without a commit the branch is only named, and begins with the first commit
      if p.tip?.isNone && isBranchName name && a.words = [] then
        (.ok "", { p with tree := { p.tree with head := .branch name } }.save m)
      else refuse m 128 e
  | none, some paths => restore paths
  | none, none =>
    let rev := a.words.head?.getD "HEAD"
    -- a branch, another name of a commit, or else paths
    match p.repo.branches.get? rev, p.resolve? rev with
    | some id, _ =>
      if a.has "--detach" then switchTo m p id (.detached id)
      else if p.tree.head ≠ .branch rev && p.repo.isCheckedOut rev then
        refuse m 128 ("fatal: '" ++ rev ++ "' is already used by a worktree")
      else switchTo m p id (.branch rev)
    | none, some id =>
      if a.words = [] && !a.has "--detach" then (.ok "", m) else switchTo m p id (.detached id)
    | none, none => restore a.words

def resetCommand (m : Machine) (p : Place) (args : List String) : Done :=
  let a := Args.ofList [] args
  match p.resolve? (a.words.head?.getD "HEAD") with
  | none =>
    refuse m 128 "fatal: ambiguous argument: unknown revision or path not in the working tree."
  | some id =>
    if a.has "--hard" then (.ok "", resetHard m p id)
    else (.ok "", resetSoft m p id (!a.has "--soft"))

def mergeCommand (m : Machine) (p : Place) (args : List String) : Done :=
  let a := Args.ofList ["-m", "-s", "-X"] args
  if a.has "--abort" then
    if isMerging m p then
      let files := (m.files.removeFile (p.tree.path ++ "/.git/MERGE_HEAD")).toOption.getD m.files
      (.ok "", { m with files := files })
    else refuse m 128 "fatal: There is no merge to abort (MERGE_HEAD missing)."
  else
    match a.words with
    | rev :: _ =>
      match p.resolve? rev with
      | none => refuse m 1 ("merge: " ++ rev ++ " - not something we can merge")
      | some id =>
        merge m p id ((a.value? "-m").getD ("Merge branch '" ++ rev ++ "'")) (!a.has "--no-ff")
    | [] => refuse m 128 "fatal: No remote for the current branch."

def rebaseCommand (m : Machine) (p : Place) (args : List String) : Done :=
  let a := Args.ofList [] args
  match a.words with
  | rev :: _ =>
    match p.resolve? rev with
    | none => refuse m 128 ("fatal: invalid upstream '" ++ rev ++ "'")
    | some id => rebase m p id
  | [] => refuse m 128 "fatal: no rebase in progress"

/-- The number of commits of `b` that `a` does not have, for `a..b`; of all for `b`. -/
def revListCommand (m : Machine) (p : Place) (args : List String) : Done :=
  let a := Args.ofList [] args
  let range := a.words.head?.getD ""
  let ids :=
    match Text.splitOnce? range ".." with
    | some (base, tip) =>
      let orHead (rev : String) : String := if rev = "" then "HEAD" else rev
      match p.resolve? (orHead base), p.resolve? (orHead tip) with
      | some b, some t => some (p.repo.missing b t).reverse
      | _, _ => none
    | none => (p.resolve? range).map p.repo.topoOrder
  match ids with
  | none =>
    refuse m 128 ("fatal: ambiguous argument '" ++ range ++
      "': unknown revision or path not in the working tree.")
  | some ids =>
    if a.has "--count" then (.ok (toString ids.length ++ "\n"), m)
    else (.ok (String.join (ids.map fun id => Repository.sha id ++ "\n")), m)

/-! ## 4. Questions

These leave the machine as it is and answer by what they print, or by their exit code alone. -/

def revParseCommand (m : Machine) (p : Place) (args : List String) : Done :=
  let a := Args.ofList [] args
  if a.has "--git-dir" then
    let dir := gitDir p.repo p.tree
    let isTop := p.inside = "" && p.repo.main.path = p.tree.path
    (.ok ((if isTop then ".git" else dir) ++ "\n"), m)
  else if a.has "--show-toplevel" then (.ok (p.tree.path ++ "\n"), m)
  else if a.has "--is-inside-work-tree" then (.ok "true\n", m)
  else
    match a.words with
    | [rev] =>
      match p.resolve? rev, p.tree.head with
      | none, _ =>
        refuse m 128 ("fatal: ambiguous argument '" ++ rev ++
          "': unknown revision or path not in the working tree.")
      | some id, head =>
        if a.has "--abbrev-ref" then
          match rev, head with
          | "HEAD", .branch name => (.ok (name ++ "\n"), m)
          | "HEAD", .detached _ => (.ok "HEAD\n", m)
          | name, _ => (.ok (name ++ "\n"), m)
        else (.ok (Repository.sha id ++ "\n"), m)
    | _ => refuse m 128 "fatal: Needed a single revision"

def statusText (entries : List StatusEntry) : String :=
  String.join (entries.map fun e => e.code ++ " " ++ e.path ++ "\n")

def showRefCommand (m : Machine) (p : Place) (args : List String) : Done :=
  let a := Args.ofList [] args
  let found := a.words.any fun ref =>
    match Text.stripStart? ref "refs/heads/", Text.stripStart? ref "refs/tags/" with
    | some name, _ => (p.repo.branches.get? name).isSome
    | none, some name => (p.repo.tags.get? name).isSome
    | none, none => ref = "HEAD"
  if found then (.ok "", m) else ({ code := 1 }, m)

def symbolicRefCommand (m : Machine) (p : Place) (args : List String) : Done :=
  let a := Args.ofList [] args
  match p.tree.head with
  | .branch name =>
    let short := if a.has "--short" then name else "refs/heads/" ++ name
    (.ok (short ++ "\n"), m)
  | .detached _ =>
    if a.has "--quiet" || a.has "-q" then ({ code := 1 }, m)
    else refuse m 128 "fatal: ref HEAD is not a symbolic ref"

def logCommand (m : Machine) (p : Place) (args : List String) : Done :=
  let a := Args.ofList ["-n", "--format", "--pretty"] args
  match p.resolve? (a.words.head?.getD "HEAD") with
  | none => refuse m 128 "fatal: your current branch does not have any commits yet"
  | some id => (.ok (String.join ((p.repo.subjects id).map (· ++ "\n"))), m)

/-- Whether there are differences, told by the exit code. -/
def diffCommand (m : Machine) (p : Place) (args : List String) : Done :=
  let a := Args.ofList [] args
  let l := m.layers p
  let staged := a.has "--cached" || a.has "--staged"
  let differs :=
    if staged then l.tip ≠ l.index
    else l.index.keys.any fun path => l.fileLetter path ≠ " "
  if (a.has "--quiet" || a.has "--exit-code") && differs then ({ code := 1 }, m) else (.ok "", m)

def tagCommand (m : Machine) (p : Place) (args : List String) : Done :=
  let a := Args.ofList ["-m"] args
  match a.words with
  | name :: more =>
    match p.resolve? (more.head?.getD "HEAD") with
    | some id => (.ok "", m.setRepository { p.repo with tags := p.repo.tags.insert name id })
    | none => refuse m 128 "fatal: Failed to resolve the revision"
  | [] => (.ok (String.join (p.repo.tags.keys.map (· ++ "\n"))), m)

/-! ## 5. All commands

A command is told the repository that its directory lies in, and fails outside of one, unless it
is to make one. -/

def worktreeCommand (m : Machine) (p : Place) (dir : String) (args : List String) : Done :=
  let a := Args.ofList ["-b", "-B"] (args.drop 1)
  let at_ (path : String) : String := Machine.absolute dir path
  match args.head?, a.value? "-b", a.words with
  | some "add", some branch, path :: more =>
    addOnBranch m p (at_ path) branch (more.head?.getD "HEAD")
  | some "add", none, [path] => addOnBranch m p (at_ path) (baseName path) "HEAD"
  | some "add", none, path :: rev :: _ => addOn m p (at_ path) rev
  | some "remove", _, path :: _ => removeTree m p (a.has "--force" || a.has "-f") (at_ path)
  | some "prune", _, _ => prune m p
  | some "list", _, _ => (.ok (String.join (p.repo.worktrees.map fun w => w.path ++ "\n")), m)
  | _, _, _ => refuse m 129 "usage: git worktree add [<options>] <path> [<commit-ish>]"

/-- A new repository in a directory, on a branch without commits. -/
def initCommand (m : Machine) (dir : String) (args : List String) : Done :=
  let a := Args.ofList ["-b", "--initial-branch"] args
  let top := Machine.absolute dir (a.words.head?.getD "")
  if (m.treeAt? top).isSome then (.ok "", m)
  else
    match m.files.mkdirAll (top ++ "/.git") with
    | .error e => refuse m 128 ("fatal: cannot mkdir " ++ top ++ ": " ++ e.message)
    | .ok files =>
      let branch := ((a.value? "-b").or (a.value? "--initial-branch")).getD "master"
      let r : Repository := { main := { path := top, head := .branch branch } }
      let others := m.repositories.filter fun s => s.main.path ≠ top
      (.ok "", { files := files, repositories := others ++ [r] })

def notRepository : String :=
  "fatal: not a git repository (or any of the parent directories): .git"

/-- Runs git in a directory. -/
def run (m : Machine) (dir : String) : List String → Done
  | "-C" :: sub :: rest => run m (Path.join dir sub) rest
  | "-c" :: _ :: rest => run m dir rest
  | "--version" :: _ => (.ok "git version 2\n", m)
  | "init" :: args => initCommand m dir args
  | cmd :: args =>
    match m.place? dir with
    | none => refuse m 128 notRepository
    | some p =>
      match cmd with
      | "add" => add m p (Args.ofList [] args)
      | "rm" => remove m p (Args.ofList [] args)
      | "mv" => rename m p (Args.ofList [] args)
      | "commit" => commitCommand m p args
      | "branch" => branchCommand m p args
      | "checkout" | "switch" => checkoutCommand m p args
      | "reset" => resetCommand m p args
      | "merge" => mergeCommand m p args
      | "rebase" => rebaseCommand m p args
      | "rev-list" => revListCommand m p args
      | "rev-parse" => revParseCommand m p args
      | "status" => (.ok (statusText (m.layers p).status), m)
      | "show-ref" => showRefCommand m p args
      | "symbolic-ref" => symbolicRefCommand m p args
      | "log" => logCommand m p args
      | "diff" => diffCommand m p args
      | "tag" => tagCommand m p args
      | "worktree" => worktreeCommand m p dir args
      | "config" => (.ok "", m)
      | _ => refuse m 1 ("git: '" ++ cmd ++ "' is not a git command. See 'git --help'.")
  | [] => refuse m 1 "usage: git <command> [<args>]"

end Git
end Foreman
