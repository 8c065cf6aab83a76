/-
# Setting a project up

The directories, a configuration with all defaults, an empty backlog, and a line in `.gitignore`
that keeps them out of the history (`handle_init`).  What is there already stays as it is, so
the errand may be repeated.

The one file that is changed in place is `.gitignore` (`ensure_gitignored`).  It is read as
text; a file whose bytes are no text counts as empty, and is then written without them.
-/
import Foreman.Config.Document
import Foreman.Kanban.Document
import Foreman.Operator.Console
import Foreman.Text.Search

namespace Foreman
namespace Operator

/-! ## 1. The ignored directory

What the file of ignored paths is made to say.  A line is added only if none says it yet. -/

/-- The line that ignores the program's directory. -/
def ignoredEntry : String := ".ralph/"

/-- Some line of the text is the entry, with blanks around it or not. -/
def ignoresEntry (text : String) : Bool :=
  (Text.lines text).any fun line => Text.trim line = ignoredEntry

/-- The text with a line for the entry behind it. -/
def withEntry (text : String) : String :=
  let ended := if text ≠ "" && !Text.endsWith text "\n" then text ++ "\n" else text
  ended ++ ignoredEntry ++ "\n"

def ignorePath (root : String) : String := Path.join root ".gitignore"

/-- The project ignores the program's directory (`ensure_gitignored`).  A file that cannot be
read counts as empty. -/
def ensureIgnored (t : Tree) (root : String) : Except String Tree :=
  let path := ignorePath root
  let text := (t.readText path).toOption.getD ""
  if ignoresEntry text then .ok t
  else
    match t.writeText path (withEntry text) with
    | .ok t => .ok t
    | .error e => .error ("Failed to write " ++ path ++ ": " ++ e.message)

/-! ## 2. The command

The steps in the order in which they are taken; a failure leaves what was made before it. -/

/-- Makes a directory and those above it. -/
def makeDir (path : String) (t : Tree) : Except String Tree :=
  match t.mkdirAll path with
  | .ok t => .ok t
  | .error e => .error ("Failed to create " ++ path ++ ": " ++ e.message)

/-- Writes a file that is not there yet. -/
def create (path : String) (make : Tree → Except String Tree) : Step Unit := do
  if (← files).exists path then
    note .info (path ++ " already exists, leaving it untouched")
  else
    change make
    note .info ("Created " ++ path)

/-- The configuration with all defaults, as a file. -/
def writeDefaults (path : String) (t : Tree) : Except String Tree :=
  match t.writeText path Config.defaultDocument with
  | .ok t => .ok t
  | .error e => .error ("Failed to write " ++ path ++ ": " ++ e.message)

/-- An empty backlog, as a file. -/
def writeBacklog (path : String) (t : Tree) : Except String Tree := do
  let t ←
    match Path.parent? path with
    | some dir => makeDir dir t
    | none => .ok t
  Kanban.save t path {}

/-- The directory is in a repository. -/
def requireRepository (root : String) : Step Unit := fun c =>
  match onMachine (Git.requireRepository root) c with
  | (.ok (), c) => (.ok (), c)
  | (.error _, c) => (.error "Not a git repository. Run \x60git init\x60 first.", c)

/-- The errand `init`. -/
def setUp (root configPath : String) : Step Unit := do
  requireRepository root
  let c ← inspect fun t => Config.load t configPath
  change (makeDir (c.runtimeDir root))
  change (makeDir (c.worktreeDir root))
  create configPath (writeDefaults configPath)
  create (c.kanbanPath root) (writeBacklog (c.kanbanPath root))
  change fun t => ensureIgnored t root
  note .info ("Initialized wiggum in " ++ root)

end Operator
end Foreman
