/-
# The state document

The state is kept as JSON.  A file that is missing or blank is a fresh start; a file of another
version, or one that cannot be read as a state, is refused, so that no run begins on half a
memory.

Writing goes in two steps, as in `StateStore`.  The document is staged beside its file, with the
time of writing noted in it, and then put in place as a whole.  The coordinator writes the backlog
between the two steps; the command line does both at once (`save`).
-/
import Foreman.Files.Tree
import Foreman.Json.Reader
import Foreman.Json.Writer
import Foreman.State.Basic

namespace Foreman
namespace State

/-- The text of the document. -/
def document (s : State) : String := s.toJson.pretty

/-- The state in the text of a document, unless its version is another one. -/
def ofDocument (path text : String) : Except Failure State :=
  if Text.isBlankText text then .ok {}
  else
    match (Json.read? text).bind ofJson? with
    | none => .error (.statePersistence ("Corrupt state document " ++ path))
    | some s =>
      if s.schemaVersion = currentVersion then .ok s
      else
        .error (.statePersistence
          ("Unsupported schema_version " ++ toString s.schemaVersion ++ " in " ++ path ++
            " (expected " ++ toString currentVersion ++ ")"))

/-- Loads the state. -/
def load (t : Tree) (path : String) : Except Failure State :=
  match t.readText path with
  | .ok text => ofDocument path text
  | .error .notFound => .ok {}
  | .error e => .error (.statePersistence ("Failed to read " ++ path ++ ": " ++ e.message))

/-- The directory of the state is made, or the reason why it cannot be. -/
def prepare (t : Tree) (path : String) : Except String Tree :=
  match Path.parent? path with
  | none => .error ("Cannot determine parent directory of " ++ path)
  | some parent =>
    match t.mkdirAll parent with
    | .ok t => .ok t
    | .error e => .error ("Failed to create directory " ++ parent ++ ": " ++ e.message)

/-- The document can be staged beside its file, or the reason why it cannot be. -/
def stage (t : Tree) (path : String) : Except String Unit :=
  let parent := (Path.parent? path).getD ""
  match t.stage parent with
  | .ok () => .ok ()
  | .error e => .error ("Failed to create temp file in " ++ parent ++ ": " ++ e.message)

/-- The staged document is put in place, or the reason why it cannot be. -/
def commit (t : Tree) (path : String) (s : State) : Except String Tree :=
  match t.replace path (Utf8.encode s.document.toList) with
  | .ok t => .ok t
  | .error e =>
    .error ("Failed to rename temp file to " ++ path ++ ": failed to persist temporary file: " ++
      e.message)

/-- Saves the state.  Returns it with the time of writing. -/
def save (t : Tree) (path : String) (s : State) (now : Instant) :
    Except Failure (State × Tree) :=
  match prepare t path with
  | .error reason => .error (.statePersistence reason)
  | .ok t =>
    let s := s.stamped now
    match stage t path with
    | .error reason => .error (.statePersistence reason)
    | .ok () =>
      match commit t path s with
      | .error reason => .error (.statePersistence reason)
      | .ok t => .ok (s, t)

end State
end Foreman
