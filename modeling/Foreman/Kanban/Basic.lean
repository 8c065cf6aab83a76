/-
# The backlog

The kanban document: a version and the tasks, which are never removed from it (`KanbanFile`).
It is the user's document.  The orchestrator changes the status of tasks in it and nothing else.

Every look-up takes the first task of an identifier.  That identifiers are distinct is checked
when the document is read.
-/
import Foreman.Task.Basic

namespace Foreman

/-- The backlog. -/
structure Kanban where
  schemaVersion : Nat := 1
  tasks : List Task := []
deriving DecidableEq, Repr, Inhabited

namespace Kanban

/-- The version of the documents this program reads and writes. -/
def currentVersion : Nat := 1

/-- The first task with that identifier. -/
def find? (k : Kanban) (taskId : String) : Option Task := k.tasks.find? fun t => t.id = taskId

/-- What is said of a task that is not in the backlog. -/
def unknownTask (taskId : String) : String := "Task " ++ taskId ++ " not found in kanban"

/-- The first task with that identifier gets the status; `none` if there is no such task. -/
def withStatus? (taskId : String) (status : TaskStatus) : List Task → Option (List Task)
  | [] => none
  | t :: rest =>
    if t.id = taskId then some ({ t with status := status } :: rest)
    else (withStatus? taskId status rest).map (t :: ·)

/-- Changes only the status of a task (`set_status`).  An unknown task is refused. -/
def setStatus (k : Kanban) (taskId : String) (status : TaskStatus) : Except String Kanban :=
  match withStatus? taskId status k.tasks with
  | some tasks => .ok { k with tasks := tasks }
  | none => .error (unknownTask taskId)

/-- The backlog as a value. -/
def toJson (k : Kanban) : Json :=
  .record [("schema_version", Json.ofNat k.schemaVersion),
    ("tasks", .list (k.tasks.map Task.toJson))]

/-- The backlog in a value.  Only the version has to be there. -/
def ofJson? (j : Json) : Option Kanban := do
  let f ← j.asFields? ["schema_version", "tasks"]
  return {
    schemaVersion := ← f.need? "schema_version" (Json.asNat? Text.bound32)
    tasks := ← f.getD? "tasks" (Json.asList? Task.ofJson?) [] }

end Kanban
end Foreman
