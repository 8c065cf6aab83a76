/-
# The plan of a task

A task may name a file with its plan (`load_plan`).  The path is seen from the root of the
project and not from the workspace of the worker, so that all workers read one and the same
plan.  A plan that cannot be read is passed over: the task is worked on without it.
-/
import Foreman.Files.Tree
import Foreman.Task.Basic

namespace Foreman
namespace Agent

/-- The text of the plan of a task, whose path is seen from the root of the project. -/
def readPlan? (t : Tree) (projectRoot : String) (task : Task) : Option String :=
  match task.plan with
  | none => none
  | some path =>
    match t.readText (Path.join projectRoot path) with
    | .ok text => some text
    | .error _ => none

end Agent
end Foreman
