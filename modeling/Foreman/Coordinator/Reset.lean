/-
# The operator's reset

A failed or blocked task goes back to pending with its history cleared, and its workers that are
not closed yet are abandoned.  `State.reset` is `reset_task`; it is the only way out of `failed`,
and it changes both documents in memory.  The command that loads them, resets the task and writes
them is `Operator.reset`.
-/
import Foreman.Kanban.Basic
import Foreman.State.Liveness

namespace Foreman
namespace State

/-- Why a task cannot be reset. -/
def resetRefusal (taskId : String) (status : TaskStatus) : String :=
  "Task " ++ taskId ++ " is " ++ status.name ++ "; only failed or blocked tasks can be reset"

/-- Forgets a task's attempts and its place in the queue, and abandons its open workers one by
one.  What metrics and first sight say of the task stays. -/
def forget (s : State) (taskId : String) : State :=
  let s := { s with resume := s.resume.erase taskId, registry := s.registry.dequeue taskId }
  let open_ := s.workers.filter fun w => w.taskId = taskId && !w.status.isTerminal
  open_.foldl (fun s w => s.abandon w.id) s

/-- Resets a task (`reset_task`).  Both refusals come before the first change. -/
def reset (s : State) (k : Kanban) (taskId : String) : Except String (State × Kanban) :=
  match k.find? taskId with
  | none => .error (Kanban.unknownTask taskId)
  | some task =>
    if task.status = .failed || task.status = .blocked then
      (k.setStatus taskId .pending).map fun k => (s.forget taskId, k)
    else .error (resetRefusal taskId task.status)

end State
end Foreman
