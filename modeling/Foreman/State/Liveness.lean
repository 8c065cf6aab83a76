/-
# After a restart

A loaded state is set against the processes that really run (`restore_liveness_with`).  An active
worker without a live process is abandoned and its claims are released; a task that is in progress
without an active worker goes back to pending.

The two steps are told apart by what they look at.  The first goes over the workers and does not
ask what status a task has; the second goes over the tasks and finds every one that no active
worker stands behind, whether it lost one just now or in a crash long ago.
-/
import Foreman.State.Basic

namespace Foreman
namespace State

/-- The worker holds a process slot, and no live process stands behind it.  A worker that was
spawned and has no process yet is lost as well: nobody is left to start one. -/
def isLost (alive : Nat → Bool) (w : Worker) : Bool :=
  w.status.isActive &&
    match w.pid with
    | some pid => !alive pid
    | none => true

/-- Abandons a worker and releases its claims.  Which queued tasks that frees is not told to
anybody, since the next pass plans anew. -/
def abandon (s : State) (workerId : String) : State :=
  let s := s.updateWorker workerId fun w => { w with status := .abandoned }
  { s with registry := (s.registry.release workerId).1 }

/-- Tasks in progress without an active worker go back to pending; `reset` grows by those that are
not in it. -/
def returnTasks (s : State) (reset : List String) : List Task → List Task × List String
  | [] => ([], reset)
  | t :: rest =>
    if t.status = .inProgress ∧ ¬ s.hasActiveWorker t.id then
      let reset := if t.id ∈ reset then reset else reset ++ [t.id]
      let (tasks, reset) := returnTasks s reset rest
      ({ t with status := .pending } :: tasks, reset)
    else
      let (tasks, reset) := returnTasks s reset rest
      (t :: tasks, reset)

/-- The state and the tasks after a restart, and the tasks that were reset: those of lost workers
first, each as often as it lost one, and then the others.  The task of a lost worker is named
whatever its status was. -/
def restoreLiveness (s : State) (tasks : List Task) (alive : Nat → Bool) :
    State × List Task × List String :=
  let lost := s.workers.filter (isLost alive)
  let s := lost.foldl (fun s w => s.abandon w.id) s
  let (tasks, reset) := returnTasks s (lost.map Worker.taskId) tasks
  (s, tasks, reset)

end State
end Foreman
