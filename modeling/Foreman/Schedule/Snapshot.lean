/-
# What the scheduler looks at

A snapshot is the part of the backlog and of the state that decides which task runs next.  The
scheduler asks the coordinator for one in each pass and plans on the copy, while workers go on;
what has changed meanwhile is found out when an order is dispatched.
-/
import Foreman.Kanban.Basic
import Foreman.State.Basic

namespace Foreman

/-- A copy of what the scheduler ranks against. -/
structure Snapshot where
  tick : Nat := 0
  tasks : List Task := []
  resume : Table Resume := .empty
  registry : Registry := {}
  workers : List Worker := []
  firstSeen : Table Instant := .empty
deriving DecidableEq, Repr, Inhabited

namespace Snapshot

/-- The snapshot of the two documents in memory. -/
def of (s : State) (k : Kanban) : Snapshot :=
  { tick := s.tick, tasks := k.tasks, resume := s.resume, registry := s.registry,
    workers := s.workers, firstSeen := s.firstSeen }

/-- The first task of that identifier. -/
def task? (s : Snapshot) (taskId : String) : Option Task := s.tasks.find? fun t => t.id = taskId

/-- What is remembered of a task; of a task without a record, nothing. -/
def resumeOf (s : Snapshot) (taskId : String) : Resume := (s.resume.get? taskId).getD {}

/-- When the task was created: its own date, or else when it was first seen. -/
def createdAt? (s : Snapshot) (t : Task) : Option Instant :=
  match t.created with
  | some c => some c
  | none => s.firstSeen.get? t.id

/-- Whether a task has an active worker. -/
def hasActiveWorker (s : Snapshot) (taskId : String) : Bool :=
  s.workers.any fun w => w.taskId = taskId && w.status.isActive

/-- The worker that waits for the task's next attempt. -/
def retryWorker? (s : Snapshot) (taskId : String) : Option Worker :=
  s.workers.find? fun w => w.taskId = taskId && w.status = .awaitingRetry

end Snapshot
end Foreman
