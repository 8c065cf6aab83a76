/-
# Starting a task

`State.dispatch` is `apply_dispatch`.  It claims the task's footprint, wakes the worker that waits
for the task or creates a new one, and puts the task in progress.  If the footprint collides with
a claim, the task is put in the queue behind that claim and nothing else changes.

The steps stand in the order of `apply_dispatch`, and so does where each failure leaves: an unknown
or busy task changes nothing, a conflict changes the queue alone, and the two exits behind the
claim would leave the claim behind.  Neither of the two can be taken, which is proved, not built
in.
-/
import Foreman.Files.Path
import Foreman.Kanban.Basic
import Foreman.Schedule.Selection

namespace Foreman

/-- What a worker needs for its start (`DispatchTicket`). -/
structure Ticket where
  worker : Worker
  task : Task
  resume : Resume
deriving DecidableEq, Repr, Inhabited

/-- The ticket as a value, its three parts in the form of their documents. -/
def Ticket.toJson (t : Ticket) : Json :=
  .record [("worker", t.worker.toJson), ("task", t.task.toJson), ("resume", t.resume.toJson)]

namespace State

/-- The worker that waits for the task's next attempt.  If several do, it is the first of them. -/
def retryWorker? (s : State) (taskId : String) : Option Worker :=
  s.workers.find? fun w => w.taskId = taskId && w.status = .awaitingRetry

/-- The claim that a refusal names, as it is held.  A refusal gives holder and pattern only; if no
claim has both, an empty task stands in it. -/
def heldClaim (s : State) (pattern holder : String) : ClaimRef :=
  match s.registry.claims.find? fun c => c.workerId = holder && c.pattern = pattern with
  | some c => c.ref
  | none => ⟨holder, "", pattern⟩

/-- A worker at the start of its next attempt: one iteration on, with no process yet.  Session,
directory and name are those of the attempts before. -/
def wake (w : Worker) (now : Instant) : Worker :=
  { w with iteration := w.iteration + 1, status := .spawned, pid := none, startedAt := now }

/-- A worker at the start of its first attempt.  Its directory is named after it. -/
def recruit (workerId taskId backend worktreeDir : String) (now : Instant) : Worker where
  id := workerId
  taskId := taskId
  workspace := Path.join worktreeDir workerId
  backend := backend
  pid := none
  startedAt := now
  sessionId := none
  iteration := 1
  status := .spawned

/-- The reason of a dispatch whose waiting worker has no record any more. -/
def vanished (workerId : String) : String := "Worker " ++ workerId ++ " vanished"

/-- The worker of a dispatch: the one that waits, woken, or a new one.

A waiting worker is looked up once more, by its name this time, and the record that is found is
the one that is woken.  The look-up has an exit of its own for a name that leads nowhere.  It
comes after the footprint was claimed, so it would leave the claim behind; `dispatch_end` shows
that no state leads there. -/
def engage (s : State) (retry : Option Worker) (workerId taskId backend worktreeDir : String)
    (now : Instant) : Except Failure (Worker × State) :=
  match retry with
  | some waiting =>
    match s.worker? waiting.id with
    | some record =>
      .ok (wake record now, s.updateWorker waiting.id fun w => wake w now)
    | none => .error (.workspace (vanished waiting.id))
  | none =>
    let w := recruit workerId taskId backend worktreeDir now
    .ok (w, { s with workers := s.workers ++ [w] })

/-- Starts the task of an order (`apply_dispatch`).  The identifier in the order is used only if
no worker waits for the task. -/
def dispatch (s : State) (k : Kanban) (o : Order) (backend worktreeDir : String)
    (now : Instant) : Except Failure Ticket × State × Kanban :=
  match k.find? o.taskId with
  | none => (.error (.kanban (Kanban.unknownTask o.taskId)), s, k)
  | some task =>
    if s.hasActiveWorker task.id then (.error (.taskBusy task.id), s, k)
    else
      let retry := s.retryWorker? task.id
      let workerId :=
        match retry with
        | some w => w.id
        | none => o.workerId
      -- the footprint is that of the backlog now, not the one the order was planned with
      match s.registry.claim task.footprint workerId task.id now with
      | .error (.conflict pattern holder) =>
        let registry :=
          s.registry.enqueue task.id task.footprint (s.heldClaim pattern holder) now
        (.error (.conflict pattern holder), { s with registry := registry }, k)
      | .error failure => (.error failure, s, k)
      | .ok registry =>
        let s := { s with registry := registry.dequeue task.id }
        match s.engage retry workerId task.id backend worktreeDir now with
        | .error failure => (.error failure, s, k)
        | .ok (worker, s) =>
          match k.setStatus task.id .inProgress with
          | .error reason => (.error (.kanban reason), s, k)
          | .ok k =>
            (.ok ⟨worker, { task with status := .inProgress }, s.resumeOf task.id⟩, s, k)

end State
end Foreman
