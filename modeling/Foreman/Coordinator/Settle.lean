/-
# The end of an attempt

`State.settle` is `apply_outcome`.  The outcome of an attempt decides what becomes of the task and
of the worker, what is remembered for the next attempt, and which queued tasks are free now that
the claims are gone.

The worker is looked up by its name, and so is its task.  Neither look-up asks for a status: the
outcome of a worker that was closed long ago is applied as any other.  What that means for a task
that is done already is the matter of `Proofs.History.Finality`.

Attempts, durations and times are those of the clock that is handed in.  Only the last step
can fail after something was changed: if the task is not in the backlog any more, the records and
the claims are those after the outcome, and the failure is answered.
-/
import Foreman.Config.Basic
import Foreman.Kanban.Basic
import Foreman.Merge.Order
import Foreman.State.Basic
import Foreman.Task.Id
import Foreman.Text.Blank

namespace Foreman

/-- What follows from an outcome, for the caller to act on (`OutcomeEffect`). -/
structure Effect where
  taskStatus : TaskStatus
  /-- Queued tasks whose blocking claims went away. -/
  freed : List String
  merge : Option Candidate
deriving DecidableEq, Repr, Inhabited

/-- The effect as a value; without a branch to merge, null stands for it. -/
def Effect.toJson (e : Effect) : Json :=
  .record
    [("task_status", e.taskStatus.toJson), ("freed", .ofTexts e.freed),
      ("merge", e.merge.elim .null Candidate.toJson)]

namespace State

/-- How many characters of an agent's last message are kept (`MAX_STORED_OUTPUT_CHARS`). -/
def storedOutputLimit : Nat := 4000

/-- The last `limit` characters (`tail_chars`). -/
def tail (limit : Nat) (s : String) : String :=
  String.ofList (s.toList.drop (s.toList.length - limit))

/-- The longest retry interval, in seconds, that the clock can count with: its durations are kept
in milliseconds, in a signed word of 64 bits. -/
def longestInterval : Nat := 9223372036854775

/-- When a retry may start: after the interval, or at once if the calendar ends before.  An
interval the clock cannot count with is taken for a day. -/
def retryAt (now : Instant) (intervalSecs : Nat) : Instant :=
  let secs := if intervalSecs ≤ longestInterval then intervalSecs else 86400
  (now.add? (.ofSeconds secs)).getD now

/-- What is remembered after an outcome, besides session and directory.  A success keeps the
agent's last words and clears the cooldown; the attempts and the last failure stay in the
record. -/
def remember (r : Resume) (outcome : Outcome) (retry : Config.Retry) (now : Instant) : Resume :=
  match outcome with
  | .succeeded text .. =>
    let text := Text.trim text
    { r with
      earliestRetry := none
      lastOutput := if text = "" then none else some (tail storedOutputLimit text) }
  | .retryable cause reason _ =>
    { r with
      attempts := r.attempts + 1
      lastFailure := some (cause.display ++ ": " ++ reason)
      lastFailedAt := some now
      earliestRetry := some (retryAt now retry.minRetryIntervalSecs) }
  | .fatal reason _ => { r with lastFailure := some reason, lastFailedAt := some now }
  | .cancelled _ => r

/-- What becomes of task and worker, when `attempts` is counted with this one.  Attempts are
counted over all workers of the task since its last reset. -/
def verdict (outcome : Outcome) (attempts : Nat) (retry : Config.Retry) :
    TaskStatus × WorkerStatus :=
  match outcome with
  | .succeeded .. => (.done, .succeeded)
  | .retryable .. =>
    if retry.maxSkipRetries ≤ attempts then (.failed, .failed) else (.pending, .awaitingRetry)
  | .fatal .. => (.failed, .failed)
  | .cancelled _ => (.pending, .abandoned)

/-- How long the attempt took, if it counts for the metrics: an agent that succeeded tells it, for
a failure it is what the clock says, and a cancelled attempt does not count.  A clock that went
back gives zero. -/
def attemptMillis (outcome : Outcome) (startedAt now : Instant) : Option Nat :=
  let cap (s : Span) : Nat := min s.millis (Text.bound64 - 1)
  match outcome with
  | .succeeded _ _ _ elapsed => some (cap elapsed)
  | .retryable .. | .fatal .. => some (cap ⟨(now.nanosSince startedAt).toNat⟩)
  | .cancelled _ => none

/-- The branch to merge, if there is one: that of an attempt that succeeded and left commits. -/
def candidate? (k : Kanban) (worker : Worker) (workerId : String) (outcome : Outcome)
    (now : Instant) : Option Candidate :=
  match outcome with
  | .succeeded _ _ true _ =>
    some
      { taskId := worker.taskId
        workerId := workerId
        branch := WorkerId.branch workerId
        workspace := worker.workspace
        footprint :=
          match k.find? worker.taskId with
          | some t => t.footprint
          | none => []
        completedAt := now }
  | _ => none

/-- Applies the outcome of a worker's attempt (`apply_outcome`). -/
def settle (s : State) (k : Kanban) (workerId : String) (outcome : Outcome)
    (retry : Config.Retry) (now : Instant) : Except Failure Effect × State × Kanban :=
  match s.worker? workerId with
  | none => (.error (.workspace ("Unknown worker " ++ workerId)), s, k)
  | some worker =>
    let session :=
      match outcome.sessionId with
      | some id => some id
      | none => worker.sessionId
    let known := s.resumeOf worker.taskId
    let known :=
      { known with
        sessionId := if session.isSome then session else known.sessionId
        workspace := some worker.workspace }
    let known := remember known outcome retry now
    let (taskStatus, workerStatus) := verdict outcome known.attempts retry
    let s := { s with resume := s.resume.insert worker.taskId known }
    let s :=
      match attemptMillis outcome worker.startedAt now with
      | some ms =>
        let m := (s.metrics.get? worker.taskId).getD {}
        { s with
          metrics := s.metrics.insert worker.taskId (m.record ms (taskStatus = TaskStatus.done)) }
      | none => s
    let s := s.updateWorker workerId fun w =>
      { w with
        status := workerStatus
        pid := none
        sessionId := if session.isSome then session else w.sessionId }
    -- all claims of the worker go, also when its task is to be tried again
    let (registry, freed) := s.registry.release workerId
    let s := { s with registry := registry }
    match k.setStatus worker.taskId taskStatus with
    | .error reason => (.error (.kanban reason), s, k)
    | .ok k => (.ok ⟨taskStatus, freed, candidate? k worker workerId outcome now⟩, s, k)

end State
end Foreman
