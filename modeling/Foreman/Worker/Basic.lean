/-
# Workers

The record of one worker of a task (`WorkerRecord`), and the outcome its attempt ends with
(`WorkerOutcome`).  A record is made by the first dispatch of a worker and is never removed.  A
worker whose attempt was worth another one keeps its record for that, with its directory and its
session; the dispatch of a retry wakes it and counts its iteration up.
-/
import Foreman.Task.Basic
import Foreman.Worker.Status

namespace Foreman

/-- The record of a worker. -/
structure Worker where
  id : String
  taskId : String
  /-- The directory the worker works in. -/
  workspace : String
  backend : String
  pid : Option Nat
  startedAt : Instant
  sessionId : Option String
  /-- How many attempts the worker has made, the current one included.  The program counts them in
  a word of 32 bits; `Proofs.History.Counters` says how long that is the number here. -/
  iteration : Nat
  status : WorkerStatus
deriving DecidableEq, Repr, Inhabited

/-- Why a failed attempt is worth another one. -/
inductive RetryCause where
  | timeout
  | rateLimited
  | transientNetwork
deriving DecidableEq, Repr, Inhabited

namespace RetryCause

/-- The name in documents. -/
def name : RetryCause → String
  | timeout => "timeout"
  | rateLimited => "rate_limited"
  | transientNetwork => "transient_network"

/-- The words for an operator. -/
def display : RetryCause → String
  | timeout => "timeout"
  | rateLimited => "rate limited"
  | transientNetwork => "transient network error"

/-- The cause of exactly that name. -/
def ofName? (s : String) : Option RetryCause :=
  if s = "timeout" then some timeout
  else if s = "rate_limited" then some rateLimited
  else if s = "transient_network" then some transientNetwork
  else none

end RetryCause

/-- How an attempt ended.  Each end may bring the session the agent worked in. -/
inductive Outcome where
  /-- The work is done; `mergeable` tells that the branch has something to merge. -/
  | succeeded (text : String) (sessionId : Option String) (mergeable : Bool) (elapsed : Span)
  | retryable (cause : RetryCause) (reason : String) (sessionId : Option String)
  | fatal (reason : String) (sessionId : Option String)
  | cancelled (sessionId : Option String)
deriving DecidableEq, Repr

namespace Outcome

def sessionId : Outcome → Option String
  | succeeded _ s _ _ => s
  | retryable _ _ s => s
  | fatal _ s => s
  | cancelled s => s

/-- The word for an outcome in the log. -/
def label : Outcome → String
  | succeeded .. => "SUCCEEDED"
  | retryable .. => "RETRYABLE"
  | fatal .. => "FATAL"
  | cancelled .. => "CANCELLED"

def isCancelled : Outcome → Bool
  | cancelled _ => true
  | _ => false

end Outcome

namespace WorkerStatus

def toJson (s : WorkerStatus) : Json := .text s.name

def ofJson? (j : Json) : Option WorkerStatus := j.asName?.bind ofName?

end WorkerStatus

namespace Worker

def toJson (w : Worker) : Json :=
  .record <|
    [("worker_id", .text w.id), ("task_id", .text w.taskId), ("workspace", .text w.workspace),
      ("backend", .text w.backend)] ++
    Json.optional "pid" Json.ofNat w.pid ++
    [("started_at", Json.ofInstant w.startedAt)] ++
    Json.optional "session_id" .text w.sessionId ++
    [("iteration", Json.ofNat w.iteration), ("status", w.status.toJson)]

/-- The names of the fields, in the order of a document. -/
def fieldNames : List String :=
  ["worker_id", "task_id", "workspace", "backend", "pid", "started_at", "session_id",
    "iteration", "status"]

def ofJson? (j : Json) : Option Worker := do
  let f ← j.asFields? fieldNames
  return {
    id := ← f.need? "worker_id" Json.asText?
    taskId := ← f.need? "task_id" Json.asText?
    workspace := ← f.need? "workspace" Json.asText?
    backend := ← f.need? "backend" Json.asText?
    pid := ← f.maybe? "pid" (Json.asNat? Text.bound32)
    startedAt := ← f.need? "started_at" Json.asInstant?
    sessionId := ← f.maybe? "session_id" Json.asText?
    iteration := ← f.getD? "iteration" (Json.asNat? Text.bound32) 0
    status := ← f.need? "status" WorkerStatus.ofJson? }

end Worker
end Foreman
