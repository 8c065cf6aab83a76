/-
# The claim registry

While a worker is active it holds a claim for every pattern of its task's footprint.  A task
that collides with a claim waits in a queue, with the claim that blocks it.  The registry is the
`ConflictRegistry`.

* A claim is taken for a whole footprint or not at all.
* The queue keeps the order in which tasks joined it.  An entry leaves it when its blocker goes
  and nothing else is in its way; if something else is, it is pointed at that instead.

The queue decides nothing about what runs: a pass looks at claims only, and ranks by score.  It
is kept for the operator, who can see from it what a task waits for, and for the coordinator,
which tells the tasks that a release has freed.
-/
import Foreman.Failure
import Foreman.Footprint.Pattern
import Foreman.Task.Basic

namespace Foreman

/-- Names a claim without its time. -/
structure ClaimRef where
  workerId : String
  taskId : String
  pattern : String
deriving DecidableEq, Repr, Inhabited

/-- A pattern that a worker holds for its task, in the canonical spelling. -/
structure Claim where
  pattern : String
  workerId : String
  taskId : String
  claimedAt : Instant
deriving DecidableEq, Repr, Inhabited

/-- The claim without its time. -/
def Claim.ref (c : Claim) : ClaimRef := ⟨c.workerId, c.taskId, c.pattern⟩

/-- A task that waits for a claim to go. -/
structure QueueEntry where
  taskId : String
  footprint : List String
  blocking : ClaimRef
  enqueuedAt : Instant
deriving DecidableEq, Repr, Inhabited

/-- The claims that are held and the tasks that wait, both in the order they came. -/
structure Registry where
  claims : List Claim := []
  queue : List QueueEntry := []
deriving DecidableEq, Repr, Inhabited

namespace Registry

/-- No claims and nobody waiting. -/
def empty : Registry := {}

/-- The claims of a worker, in the order it took them. -/
def claimsOf (r : Registry) (workerId : String) : List Claim :=
  r.claims.filter fun c => c.workerId = workerId

/-- The first claim that overlaps the pattern. -/
def blockerOf (claims : List Claim) (pattern : String) : Option ClaimRef :=
  (claims.find? fun c => Pattern.intersects pattern c.pattern).map Claim.ref

/-- The claim a footprint collides with: of the first pattern that collides, the first claim. -/
def conflictAmong (claims : List Claim) (footprint : List String) : Option ClaimRef :=
  footprint.findSome? (blockerOf claims)

/-- The claim that a footprint collides with, if there is one (`find_conflict`). -/
def findConflict (r : Registry) (footprint : List String) : Option ClaimRef :=
  conflictAmong r.claims footprint

/-- The claims a worker takes for a footprint. -/
def claimsFor (footprint : List String) (workerId taskId : String) (now : Instant) :
    List Claim :=
  footprint.map fun p => ⟨Pattern.normalize p, workerId, taskId, now⟩

/-- Claims every pattern of the footprint, or none if one collides (`claim`).  The patterns of
one footprint may overlap each other. -/
def claim (r : Registry) (footprint : List String) (workerId taskId : String) (now : Instant) :
    Except Failure Registry :=
  match r.findConflict footprint with
  | some held => .error (.conflict held.pattern held.workerId)
  | none => .ok { r with claims := r.claims ++ claimsFor footprint workerId taskId now }

/-- The queue after a worker's claims are gone: the entries that stay, and the tasks that are
free now. -/
def resettle (claims : List Claim) (workerId : String) :
    List QueueEntry → List QueueEntry × List String
  | [] => ([], [])
  | e :: rest =>
    let (stay, freed) := resettle claims workerId rest
    if e.blocking.workerId = workerId then
      match conflictAmong claims e.footprint with
      | some held => ({ e with blocking := held } :: stay, freed)
      | none => (stay, e.taskId :: freed)
    else (e :: stay, freed)

/-- Drops a worker's claims (`release`).  Returns the tasks that left the queue, in its order. -/
def release (r : Registry) (workerId : String) : Registry × List String :=
  let claims := r.claims.filter fun c => c.workerId ≠ workerId
  let (queue, freed) := resettle claims workerId r.queue
  (⟨claims, queue⟩, freed)

/-- The entry of the task with a new blocker; `none` if the task is not queued. -/
def repoint? (taskId : String) (blocking : ClaimRef) :
    List QueueEntry → Option (List QueueEntry)
  | [] => none
  | e :: rest =>
    if e.taskId = taskId then some ({ e with blocking := blocking } :: rest)
    else (repoint? taskId blocking rest).map (e :: ·)

/-- Puts a task at the end of the queue.  A task that waits already keeps its place, footprint
and time, and only its blocker is new. -/
def enqueue (r : Registry) (taskId : String) (footprint : List String) (blocking : ClaimRef)
    (now : Instant) : Registry :=
  match repoint? taskId blocking r.queue with
  | some queue => { r with queue := queue }
  | none => { r with queue := r.queue ++ [⟨taskId, footprint, blocking, now⟩] }

/-- Takes a task out of the queue. -/
def dequeue (r : Registry) (taskId : String) : Registry :=
  { r with queue := r.queue.filter fun e => e.taskId ≠ taskId }

/-- Whether the task is in the queue. -/
def isQueued (r : Registry) (taskId : String) : Bool :=
  r.queue.any fun e => e.taskId = taskId

end Registry

/-! ## The JSON forms

As the state keeps them: the claims first, then the queue, each in its order. -/

namespace ClaimRef

def toJson (c : ClaimRef) : Json :=
  .record [("worker_id", .text c.workerId), ("task_id", .text c.taskId),
    ("pattern", .text c.pattern)]

def ofJson? (j : Json) : Option ClaimRef := do
  let f ← j.asFields? ["worker_id", "task_id", "pattern"]
  return {
    workerId := ← f.need? "worker_id" Json.asText?
    taskId := ← f.need? "task_id" Json.asText?
    pattern := ← f.need? "pattern" Json.asText? }

end ClaimRef

namespace Claim

def toJson (c : Claim) : Json :=
  .record [("pattern", .text c.pattern), ("worker_id", .text c.workerId),
    ("task_id", .text c.taskId), ("claimed_at", Json.ofInstant c.claimedAt)]

def ofJson? (j : Json) : Option Claim := do
  let f ← j.asFields? ["pattern", "worker_id", "task_id", "claimed_at"]
  return {
    pattern := ← f.need? "pattern" Json.asText?
    workerId := ← f.need? "worker_id" Json.asText?
    taskId := ← f.need? "task_id" Json.asText?
    claimedAt := ← f.need? "claimed_at" Json.asInstant? }

end Claim

namespace QueueEntry

def toJson (e : QueueEntry) : Json :=
  .record [("task_id", .text e.taskId), ("footprint", .list (e.footprint.map .text)),
    ("blocking", e.blocking.toJson), ("enqueued_at", Json.ofInstant e.enqueuedAt)]

def ofJson? (j : Json) : Option QueueEntry := do
  let f ← j.asFields? ["task_id", "footprint", "blocking", "enqueued_at"]
  return {
    taskId := ← f.need? "task_id" Json.asText?
    footprint := ← f.getD? "footprint" (Json.asList? Json.asText?) []
    blocking := ← f.need? "blocking" ClaimRef.ofJson?
    enqueuedAt := ← f.need? "enqueued_at" Json.asInstant? }

end QueueEntry

namespace Registry

def toJson (r : Registry) : Json :=
  .record [("claims", .list (r.claims.map Claim.toJson)),
    ("queue", .list (r.queue.map QueueEntry.toJson))]

def ofJson? (j : Json) : Option Registry := do
  let f ← j.asFields? ["claims", "queue"]
  return {
    claims := ← f.getD? "claims" (Json.asList? Claim.ofJson?) []
    queue := ← f.getD? "queue" (Json.asList? QueueEntry.ofJson?) [] }

end Registry
end Foreman
