/-
# The state of the orchestrator

Everything that has to outlive a run: what is remembered of each task, the claims and the queue,
the records of all workers, metrics, and when each task was first seen.  `State` is the
`OrchestratorState` with its functions; the backlog is not a part of it, but the document of the
user, and only the statuses in it are the orchestrator's.

Workers are kept in a list in the order of their creation, and every look-up takes the first
record of a name.  That names are distinct is nowhere checked.  It is a property of how names are
made, and `Proofs.History.Names` says exactly when it holds.
-/
import Foreman.Footprint.Registry
import Foreman.State.Metrics
import Foreman.Worker.Basic

namespace Foreman

/-- What outlives a run.  The tick counts the passes of all runs; it stands in a word of 64 bits
in the program and is a natural number here, and `Proofs.History.Counters` shows how long the two
agree. -/
structure State where
  schemaVersion : Nat := 1
  tick : Nat := 0
  savedAt : Option Instant := none
  resume : Table Resume := .empty
  registry : Registry := {}
  workers : List Worker := []
  metrics : Table Metrics := .empty
  /-- When each task first stood in the backlog. -/
  firstSeen : Table Instant := .empty
deriving DecidableEq, Repr, Inhabited

namespace State

/-- The version of the documents this program reads and writes. -/
def currentVersion : Nat := 1

/-- The state as it is written at a time, with the version of this program. -/
def stamped (s : State) (now : Instant) : State :=
  { s with schemaVersion := currentVersion, savedAt := some now }

/-- What is remembered of a task; of a task without a record, nothing. -/
def resumeOf (s : State) (taskId : String) : Resume := (s.resume.get? taskId).getD {}

/-- The first worker with that identifier. -/
def worker? (s : State) (workerId : String) : Option Worker :=
  s.workers.find? fun w => w.id = workerId

/-- The change is made to the first worker with that identifier, and to no other. -/
def updateFirst (workerId : String) (f : Worker → Worker) : List Worker → List Worker
  | [] => []
  | w :: rest => if w.id = workerId then f w :: rest else w :: updateFirst workerId f rest

/-- The state with a change made to one record.  An unknown name changes nothing. -/
def updateWorker (s : State) (workerId : String) (f : Worker → Worker) : State :=
  { s with workers := updateFirst workerId f s.workers }

/-- How many workers are active.  This is what the run checks its limit against. -/
def activeCount (s : State) : Nat := s.workers.countP fun w => w.status.isActive

/-- Whether a task has an active worker. -/
def hasActiveWorker (s : State) (taskId : String) : Bool :=
  s.workers.any fun w => w.taskId = taskId && w.status.isActive

/-- Notes when tasks were first seen.  Returns how many were new.  The age of a task without a
date of its own is counted from there. -/
def noteTasks (s : State) (tasks : List Task) (now : Instant) : State × Nat :=
  tasks.foldl
    (fun (s, added) t =>
      if s.firstSeen.contains t.id then (s, added)
      else ({ s with firstSeen := s.firstSeen.insert t.id now }, added + 1))
    (s, 0)

/-- The state as a value, its fields in the order of a document.  Tables are records in the order
of their keys. -/
def toJson (s : State) : Json :=
  .record <|
    [("schema_version", Json.ofNat s.schemaVersion), ("tick", Json.ofNat s.tick)] ++
    Json.optional "saved_at" Json.ofInstant s.savedAt ++
    [("resume", .record (s.resume.map Resume.toJson).entries),
      ("registry", s.registry.toJson),
      ("workers", .list (s.workers.map Worker.toJson)),
      ("metrics", .record (s.metrics.map Metrics.toJson).entries),
      ("first_seen", .record (s.firstSeen.map Json.ofInstant).entries)]

/-- The names of the fields, in the order of a document. -/
def fieldNames : List String :=
  ["schema_version", "tick", "saved_at", "resume", "registry", "workers", "metrics",
    "first_seen"]

/-- The state in a value.  Only the version has to be there; every other field has a default, and
a field of a wrong kind makes the whole value unreadable. -/
def ofJson? (j : Json) : Option State := do
  let f ← j.asFields? fieldNames
  return {
    schemaVersion := ← f.need? "schema_version" (Json.asNat? Text.bound32)
    tick := ← f.getD? "tick" (Json.asNat? Text.bound64) 0
    savedAt := ← f.maybe? "saved_at" Json.asInstant?
    resume := ← f.getD? "resume" (Json.asTable? Resume.ofJson?) .empty
    registry := ← f.getD? "registry" Registry.ofJson? {}
    workers := ← f.getD? "workers" (Json.asList? Worker.ofJson?) []
    metrics := ← f.getD? "metrics" (Json.asTable? Metrics.ofJson?) .empty
    firstSeen := ← f.getD? "first_seen" (Json.asTable? Json.asInstant?) .empty }

end State
end Foreman
