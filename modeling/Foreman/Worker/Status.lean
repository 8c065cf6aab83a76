/-
# Status of a worker

A worker is active while it holds a process slot (spawned or running) and closed once it has
succeeded, failed or been abandoned.  Between the two it can wait for another attempt, and then
it is neither.
-/

namespace Foreman

/-- What a worker does, or how it ended. -/
inductive WorkerStatus where
  | spawned
  | running
  | awaitingRetry
  | succeeded
  | failed
  | abandoned
deriving DecidableEq, Repr, Inhabited

namespace WorkerStatus

/-- The name in documents and on screen. -/
def name : WorkerStatus → String
  | spawned => "spawned"
  | running => "running"
  | awaitingRetry => "awaiting_retry"
  | succeeded => "succeeded"
  | failed => "failed"
  | abandoned => "abandoned"

/-- The worker holds a process slot. -/
def isActive : WorkerStatus → Bool
  | spawned | running => true
  | _ => false

/-- The worker will not run again. -/
def isTerminal : WorkerStatus → Bool
  | succeeded | failed | abandoned => true
  | _ => false

/-- The status of exactly that name. -/
def ofName? (s : String) : Option WorkerStatus :=
  if s = "spawned" then some spawned
  else if s = "running" then some running
  else if s = "awaiting_retry" then some awaitingRetry
  else if s = "succeeded" then some succeeded
  else if s = "failed" then some failed
  else if s = "abandoned" then some abandoned
  else none

theorem ofName?_name (s : WorkerStatus) : ofName? s.name = some s := by cases s <;> rfl

theorem not_isTerminal_of_isActive {s : WorkerStatus} (h : s.isActive = true) :
    s.isTerminal = false := by cases s <;> simp_all [isActive, isTerminal]

end WorkerStatus
end Foreman
