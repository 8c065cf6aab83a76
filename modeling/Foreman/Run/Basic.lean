/-
# Runs

What a run is bound by and what it comes to: `RateLimit` is what an agent says of its vendor,
`Halt` is why a run ended, and `Summary` is the account that `run_scheduler` returns.

The account grows while the loop goes on and is closed once, at the end (`Summary.close`).
Until then the tasks in it stand in the order in which they came, and a task that failed twice
stands there twice.  Closing sorts them by `TaskId.order`, by insertion: for identifiers that
are no order this is one arrangement of several, as `Foreman.Sorting` explains.  What is proved
of an account does not depend on it.
-/
import Foreman.Failure
import Foreman.Schedule.Selection
import Foreman.Task.Id

namespace Foreman
namespace Run

/-- Whether the vendor of an agent takes requests (`RateLimitStatus`). -/
inductive RateLimit where
  | unknown
  | available
  /-- Requests are refused, up to a time if it is known. -/
  | limited (end_ : Option Instant)
deriving DecidableEq, Repr, Inhabited

namespace RateLimit

def isLimited : RateLimit → Bool
  | limited _ => true
  | _ => false

end RateLimit

/-- Why a run came to its end (`HaltReason`).  A run that fails has no such reason, since it
returns no account. -/
inductive Halt where
  /-- Nothing is left that could ever start. -/
  | idle
  | capReached
  | shutdownRequested
deriving DecidableEq, Repr, Inhabited

namespace Halt

def name : Halt → String
  | idle => "Idle"
  | capReached => "CapReached"
  | shutdownRequested => "ShutdownRequested"

end Halt

/-- The account of a run (`RunSummary`). -/
structure Summary where
  dispatched : Nat := 0
  completed : List String := []
  failed : List String := []
  retries : Nat := 0
  merged : List String := []
  /-- Tasks that were not merged, with the reasons. -/
  skipped : List (String × String) := []
  halt : Halt := .idle
deriving DecidableEq, Repr, Inhabited

namespace Summary

/-- Each of neighbours that are equal once. -/
def dedup : List String → List String
  | a :: b :: rest => if a = b then dedup (b :: rest) else a :: dedup (b :: rest)
  | ids => ids

/-- The account at the end of the run, as `finish` makes it: tasks in their natural order, each
once. -/
def close (s : Summary) (halt : Halt) : Summary :=
  { s with
    completed := dedup (TaskId.sort s.completed)
    failed := dedup (TaskId.sort s.failed)
    halt := halt }

end Summary

/-- The longest time the loop sleeps at once, so that it notices what happens meanwhile. -/
def longestSleep : Span := .ofSeconds 30

end Run
end Foreman
