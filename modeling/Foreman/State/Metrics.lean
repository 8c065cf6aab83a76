/-
# Metrics of a task

Counts and durations of a task's attempts over all runs (`TaskMetrics`).  The total stops at the
greatest number of 64 bits.  The two counts are not checked in the program;
`Proofs.History.Counters` says how long they fit their words.
-/
import Foreman.Json.Decode
import Foreman.Task.Basic

namespace Foreman

/-- Counts and durations, in milliseconds, of a task's attempts.  Before the first attempt all of
them are zero, and the least duration is not yet one. -/
structure Metrics where
  attempts : Nat := 0
  successes : Nat := 0
  total : Nat := 0
  last : Nat := 0
  least : Nat := 0
  most : Nat := 0
deriving DecidableEq, Repr, Inhabited

namespace Metrics

/-- Adds an attempt of that duration. -/
def record (m : Metrics) (ms : Nat) (succeeded : Bool) : Metrics where
  attempts := m.attempts + 1
  successes := if succeeded then m.successes + 1 else m.successes
  total := min (m.total + ms) (Text.bound64 - 1)
  last := ms
  least := if m.attempts = 0 ∨ ms < m.least then ms else m.least
  most := max m.most ms

/-- The mean duration, rounded down; zero if there is no attempt. -/
def average (m : Metrics) : Nat := m.total / max m.attempts 1

/-- The metrics as a value, the fields in the order of a document. -/
def toJson (m : Metrics) : Json :=
  .record [("attempt_count", Json.ofNat m.attempts), ("success_count", Json.ofNat m.successes),
    ("total_duration_ms", Json.ofNat m.total), ("last_duration_ms", Json.ofNat m.last),
    ("min_duration_ms", Json.ofNat m.least), ("max_duration_ms", Json.ofNat m.most)]

/-- The names of the fields, in the order of a document. -/
def fieldNames : List String :=
  ["attempt_count", "success_count", "total_duration_ms", "last_duration_ms",
    "min_duration_ms", "max_duration_ms"]

/-- The metrics in a value; a field that is missing is zero. -/
def ofJson? (j : Json) : Option Metrics := do
  let f ← j.asFields? fieldNames
  return {
    attempts := ← f.getD? "attempt_count" (Json.asNat? Text.bound32) 0
    successes := ← f.getD? "success_count" (Json.asNat? Text.bound32) 0
    total := ← f.getD? "total_duration_ms" (Json.asNat? Text.bound64) 0
    last := ← f.getD? "last_duration_ms" (Json.asNat? Text.bound64) 0
    least := ← f.getD? "min_duration_ms" (Json.asNat? Text.bound64) 0
    most := ← f.getD? "max_duration_ms" (Json.asNat? Text.bound64) 0 }

end Metrics
end Foreman
