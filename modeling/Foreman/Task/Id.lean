/-
# Identifiers

Tasks are ordered by their identifiers in the natural way: of two identifiers with the same text
before the last dash, the one with the smaller number behind it comes first (`compare_task_ids`,
`numeric_suffix`).  All others are compared as texts.

The two rules do not go together.  `T-2` comes before `T-10` by their numbers, `T-10` before
`T-1x` and `T-1x` before `T-2` as texts, and the three stand in a circle.  So a list of
identifiers need not have an order to be sorted into, and `TaskId.sort` says what becomes of it
under insertion; where no circle is, every sorting routine agrees with it (`Sorting`).

A worker's identifier is made of its task's and of the second it was chosen in
(`worker_id_for`); its branch is named after it.  Two workers of one task that are chosen in one
second have one name.
-/
import Foreman.Text.Integer
import Foreman.Text.Search
import Foreman.Time.Instant
import Foreman.Sorting

namespace Foreman
namespace TaskId

/-- The text before the last dash and the number of 64 bits behind it. -/
def numericSuffix? (id : String) : Option (String × Nat) :=
  match Text.splitLast? id '-' with
  | some (stem, suffix) => (Text.unsigned? Text.bound64 suffix.toList).map (stem, ·)
  | none => none

/-- The natural order of identifiers (`compare_task_ids`). -/
def order (a b : String) : Ordering :=
  match numericSuffix? a, numericSuffix? b with
  | some (sa, na), some (sb, nb) => (compare sa sb).then ((compare na nb).then (compare a b))
  | _, _ => compare a b

end TaskId

namespace WorkerId

/-- The identifier of a worker for a task, chosen at the given time. -/
def create (taskId : String) (now : Instant) : String :=
  "worker-" ++ taskId ++ "-" ++ toString now.unixSeconds

/-- The branch a worker commits to. -/
def branch (workerId : String) : String := "wiggum/" ++ workerId

end WorkerId

/-- The identifiers in their natural order, sorted by insertion. -/
def TaskId.sort (ids : List String) : List String :=
  sortBy (fun a b => order a b = .lt) ids

end Foreman
