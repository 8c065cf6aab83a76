/-
# The score of a task

A task's score is its priority, changed by its age, by a sibling in progress, by a plan, by its
done dependencies and by its failed attempts (`score_task`).  It is computed in doubles, in one
fixed order of additions, since doubles do not add up the same in another one.

With weights that are no numbers a score is no number.  Then it ties with every other, and the
ranking is left with the identifiers.
-/
import Foreman.Config.Basic
import Foreman.Schedule.Eligibility

namespace Foreman
namespace Snapshot

/-- Another task of the same parent is in progress. -/
def siblingRunning (s : Snapshot) (t : Task) : Bool :=
  match t.parent with
  | some parent =>
    s.tasks.any fun u => u.id ≠ t.id && u.parent = some parent && u.status = .inProgress
  | none => false

/-- The task has a plan document; a name of blanks is none. -/
def hasPlan (t : Task) : Bool :=
  match t.plan with
  | some p => !Text.isBlankText p
  | none => false

/-- The higher score runs first. -/
def score (s : Snapshot) (t : Task) (now : Instant) (w : Config.Scoring) : Float :=
  let base := Float.ofInt t.priority
  let aged :=
    match s.createdAt? t with
    | some created => base + Float.ofNat (now.secondsSince created).toNat * w.agingFactor
    | none => base
  let alone := if s.siblingRunning t then aged - w.siblingWipPenalty else aged
  let planned := if hasPlan t then alone + w.planBonus else alone
  let satisfied := t.dependencies.countP s.isDone
  let supported := planned + w.dependencyBonus * Float.ofNat satisfied
  let attempts := (s.resumeOf t.id).attempts
  let resumed := if attempts = 1 then supported + w.resumeInitialBonus else supported
  resumed - w.resumeFailPenalty * Float.ofNat attempts

/-- The order of two scores, the greater first.  What cannot be compared counts as equal. -/
def scoreOrder (a b : Float) : Ordering :=
  if b < a then .lt else if a < b then .gt else .eq

end Snapshot
end Foreman
