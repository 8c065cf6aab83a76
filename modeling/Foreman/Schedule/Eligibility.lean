/-
# Which tasks may start

A task may start if it is pending or blocked, its dependencies are done, it has no active worker
and it is not in its cooldown.  If a claim overlaps its footprint it has to wait for that claim
(`eligibility`, `eligible_tasks`).

The first four conditions are checked before the claims are looked at, so a task that waits for
a claim would be eligible without it.  That is what makes the queue worth keeping: when the
claim goes, the task is free.

If no task is eligible, the run sleeps until the first cooldown is over
(`next_cooldown_expiry`).  A cooldown is looked for among all waiting tasks, whatever else keeps
them from starting.
-/
import Foreman.Schedule.Snapshot

namespace Foreman

/-- Whether a task may start now. -/
inductive Eligibility where
  | eligible
  /-- Only the claim is in the way. -/
  | claimBlocked (claim : ClaimRef)
  | ineligible
deriving DecidableEq, Repr

/-- The answer as a value: a word, or the claim that is in the way. -/
def Eligibility.toJson : Eligibility → Json
  | eligible => .text "eligible"
  | ineligible => .text "ineligible"
  | claimBlocked c => c.toJson

namespace Snapshot

/-- The task of that identifier is in the backlog and done. -/
def isDone (s : Snapshot) (taskId : String) : Bool :=
  match s.task? taskId with
  | some t => t.status = .done
  | none => false

/-- Every dependency is a task of the backlog that is done (`dependencies_done`).  One that is
not in the backlog never is. -/
def dependenciesDone (s : Snapshot) (t : Task) : Bool := t.dependencies.all s.isDone

/-- The task waits for a start.  A blocked task does so like a pending one. -/
def isWaiting (t : Task) : Bool := t.status = .pending || t.status = .blocked

/-- Whether the task may start now, against the claims and workers of the snapshot. -/
def eligibility (s : Snapshot) (t : Task) (now : Instant) : Eligibility :=
  if isWaiting t && s.dependenciesDone t && !s.hasActiveWorker t.id &&
      !(s.resumeOf t.id).inCooldown now then
    match s.registry.findConflict t.footprint with
    | some claim => .claimBlocked claim
    | none => .eligible
  else .ineligible

/-- The tasks that may start, in the order of the backlog. -/
def eligibleTasks (s : Snapshot) (now : Instant) : List Task :=
  s.tasks.filter fun t => s.eligibility t now = .eligible

/-- The end of a waiting task's cooldown, if it is still to come. -/
def cooldownEnd? (s : Snapshot) (now : Instant) (t : Task) : Option Instant :=
  if isWaiting t then
    match (s.resume.get? t.id).bind Resume.earliestRetry with
    | some ready => if now.before ready then some ready else none
    | none => none
  else none

/-- The earliest of some instants. -/
def earliest? : List Instant → Option Instant
  | [] => none
  | t :: rest =>
    match earliest? rest with
    | some u => if u.before t then some u else some t
    | none => some t

/-- How long until the first cooldown is over (`next_cooldown_expiry`).  None if every instant
has passed, and if the time that is left cannot be told. -/
def nextCooldown? (s : Snapshot) (now : Instant) : Option Span :=
  match earliest? (s.tasks.filterMap (s.cooldownEnd? now)) with
  | some ready =>
    let nanos := ready.nanosSince now
    if 0 ≤ nanos then some ⟨nanos.toNat⟩ else none
  | none => none

end Snapshot
end Foreman
