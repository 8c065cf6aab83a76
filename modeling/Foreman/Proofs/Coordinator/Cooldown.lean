/-
# The cooldown after a failed attempt

A task that goes back after an attempt is to wait for the configured interval.  The interval is
added to the calendar, and the calendar ends: where it does not reach the end of the interval, the
task may go on at once, or after a day if the clock cannot count the interval at all.

* `add?_retryAt`: where the calendar reaches the end, the cooldown ends then.
* `retryAt_of_unreached`: where it does not, the cooldown ends all the same.
* `cooldown_lasts_iff`: so the task waits for the whole interval if and only if the calendar reaches
  its end, or something else keeps the task from starting.

`State.retryAt` is the moment that `apply_outcome` notes as `earliest_retry`: the sum by
`checked_add_signed`, or now where there is none, or a day later where the interval is longer
than the clock can count.  The two substitutes are what the exact condition is about.
-/
import Foreman.Proofs.Coordinator.Settle
import Foreman.Proofs.History.Standing
import Foreman.Proofs.Schedule.Waking

namespace Foreman
namespace State

variable {s : State} {now : Instant} {secs : Nat}

/-! ## 1. The end of the cooldown

Arithmetic of the calendar: what the interval ends with, and what is before that. -/

/-- The calendar reaches the end of the interval. -/
def Reaches (now : Instant) (secs : Nat) : Prop :=
  now.unixSeconds + secs < (CivilDate.lastDay + 1) * 86400

instance (now : Instant) (secs : Nat) : Decidable (Reaches now secs) :=
  inferInstanceAs (Decidable (_ < _))

/-- What the calendar reaches, the clock can count with. -/
theorem Reaches.le_longestInterval (h : Reaches now secs) (hnow : now.IsValid) :
    secs ≤ longestInterval := by
  have hfirst : CivilDate.firstDay = -96465292 := by decide
  have hlast : CivilDate.lastDay = 95026236 := by decide
  obtain ⟨hday, -⟩ := hnow
  rw [Reaches, Instant.unixSeconds, hlast] at h
  rw [longestInterval]
  omega

/-- Where the calendar reaches the end, the cooldown ends then. -/
theorem add?_retryAt (h : Reaches now secs) (hnow : now.IsValid) :
    now.add? (.ofSeconds secs) = some (retryAt now secs) := by
  have hsome := (now.isSome_add?_ofSeconds_iff hnow secs).mpr h
  obtain ⟨ready, hready⟩ := Option.isSome_iff_exists.mp hsome
  rw [retryAt, if_pos (h.le_longestInterval hnow), hready, Option.getD_some]

/-- Where it does not, the cooldown ends within the interval. -/
theorem retryAt_of_unreached (h : ¬ Reaches now secs) (hnow : now.IsValid) :
    (retryAt now secs).IsValid ∧ now.Within (.ofSeconds secs) (retryAt now secs) := by
  have hnone : now.add? (.ofSeconds secs) = none := by
    rw [← Option.not_isSome_iff_eq_none, now.isSome_add?_ofSeconds_iff hnow]
    exact h
  have hwithin : ∀ u, now.NotAfter u → now.Within (.ofSeconds secs) u :=
    fun u hu => ⟨hu, fun e he => by rw [hnone] at he; cases he⟩
  rw [retryAt]
  split
  · rw [hnone]
    exact ⟨hnow, hwithin now (Instant.NotAfter.refl now)⟩
  · cases hday : now.add? (.ofSeconds 86400) with
    | none => exact ⟨hnow, hwithin now (Instant.NotAfter.refl now)⟩
    | some ready =>
      have hlater : now.before ready = true := Instant.before_of_add? (by decide) hday hnow
      exact ⟨Instant.isValid_of_add? hday hnow, hwithin ready (Instant.notAfter_of_before hlater)⟩

/-- **The task cools for the whole interval exactly if the calendar reaches its end.** -/
theorem forall_before_retryAt_iff (hnow : now.IsValid) :
    (∀ u, u.IsValid → now.Within (.ofSeconds secs) u → u.before (retryAt now secs) = true) ↔
      Reaches now secs := by
  constructor
  · intro hcools
    by_contra hreach
    obtain ⟨hvalid, hwithin⟩ := retryAt_of_unreached hreach hnow
    exact Bool.eq_false_iff.mp (Instant.NotAfter.refl _) (hcools _ hvalid hwithin)
  · intro hreach u _ hu
    exact hu.2 _ (add?_retryAt hreach hnow)

/-! ## 2. The task in the snapshot

From the moment to the task: while it cools it is not eligible, and otherwise the dependencies
and the workers decide. -/

/-- What is remembered after an attempt that is worth another one is whether the moment has
come. -/
theorem resumeAfter_retryable_inCooldown (s : State) (w : Worker) (cause : RetryCause)
    (reason : String) (session : Option String) (retry : Config.Retry) (now u : Instant) :
    (s.resumeAfter w (.retryable cause reason session) retry now).inCooldown u =
      u.before (retryAt now retry.minRetryIntervalSecs) := rfl

end State

namespace Sample

/-- The first of two workers is running for a task that depends on another one. -/
def trying : State where
  registry := { claims := [⟨"src", "w1", "T-1", morning⟩, ⟨"docs", "w2", "T-2", morning⟩] }
  workers :=
    [{ id := "w1", taskId := "T-1", workspace := "/wt/w1", backend := "claude", pid := some 7,
       startedAt := morning, sessionId := some "abc", iteration := 2, status := .running },
      { id := "w2", taskId := "T-2", workspace := "/wt/w2", backend := "claude", pid := some 8,
        startedAt := morning, sessionId := none, iteration := 1, status := .running }]

def tryingTasks : Kanban where
  tasks :=
    [{ id := "T-0", status := .done },
      { id := "T-1", status := .inProgress, footprint := ["src"], dependencies := ["T-0"] },
      { id := "T-2", status := .inProgress, footprint := ["docs"] }]

/-- Its attempt fails, with so many seconds until the next one. -/
def failed (secs : Nat) : Except Failure Effect × State × Kanban :=
  trying.settle tryingTasks "w1" (.retryable .rateLimited "429" none)
    { minRetryIntervalSecs := secs } morning

/-- What the scheduler sees then. -/
def afterFailure (secs : Nat) : Snapshot := Snapshot.of (failed secs).2.1 (failed secs).2.2

/-- From the morning to the last second of the calendar. -/
def longest : Nat := 8208538847999

end Sample

/-- **The task of a failed attempt waits for the configured interval** if and only if the calendar
reaches its end, or the task may not start anyway: a dependency is not done, or another worker is
active for it. -/
theorem cooldown_lasts_iff {s s' : State} {k k' : Kanban} {workerId reason : String}
    {cause : RetryCause} {session : Option String} {retry : Config.Retry} {now : Instant}
    {effect : Effect} (hnow : now.IsValid)
    (h : s.settle k workerId (.retryable cause reason session) retry now = (.ok effect, s', k'))
    (hpending : effect.taskStatus = .pending) :
    ∃ w t, s.worker? workerId = some w ∧ k'.find? w.taskId = some t ∧ t.status = .pending ∧
      ((∀ u, u.IsValid → now.Within (.ofSeconds retry.minRetryIntervalSecs) u →
          (Snapshot.of s' k').eligibility t u = .ineligible) ↔
        State.Reaches now retry.minRetryIntervalSecs ∨ (Snapshot.of s' k').isFree t = false) := by
  have hend := s.settle_end k workerId (.retryable cause reason session) retry now
  rw [h] at hend
  cases hend with
  | settled w _ hw hset =>
    have hstatus := Kanban.statusOf?_setStatus hset w.taskId
    rw [if_pos rfl] at hstatus
    obtain ⟨t, hfind, htstatus⟩ := Option.map_eq_some_iff.mp hstatus
    refine ⟨w, t, hw, hfind, htstatus.trans hpending, ?_⟩
    set after := Snapshot.of _ k'
    have hcool : ∀ u, (after.resumeOf t.id).inCooldown u =
        u.before (State.retryAt now retry.minRetryIntervalSecs) := by
      intro u
      have hresume := s.settled_resumeOf workerId w (.retryable cause reason session) retry now t.id
      rw [if_pos (Kanban.find?_mem hfind).2] at hresume
      exact (congrArg (Resume.inCooldown · u) hresume).trans
        (s.resumeAfter_retryable_inCooldown w cause reason session retry now u)
    simp only [Snapshot.eligibility_eq_ineligible_iff, hcool]
    rw [← State.forall_before_retryAt_iff hnow, or_comm]
    cases after.isFree t <;> simp

/-- The longest interval that the calendar reaches the end of: the task may start in the last second
and not before. -/
theorem longest_interval_lasts :
    Sample.morning.IsValid ∧ (Sample.failed Sample.longest).1 = .ok ⟨.pending, [], none⟩ ∧
      ((Sample.afterFailure Sample.longest).eligibleTasks ⟨CivilDate.lastDay, 86399, 0⟩).map
        Task.id = ["T-1"] ∧
      ∃ w t, Sample.trying.worker? "w1" = some w ∧
        (Sample.failed Sample.longest).2.2.find? w.taskId = some t ∧ t.status = .pending ∧
          ∀ u, u.IsValid → Sample.morning.Within (.ofSeconds Sample.longest) u →
            (Sample.afterFailure Sample.longest).eligibility t u = .ineligible := by
  have hnow : Sample.morning.IsValid := by decide
  have hgives : (Sample.failed Sample.longest).1 = .ok ⟨.pending, [], none⟩ := by decide +kernel
  obtain ⟨w, t, hw, hfind, hstatus, hiff⟩ := cooldown_lasts_iff hnow (Prod.ext hgives rfl) rfl
  exact ⟨hnow, hgives, by decide +kernel, w, t, hw, hfind, hstatus,
    hiff.mpr (.inl (by decide +kernel))⟩

/-- One second more, and the task may start at once.  The longest interval that can be configured
makes it wait for a day. -/
theorem unreachable_interval_cut_short :
    ((Sample.failed (Sample.longest + 1)).1 = .ok ⟨.pending, [], none⟩ ∧
      Sample.morning.Within (.ofSeconds (Sample.longest + 1)) Sample.morning ∧
      ((Sample.afterFailure (Sample.longest + 1)).eligibleTasks Sample.morning).map Task.id =
        ["T-1"]) ∧
    (Sample.failed (Text.bound64 - 1)).1 = .ok ⟨.pending, [], none⟩ ∧
      Sample.morning.Within (.ofSeconds (Text.bound64 - 1)) { Sample.morning with day := 20001 } ∧
      ((Sample.afterFailure (Text.bound64 - 1)).eligibleTasks
        { Sample.morning with day := 20001 }).map Task.id = ["T-1"] := by
  have hend : ∀ secs ∈ [Sample.longest + 1, Text.bound64 - 1],
      Sample.morning.add? (.ofSeconds secs) = none := by decide +kernel
  have hwithin : ∀ secs ∈ [Sample.longest + 1, Text.bound64 - 1], ∀ u,
      Sample.morning.NotAfter u → Sample.morning.Within (.ofSeconds secs) u :=
    fun secs hsecs u hu => ⟨hu, fun e he => by rw [hend secs hsecs] at he; cases he⟩
  exact ⟨⟨by decide +kernel, hwithin _ (by simp) _ (by decide), by decide +kernel⟩,
    by decide +kernel, hwithin _ (by simp) _ (by decide), by decide +kernel⟩

end Foreman
