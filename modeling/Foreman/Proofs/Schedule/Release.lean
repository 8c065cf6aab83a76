/-
# What a release does for the tasks that wait

A worker that lets go of its claims is in nobody's way any more, and nothing else that decides on a
task's start changes with it.  So a release never keeps a task from its start, and it lets exactly
those tasks start that nothing but this worker's claims had kept from it.

* `eligibility_of_ne_ineligible`: for a task that is ready to start only the claims count.
* `eligibility_released`: after a release these are the claims of the other workers.
* `release_only_helps`: what becomes of each task, whether it may start, has to wait for a claim or
  is not ready.
* `eligibleTasks_sublist_released`: so the tasks that may start are still among those that may, in
  the same order.

`released` is the snapshot with the registry after `release`; the queue of the registry, which
the release also changes, has no part in `eligibility`.
-/
import Foreman.Proofs.Footprint.Queue
import Foreman.Proofs.Schedule.Waking

namespace Foreman

/-- A task that is ready, and the first claim in its way. -/
def Eligibility.behind : Option ClaimRef → Eligibility
  | some held => .claimBlocked held
  | none => .eligible

namespace Snapshot

variable {s : Snapshot} {t : Task} {now : Instant} {workerId : String}

/-- The snapshot after a worker has let go of its claims. -/
def released (s : Snapshot) (workerId : String) : Snapshot :=
  { s with registry := (s.registry.release workerId).1 }

/-- For a task that is ready to start only the claims count. -/
theorem eligibility_of_ne_ineligible (h : s.eligibility t now ≠ .ineligible) :
    s.eligibility t now = .behind (s.registry.findConflict t.footprint) := by
  unfold eligibility at h ⊢
  split
  · cases s.registry.findConflict t.footprint <;> rfl
  · rename_i hnot
    rw [if_neg hnot] at h
    exact absurd rfl h

/-- Claims have no part in whether a task is ready. -/
theorem eligibility_released_eq_ineligible_iff :
    (s.released workerId).eligibility t now = .ineligible ↔
      s.eligibility t now = .ineligible := by
  rw [eligibility_eq_ineligible_iff, eligibility_eq_ineligible_iff]
  rfl

/-- **After a release only the claims of the other workers count.** -/
theorem eligibility_released (h : s.eligibility t now ≠ .ineligible) :
    (s.released workerId).eligibility t now =
      .behind (Registry.conflictAmong (Registry.withoutAll s.registry.claims [workerId])
        t.footprint) := by
  rw [eligibility_of_ne_ineligible fun e => h (eligibility_released_eq_ineligible_iff.mp e),
    ← Registry.without_eq_withoutAll]
  rfl

/-- A task that may start may start after a release. -/
theorem eligible_released (h : s.eligibility t now = .eligible) (workerId : String) :
    (s.released workerId).eligibility t now = .eligible := by
  have hready : s.eligibility t now ≠ .ineligible := by simp [h]
  have hfree : Registry.conflictAmong s.registry.claims t.footprint = none := by
    rw [eligibility_of_ne_ineligible hready] at h
    cases hconflict : s.registry.findConflict t.footprint with
    | none => exact hconflict
    | some held => simp [hconflict, Eligibility.behind] at h
  rw [eligibility_released hready, Registry.conflictAmong_withoutAll_none hfree]
  rfl

/-- **No task drops out of those that may start**, and they keep their order. -/
theorem eligibleTasks_sublist_released (s : Snapshot) (now : Instant) (workerId : String) :
    (s.eligibleTasks now).Sublist ((s.released workerId).eligibleTasks now) := by
  refine List.monotone_filter_right s.tasks fun t ht => ?_
  rw [decide_eq_true_iff] at ht ⊢
  exact eligible_released ht workerId

end Snapshot

/-- **Releasing claims only helps.**  After a worker has let go of its claims, a task that may start
may start, and one that is not ready is not ready.  A task that had to wait for a claim may start
exactly if every claim in its way was the worker's; otherwise it waits for a claim in its way that
somebody else holds, and for the same as before if that was not the worker's. -/
theorem release_only_helps (s : Snapshot) (workerId : String) (t : Task) (now : Instant) :
    let after := (s.released workerId).eligibility t now
    match s.eligibility t now with
    | .eligible => after = .eligible
    | .ineligible => after = .ineligible
    | .claimBlocked held =>
      (after = .eligible ↔
        ∀ c ∈ s.registry.claims, c.Meets t.footprint → c.workerId = workerId) ∧
      (after ≠ .eligible →
        ∃ c ∈ s.registry.claims, c.workerId ≠ workerId ∧ c.Meets t.footprint ∧
          after = .claimBlocked c.ref ∧ (held.workerId ≠ workerId → c.ref = held)) := by
  intro after
  cases hbefore : s.eligibility t now with
  | eligible => exact Snapshot.eligible_released hbefore workerId
  | ineligible => exact Snapshot.eligibility_released_eq_ineligible_iff.mpr hbefore
  | claimBlocked held =>
    have hafter : after = _ := Snapshot.eligibility_released (by simp [hbefore])
    have hfirst := Snapshot.findConflict_of_claimBlocked hbefore
    have hfree : Registry.conflictAmong (Registry.withoutAll s.registry.claims [workerId])
        t.footprint = none ↔
          ∀ c ∈ s.registry.claims, c.Meets t.footprint → c.workerId = workerId := by
      simp only [Registry.conflictAmong_withoutAll_eq_none_iff, List.mem_singleton]
    rw [hafter, ← hfree]
    cases hnext : Registry.conflictAmong (Registry.withoutAll s.registry.claims [workerId])
        t.footprint with
    | none => exact ⟨⟨fun _ => rfl, fun _ => rfl⟩, fun hne => absurd rfl hne⟩
    | some next =>
      obtain ⟨c, hc, hother, hmeets, rfl⟩ :=
        Registry.exists_other_of_conflictAmong_withoutAll hnext
      rw [List.mem_singleton] at hother
      refine ⟨⟨nofun, nofun⟩, fun _ => ⟨c, hc, hother, hmeets, rfl, fun hheld => ?_⟩⟩
      -- the claim that was found is still held, so it is found again
      have hkept : held.workerId ∉ [workerId] := by simpa using hheld
      exact Option.some.inj (hnext.symm.trans (Registry.conflictAmong_withoutAll hfirst hkept))

end Foreman
