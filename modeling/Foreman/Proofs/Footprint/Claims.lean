/-
# What the registry's operations do to the claims

Only two operations touch the claims: a claim adds those of one footprint at the end, and a
release drops those of one worker.  The queue's operations leave them alone.

* `conflictAmong_eq_none_iff`: a footprint is free exactly if none of its patterns overlaps a claim.
* `claim_eq_ok_iff`: a claim is taken exactly if the footprint is free, and then for all patterns.
* `claimsOf_release`, `claimsOf_append`: the same, seen from one worker.

A claim is looked for pattern by pattern: the first pattern of the footprint that overlaps
anything is the one whose claim is told, and of the claims in its way the first
(`find_conflict`).  For whether there is one at all neither order matters.
-/
import Foreman.Footprint.Registry
import Foreman.Proofs.Footprint.Canonical

namespace Foreman
namespace Registry

/-! ## 1. Conflicts

Whether a footprint is free, and what is found if it is not. -/

/-- A pattern is free if it overlaps no claim. -/
theorem blockerOf_eq_none_iff {claims : List Claim} {pattern : String} :
    blockerOf claims pattern = none ↔
      ∀ c ∈ claims, Pattern.intersects pattern c.pattern = false := by
  simp [blockerOf]

/-- A footprint is free exactly if none of its patterns overlaps a claim. -/
theorem conflictAmong_eq_none_iff {claims : List Claim} {footprint : List String} :
    conflictAmong claims footprint = none ↔
      ∀ p ∈ footprint, ∀ c ∈ claims, Pattern.intersects p c.pattern = false := by
  simp [conflictAmong, List.findSome?_eq_none_iff, blockerOf_eq_none_iff]

/-- The conflict found is a claim that is held and overlaps a pattern of the footprint. -/
theorem conflictAmong_eq_some {claims : List Claim} {footprint : List String} {held : ClaimRef}
    (h : conflictAmong claims footprint = some held) :
    ∃ p ∈ footprint, ∃ c ∈ claims, Pattern.intersects p c.pattern = true ∧ c.ref = held := by
  obtain ⟨p, hp, hb⟩ := List.exists_of_findSome?_eq_some h
  obtain ⟨c, hc, href⟩ := Option.map_eq_some_iff.mp hb
  refine ⟨p, hp, c, List.mem_of_find?_eq_some hc, ?_, href⟩
  simpa using List.find?_some hc

/-! ## 2. The claims after each operation

An operation of the queue leaves the claims alone, and they are simp lemmas, as no proof about
claims should have to look at the queue. -/

@[simp] theorem enqueue_claims (r : Registry) (taskId : String) (footprint : List String)
    (blocking : ClaimRef) (now : Instant) :
    (r.enqueue taskId footprint blocking now).claims = r.claims := by
  unfold enqueue
  split <;> rfl

@[simp] theorem release_claims (r : Registry) (workerId : String) :
    (r.release workerId).1.claims = r.claims.filter fun c => c.workerId ≠ workerId := rfl

/-- A claim is taken exactly if the footprint is free, and then for every pattern of it. -/
theorem claim_eq_ok_iff {r r' : Registry} {footprint : List String} {workerId taskId : String}
    {now : Instant} :
    r.claim footprint workerId taskId now = .ok r' ↔
      r.findConflict footprint = none ∧
        r' = { r with claims := r.claims ++ claimsFor footprint workerId taskId now } := by
  unfold claim
  split
  · rename_i held hheld
    simp [hheld]
  · rename_i hfree
    simp [hfree, eq_comm]

/-- A refusal names the conflict that was found. -/
theorem claim_eq_error_iff {r : Registry} {footprint : List String} {workerId taskId : String}
    {now : Instant} {failure : Failure} :
    r.claim footprint workerId taskId now = .error failure ↔
      ∃ held, r.findConflict footprint = some held ∧
        failure = .conflict held.pattern held.workerId := by
  unfold claim
  split
  · rename_i held hheld
    simp [hheld, eq_comm]
  · rename_i hfree
    simp [hfree]

/-! ## 3. The claims of one worker

What `claims_for` gives.  The references leave out the moment of the claim, which no invariant
is about. -/

/-- The references a worker's claims have, for a footprint. -/
def refsFor (footprint : List String) (workerId taskId : String) : List ClaimRef :=
  footprint.map fun p => ⟨workerId, taskId, Pattern.normalize p⟩

theorem map_ref_claimsFor (footprint : List String) (workerId taskId : String) (now : Instant) :
    (claimsFor footprint workerId taskId now).map Claim.ref =
      refsFor footprint workerId taskId := by
  simp [claimsFor, refsFor, Claim.ref]

/-- The claims of a footprint are one for each of its patterns, in canonical spelling. -/
theorem mem_claimsFor {c : Claim} {footprint : List String} {workerId taskId : String}
    {now : Instant} :
    c ∈ claimsFor footprint workerId taskId now ↔
      ∃ p ∈ footprint, c = ⟨Pattern.normalize p, workerId, taskId, now⟩ := by
  simp [claimsFor, eq_comm]

/-- The claims of a worker are those that name it. -/
theorem mem_claimsOf {r : Registry} {c : Claim} {workerId : String} :
    c ∈ r.claimsOf workerId ↔ c ∈ r.claims ∧ c.workerId = workerId := by
  simp [claimsOf]

/-- A release leaves its worker no claim and every other worker all of them. -/
theorem claimsOf_release (r : Registry) (released workerId : String) :
    (r.release released).1.claimsOf workerId =
      if workerId = released then [] else r.claimsOf workerId := by
  rw [claimsOf, release_claims, List.filter_filter]
  split
  · rename_i h
    subst h
    refine List.filter_eq_nil_iff.mpr fun c _ => ?_
    simp
  · rename_i h
    refine List.filter_congr fun c _ => ?_
    by_cases hc : c.workerId = workerId <;> simp [hc, h]

/-- A claim for a worker without any gives it those of the footprint, and changes nobody else's. -/
theorem claimsOf_append (claims : List Claim) (queue : List QueueEntry) (footprint : List String)
    (claimant taskId workerId : String) (now : Instant) :
    (Registry.mk (claims ++ claimsFor footprint claimant taskId now) queue).claimsOf workerId =
      (Registry.mk claims queue).claimsOf workerId ++
        if workerId = claimant then claimsFor footprint claimant taskId now else [] := by
  rw [claimsOf, claimsOf, List.filter_append]
  congr 1
  split
  · rename_i h
    refine List.filter_eq_self.mpr fun c hc => ?_
    obtain ⟨p, -, rfl⟩ := mem_claimsFor.mp hc
    simp [h]
  · rename_i h
    refine List.filter_eq_nil_iff.mpr fun c hc => ?_
    obtain ⟨p, -, rfl⟩ := mem_claimsFor.mp hc
    simpa [eq_comm] using h

end Registry
end Foreman
