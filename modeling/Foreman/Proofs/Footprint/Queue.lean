/-
# What becomes of the queue

A release looks at each entry of the queue alone: one that waits for somebody else stays as it is,
one that waited for the worker is pointed at the next claim in its way, and leaves the queue if
there is none.  `QueueEntry.fate` says what becomes of one entry, and `resettle_eq` that the whole
queue is treated like that.

* `conflictAmong_without`: a conflict that is found stays the one that is found while its claim is
  held, whoever else lets go.
* `QueueEntry.fate_comm`: so it does not matter to an entry who of two workers lets go first.
* `release_comm`: the registry after two releases does not depend on their order, and
  `release_freed_perm`: nor does what they free between them.
* `enqueue_joins`: a task joins the queue at its end, or is pointed at another claim in its place.
* `conflictAmong_withoutAll_eq_none_iff`: a footprint is free after some workers let go exactly if
  every claim in its way was held by one of them.
* `releaseAll_eq`: the registry after several releases is told by the claims that are left.

The loop of `release` goes through the queue with the claims that are left, so what becomes of
an entry depends on nothing but these and the entry itself.  That is why the queue can be told
by `filterMap` and `filter`, and why several releases can be told by one.
-/
import Foreman.Proofs.Footprint.Claims

namespace Foreman

/-! ## 1. Lists sorted out twice

What is dropped by two filters, whichever comes first; the freed tasks of two releases are such
a list. -/

section SortedOut

variable {α β : Type}

/-- What is dropped first or second is what the two drop together, up to order. -/
theorem perm_map_filter_bind (f g : α → Option α) (key : α → β)
    (hkey : ∀ x y, f x = some y → key y = key x) : ∀ xs : List α,
    ((xs.filter fun x => (f x).isNone).map key ++
      ((xs.filterMap f).filter fun x => (g x).isNone).map key).Perm
      ((xs.filter fun x => ((f x).bind g).isNone).map key)
  | [] => .refl _
  | x :: xs => by
    have ih := perm_map_filter_bind f g key hkey xs
    cases hfx : f x with
    | none =>
      rw [List.filter_cons_of_pos (by simp [hfx]), List.filterMap_cons_none hfx,
        List.filter_cons_of_pos (by simp [hfx]), List.map_cons, List.map_cons, List.cons_append]
      exact ih.cons _
    | some y =>
      rw [List.filter_cons_of_neg (by simp [hfx]), List.filterMap_cons_some hfx]
      cases hgy : g y with
      | none =>
        rw [List.filter_cons_of_pos (p := fun z => (g z).isNone) (by simp [hgy]),
          List.filter_cons_of_pos (by simp [hfx, hgy]), List.map_cons, List.map_cons,
          hkey x y hfx]
        exact List.perm_middle.trans (ih.cons _)
      | some z =>
        rw [List.filter_cons_of_neg (p := fun z => (g z).isNone) (by simp [hgy]),
          List.filter_cons_of_neg (by simp [hfx, hgy])]
        exact ih

end SortedOut

/-! ## 2. One entry

What becomes of one entry, by whether it waits for the worker that lets go. -/

/-- An entry of the queue after a worker's claims are gone: `none` if its task is free. -/
def QueueEntry.fate (claims : List Claim) (workerId : String) (e : QueueEntry) :
    Option QueueEntry :=
  if e.blocking.workerId = workerId then
    (Registry.conflictAmong claims e.footprint).map fun held => { e with blocking := held }
  else some e

/-- The claims that are left when a worker lets go. -/
def Registry.without (claims : List Claim) (workerId : String) : List Claim :=
  claims.filter fun c => c.workerId ≠ workerId

namespace Registry

/-- It does not matter whose claims go first. -/
theorem without_comm (claims : List Claim) (v w : String) :
    without (without claims v) w = without (without claims w) v := by
  rw [without, without, without, without, List.filter_filter, List.filter_filter]
  exact List.filter_congr fun c _ => Bool.and_comm _ _

/-- A footprint that is free stays free. -/
theorem conflictAmong_without_none {claims : List Claim} {footprint : List String}
    (h : conflictAmong claims footprint = none) (workerId : String) :
    conflictAmong (without claims workerId) footprint = none := by
  rw [conflictAmong_eq_none_iff] at h ⊢
  exact fun p hp c hc => h p hp c (List.mem_filter.mp hc).1

theorem blockerOf_without {claims : List Claim} {pattern : String} {held : ClaimRef}
    (h : blockerOf claims pattern = some held) {workerId : String}
    (hne : held.workerId ≠ workerId) : blockerOf (without claims workerId) pattern = some held := by
  obtain ⟨c, hc, rfl⟩ := Option.map_eq_some_iff.mp h
  rw [List.find?_eq_some_iff_append] at hc
  obtain ⟨hmeets, before, after, rfl, hbefore⟩ := hc
  have hstays : without (before ++ c :: after) workerId =
      without before workerId ++ c :: without after workerId := by
    rw [without, List.filter_append, List.filter_cons_of_pos (by simpa [Claim.ref] using hne)]
    rfl
  refine Option.map_eq_some_iff.mpr ⟨c, List.find?_eq_some_iff_append.mpr ⟨hmeets, _, _, hstays,
    fun d hd => hbefore d (List.mem_filter.mp hd).1⟩, rfl⟩

/-- **A conflict stays the one that is found as long as its claim is held.** -/
theorem conflictAmong_without {claims : List Claim} {footprint : List String} {held : ClaimRef}
    (h : conflictAmong claims footprint = some held) {workerId : String}
    (hne : held.workerId ≠ workerId) :
    conflictAmong (without claims workerId) footprint = some held := by
  obtain ⟨before, p, after, rfl, hp, hbefore⟩ := List.findSome?_eq_some_iff.mp h
  have hnone : ∀ q ∈ before, blockerOf (without claims workerId) q = none := by
    intro q hq
    have hfree := blockerOf_eq_none_iff.mp (hbefore q hq)
    exact blockerOf_eq_none_iff.mpr fun c hc => hfree c (List.mem_filter.mp hc).1
  exact List.findSome?_eq_some_iff.mpr ⟨before, p, after, rfl, blockerOf_without hp hne, hnone⟩

end Registry

namespace QueueEntry

variable {claims : List Claim} {v w workerId : String} {e e' : QueueEntry}

/-- An entry keeps its task. -/
theorem fate_taskId (h : e.fate claims workerId = some e') : e'.taskId = e.taskId := by
  unfold fate at h
  split at h
  · obtain ⟨held, -, rfl⟩ := Option.map_eq_some_iff.mp h
    rfl
  · rw [← Option.some.inj h]

theorem fate_of_ne (h : e.blocking.workerId ≠ workerId) : e.fate claims workerId = some e :=
  if_neg h

theorem fate_of_eq (h : e.blocking.workerId = workerId) :
    e.fate claims workerId =
      (Registry.conflictAmong claims e.footprint).map fun held => { e with blocking := held } :=
  if_pos h

/-- After a release nobody waits for the worker. -/
theorem fate_blocking_ne
    (h : e.fate (Registry.without claims workerId) workerId = some e') :
    e'.blocking.workerId ≠ workerId := by
  by_cases he : e.blocking.workerId = workerId
  · rw [fate_of_eq he] at h
    obtain ⟨held, hheld, rfl⟩ := Option.map_eq_some_iff.mp h
    obtain ⟨p, -, c, hc, -, rfl⟩ := Registry.conflictAmong_eq_some hheld
    have hother := (List.mem_filter.mp hc).2
    simpa [Claim.ref] using hother
  · rw [fate_of_ne he] at h
    cases h
    exact he

/-- **Nor does a worker's claim matter that is gone anyway.**  An entry that waits for one of two
workers ends up where it would if the other one had let go before. -/
theorem fate_of_both (claims : List Claim) (h : e.blocking.workerId = v) :
    (e.fate (Registry.without claims v) v).bind
        (fate (Registry.without (Registry.without claims v) w) w) =
      e.fate (Registry.without (Registry.without claims v) w) v := by
  rw [fate_of_eq h, fate_of_eq h]
  cases hheld : Registry.conflictAmong (Registry.without claims v) e.footprint with
  | none => rw [Registry.conflictAmong_without_none hheld]; rfl
  | some held =>
    rw [Option.map_some, Option.bind_some]
    by_cases hw : held.workerId = w
    · exact fate_of_eq (e := { e with blocking := held }) hw
    · rw [Registry.conflictAmong_without hheld hw]
      exact fate_of_ne (e := { e with blocking := held }) hw

/-- **It does not matter to an entry who of two workers lets go first.** -/
theorem fate_comm (claims : List Claim) (hne : v ≠ w) (e : QueueEntry) :
    (e.fate (Registry.without claims v) v).bind
        (fate (Registry.without (Registry.without claims v) w) w) =
      (e.fate (Registry.without claims w) w).bind
        (fate (Registry.without (Registry.without claims w) v) v) := by
  by_cases hv : e.blocking.workerId = v
  · rw [fate_of_both claims hv, fate_of_ne (fun h => hne (hv.symm.trans h)), Option.bind_some,
      Registry.without_comm]
  · by_cases hw : e.blocking.workerId = w
    · rw [fate_of_both claims hw, fate_of_ne (fun h => hne (h.symm.trans hw)), Option.bind_some,
        Registry.without_comm]
    · rw [fate_of_ne hv, fate_of_ne hw, Option.bind_some, Option.bind_some, fate_of_ne hw,
        fate_of_ne hv]

end QueueEntry

/-! ## 3. The queue

All entries at once, and two releases after one another. -/

namespace Registry

/-- **Every entry of the queue is looked at alone.** -/
theorem resettle_eq (claims : List Claim) (workerId : String) : ∀ queue : List QueueEntry,
    resettle claims workerId queue =
      (queue.filterMap (QueueEntry.fate claims workerId),
        (queue.filter fun e => (e.fate claims workerId).isNone).map QueueEntry.taskId)
  | [] => rfl
  | e :: rest => by
    rw [resettle, resettle_eq claims workerId rest]
    by_cases he : e.blocking.workerId = workerId
    · cases hheld : conflictAmong claims e.footprint with
      | none => simp [QueueEntry.fate_of_eq he, he, hheld]
      | some held => simp [QueueEntry.fate_of_eq he, he, hheld]
    · simp [QueueEntry.fate_of_ne he, he]

/-- **A release** drops the claims of the worker, and the entries whose footprint is free then. -/
theorem release_eq (r : Registry) (workerId : String) :
    r.release workerId =
      (⟨without r.claims workerId,
          r.queue.filterMap (QueueEntry.fate (without r.claims workerId) workerId)⟩,
        (r.queue.filter fun e =>
          (e.fate (without r.claims workerId) workerId).isNone).map QueueEntry.taskId) := by
  rw [release]
  exact congrArg (fun p : List QueueEntry × List String => (Registry.mk _ p.1, p.2))
    (resettle_eq _ workerId r.queue)

/-- **A release changes nothing exactly if nobody holds or waits for anything of the worker.** -/
theorem release_eq_self_iff (r : Registry) (workerId : String) :
    (r.release workerId).1 = r ↔
      (∀ c ∈ r.claims, c.workerId ≠ workerId) ∧ ∀ e ∈ r.queue, e.blocking.workerId ≠ workerId := by
  rw [release_eq]
  constructor
  · intro hsame
    have hclaims : without r.claims workerId = r.claims := congrArg Registry.claims hsame
    have hqueue : r.queue.filterMap (QueueEntry.fate (without r.claims workerId) workerId) =
      r.queue := congrArg Registry.queue hsame
    constructor
    · intro c hc
      rw [← hclaims] at hc
      simpa [without] using (List.mem_filter.mp hc).2
    · intro e he
      rw [← hqueue] at he
      obtain ⟨old, -, hfate⟩ := List.mem_filterMap.mp he
      exact QueueEntry.fate_blocking_ne hfate
  · rintro ⟨hclaims, hqueue⟩
    have hkept : r.queue.filterMap (QueueEntry.fate (without r.claims workerId) workerId) =
        r.queue.filterMap some :=
      List.filterMap_congr fun e he => QueueEntry.fate_of_ne (hqueue e he)
    have hheld : without r.claims workerId = r.claims :=
      List.filter_eq_self.mpr fun c hc => by simpa using hclaims c hc
    rw [hkept, List.filterMap_some, hheld]

/-- **The registry after two releases does not depend on their order.** -/
theorem release_comm (r : Registry) {v w : String} (hne : v ≠ w) :
    ((r.release v).1.release w).1 = ((r.release w).1.release v).1 := by
  simp only [release_eq, List.filterMap_filterMap, QueueEntry.fate_comm r.claims hne]
  rw [without_comm]

/-- **Nor does what the two of them free.** -/
theorem release_freed_perm (r : Registry) {v w : String} (hne : v ≠ w) :
    ((r.release v).2 ++ ((r.release v).1.release w).2).Perm
      ((r.release w).2 ++ ((r.release w).1.release v).2) := by
  simp only [release_eq]
  refine (perm_map_filter_bind _ _ _ (fun _ _ => QueueEntry.fate_taskId) r.queue).trans ?_
  simp only [QueueEntry.fate_comm r.claims hne]
  exact (perm_map_filter_bind _ _ _ (fun _ _ => QueueEntry.fate_taskId) r.queue).symm

/-! ## 4. A task joins the queue

Putting a task in the queue (`enqueue`) adds an entry, or points the one that is there at
another claim. -/

theorem repoint?_eq_none_iff {taskId : String} {blocking : ClaimRef} {queue : List QueueEntry} :
    repoint? taskId blocking queue = none ↔ taskId ∉ queue.map QueueEntry.taskId := by
  induction queue with
  | nil => simp [repoint?]
  | cons e rest ih =>
    rw [repoint?]
    split
    · rename_i he
      simp [he]
    · rename_i he
      rw [Option.map_eq_none_iff, ih, List.map_cons, List.mem_cons, not_or]
      exact ⟨fun h => ⟨Ne.symm he, h⟩, And.right⟩

/-- An entry is pointed at another claim where it stands. -/
theorem exists_of_repoint? {taskId : String} {blocking : ClaimRef} :
    ∀ {queue queue' : List QueueEntry}, repoint? taskId blocking queue = some queue' →
      ∃ front e back, queue = front ++ e :: back ∧ (∀ x ∈ front, x.taskId ≠ taskId) ∧
        e.taskId = taskId ∧ queue' = front ++ { e with blocking := blocking } :: back
  | [], _, h => by cases h
  | e :: rest, queue', h => by
    rw [repoint?] at h
    split at h
    · rename_i he
      cases h
      exact ⟨[], e, rest, rfl, fun x hx => absurd hx List.not_mem_nil, he, rfl⟩
    · rename_i he
      obtain ⟨rest', hrest, rfl⟩ := Option.map_eq_some_iff.mp h
      obtain ⟨front, e', back, rfl, hfront, he', rfl⟩ := exists_of_repoint? hrest
      exact ⟨e :: front, e', back, rfl, List.forall_mem_cons.mpr ⟨he, hfront⟩, he', rfl⟩

/-- **How a queue changes when a task is put in it**, with its footprint and the claim it waits
for. -/
inductive Joins (taskId : String) (footprint : List String) (blocking : ClaimRef) (now : Instant) :
    List QueueEntry → List QueueEntry → Prop
  /-- A task that did not wait stands at the end. -/
  | last {queue : List QueueEntry} : (∀ e ∈ queue, e.taskId ≠ taskId) →
      Joins taskId footprint blocking now queue (queue ++ [⟨taskId, footprint, blocking, now⟩])
  /-- The first entry of a task that waits is pointed at the claim, and keeps all else. -/
  | inPlace {front back : List QueueEntry} {e : QueueEntry} : (∀ x ∈ front, x.taskId ≠ taskId) →
      e.taskId = taskId →
      Joins taskId footprint blocking now (front ++ e :: back)
        (front ++ { e with blocking := blocking } :: back)

section Joins

variable {taskId : String} {footprint : List String} {blocking : ClaimRef} {now : Instant}
  {queue queue' : List QueueEntry}

/-- A task that waits keeps its place; any other goes to the end. -/
theorem Joins.map_taskId (h : Joins taskId footprint blocking now queue queue') :
    (taskId ∈ queue.map QueueEntry.taskId ∧
        queue'.map QueueEntry.taskId = queue.map QueueEntry.taskId) ∨
      (taskId ∉ queue.map QueueEntry.taskId ∧
        queue'.map QueueEntry.taskId = queue.map QueueEntry.taskId ++ [taskId]) := by
  cases h with
  | last hnew =>
    right
    refine ⟨fun hin => ?_, List.map_append⟩
    obtain ⟨e, he, htask⟩ := List.mem_map.mp hin
    exact hnew e he htask
  | inPlace _ he =>
    left
    simp [he]

/-- Nothing but the entry of that task is new. -/
theorem Joins.mem (h : Joins taskId footprint blocking now queue queue') {e : QueueEntry}
    (he : e ∈ queue') :
    e ∈ queue ∨ e = ⟨taskId, footprint, blocking, now⟩ ∨
      ∃ old ∈ queue, old.taskId = taskId ∧ e = { old with blocking := blocking } := by
  cases h with
  | last _ =>
    exact (List.mem_append.mp he).imp_right fun hnew => Or.inl (List.mem_singleton.mp hnew)
  | inPlace _ htask =>
    rcases List.mem_append.mp he with he | he
    · exact Or.inl (List.mem_append_left _ he)
    · rcases List.mem_cons.mp he with rfl | he
      · exact Or.inr (Or.inr ⟨_, List.mem_append_right _ List.mem_cons_self, htask, rfl⟩)
      · exact Or.inl (List.mem_append_right _ (List.mem_cons_of_mem _ he))

end Joins

/-- **Putting a task in the queue** does that and nothing else. -/
theorem enqueue_joins (r : Registry) (taskId : String) (footprint : List String)
    (blocking : ClaimRef) (now : Instant) :
    ∃ queue, Joins taskId footprint blocking now r.queue queue ∧
      r.enqueue taskId footprint blocking now = { r with queue := queue } := by
  cases hplace : repoint? taskId blocking r.queue with
  | none =>
    have hnew : ∀ e ∈ r.queue, e.taskId ≠ taskId := fun e he heq =>
      repoint?_eq_none_iff.mp hplace (List.mem_map.mpr ⟨e, he, heq⟩)
    exact ⟨_, .last hnew, by rw [enqueue, hplace]⟩
  | some queue =>
    obtain ⟨front, e, back, hold, hfront, he, rfl⟩ := exists_of_repoint? hplace
    rw [hold]
    exact ⟨_, .inPlace hfront he, by rw [enqueue, hplace]⟩

end Registry

/-! ## 5. Several workers let go

A reset and a restart make several workers let go, one after the other, and an entry may be pointed
at one of them after another before it is pointed elsewhere or goes.  In the end none of that
shows: each entry is where it would be had they all let go at once. -/

/-- The claim is in the footprint's way. -/
def Claim.Meets (c : Claim) (footprint : List String) : Prop :=
  ∃ p ∈ footprint, Pattern.intersects p c.pattern = true

instance (c : Claim) (footprint : List String) : Decidable (c.Meets footprint) :=
  inferInstanceAs (Decidable (∃ p ∈ footprint, _))

namespace Registry

variable {claims : List Claim} {footprint : List String} {held : ClaimRef} {workerId : String}
  {ids : List String}

theorem conflictAmong_eq_none_iff_not_meets :
    conflictAmong claims footprint = none ↔ ∀ c ∈ claims, ¬ c.Meets footprint := by
  simp only [conflictAmong_eq_none_iff, Claim.Meets, not_exists, not_and, Bool.not_eq_true]
  exact ⟨fun h c hc p hp => h p hp c hc, fun h p hp c hc => h c hc p hp⟩

theorem exists_meets_of_conflictAmong (h : conflictAmong claims footprint = some held) :
    ∃ c ∈ claims, c.Meets footprint ∧ c.ref = held := by
  obtain ⟨p, hp, c, hc, hmeets, href⟩ := conflictAmong_eq_some h
  exact ⟨c, hc, ⟨p, hp, hmeets⟩, href⟩

/-- The claims that are left when some workers let go. -/
def withoutAll (claims : List Claim) (ids : List String) : List Claim :=
  claims.filter fun c => c.workerId ∉ ids

/-- The claims that are left are those of others. -/
theorem mem_withoutAll {c : Claim} :
    c ∈ withoutAll claims ids ↔ c ∈ claims ∧ c.workerId ∉ ids := by
  simp [withoutAll]

@[simp] theorem withoutAll_nil (claims : List Claim) : withoutAll claims [] = claims := by
  simp [withoutAll]

theorem withoutAll_cons (claims : List Claim) (workerId : String) (ids : List String) :
    withoutAll claims (workerId :: ids) = withoutAll (without claims workerId) ids := by
  rw [withoutAll, withoutAll, without, List.filter_filter]
  refine List.filter_congr fun c _ => ?_
  by_cases hc : c.workerId = workerId <;> simp [hc]

theorem without_eq_withoutAll (claims : List Claim) (workerId : String) :
    without claims workerId = withoutAll claims [workerId] := by
  rw [withoutAll_cons, withoutAll_nil]

/-- **A footprint is free exactly if every claim in its way was held by those who let go.** -/
theorem conflictAmong_withoutAll_eq_none_iff :
    conflictAmong (withoutAll claims ids) footprint = none ↔
      ∀ c ∈ claims, c.Meets footprint → c.workerId ∈ ids := by
  simp only [conflictAmong_eq_none_iff_not_meets, mem_withoutAll]
  refine forall_congr' fun c => ?_
  rw [and_imp, not_imp_not]

/-- **A conflict with somebody else stays the one that is found.** -/
theorem conflictAmong_withoutAll (h : conflictAmong claims footprint = some held)
    (hids : held.workerId ∉ ids) : conflictAmong (withoutAll claims ids) footprint = some held := by
  induction ids generalizing claims with
  | nil => rwa [withoutAll_nil]
  | cons workerId ids ih =>
    rw [List.mem_cons, not_or] at hids
    rw [withoutAll_cons]
    exact ih (conflictAmong_without h hids.1) hids.2

theorem conflictAmong_withoutAll_none (h : conflictAmong claims footprint = none) :
    conflictAmong (withoutAll claims ids) footprint = none := by
  rw [conflictAmong_eq_none_iff_not_meets] at h ⊢
  exact fun c hc => h c (mem_withoutAll.mp hc).1

/-- A conflict that is found then is a claim of somebody else. -/
theorem exists_other_of_conflictAmong_withoutAll
    (h : conflictAmong (withoutAll claims ids) footprint = some held) :
    ∃ c ∈ claims, c.workerId ∉ ids ∧ c.Meets footprint ∧ c.ref = held := by
  obtain ⟨c, hc, hmeets, href⟩ := exists_meets_of_conflictAmong h
  exact ⟨c, (mem_withoutAll.mp hc).1, (mem_withoutAll.mp hc).2, hmeets, href⟩

end Registry

namespace QueueEntry

open Registry (without withoutAll conflictAmong)

variable {claims : List Claim} {ids : List String} {e e' : QueueEntry}

/-- An entry of the queue after some workers let go, where `claims` are those that are left:
`none` if its task is free. -/
def fateAll (claims : List Claim) (ids : List String) (e : QueueEntry) : Option QueueEntry :=
  if e.blocking.workerId ∈ ids then
    (conflictAmong claims e.footprint).map fun held => { e with blocking := held }
  else some e

theorem fateAll_of_mem (h : e.blocking.workerId ∈ ids) :
    e.fateAll claims ids =
      (conflictAmong claims e.footprint).map fun held => { e with blocking := held } :=
  if_pos h

theorem fateAll_of_not_mem (h : e.blocking.workerId ∉ ids) : e.fateAll claims ids = some e :=
  if_neg h

@[simp] theorem fateAll_nil (claims : List Claim) : fateAll claims [] = some :=
  funext fun _ => fateAll_of_not_mem List.not_mem_nil

/-- **One worker lets go, and then the others**: to an entry that is the same as all at once. -/
theorem fate_bind_fateAll (claims : List Claim) (workerId : String) (ids : List String)
    (e : QueueEntry) :
    (e.fate (without claims workerId) workerId).bind
        (fateAll (withoutAll claims (workerId :: ids)) ids) =
      e.fateAll (withoutAll claims (workerId :: ids)) (workerId :: ids) := by
  rw [Registry.withoutAll_cons]
  by_cases he : e.blocking.workerId = workerId
  · have hids : e.blocking.workerId ∈ workerId :: ids := he ▸ List.mem_cons_self
    rw [fate_of_eq he, fateAll_of_mem hids]
    cases hheld : conflictAmong (without claims workerId) e.footprint with
    | none =>
      rw [Registry.conflictAmong_withoutAll_none hheld]
      rfl
    | some held =>
      rw [Option.map_some, Option.bind_some]
      by_cases hmem : held.workerId ∈ ids
      · exact fateAll_of_mem (e := { e with blocking := held }) hmem
      · rw [Registry.conflictAmong_withoutAll hheld hmem]
        exact fateAll_of_not_mem (e := { e with blocking := held }) hmem
  · rw [fate_of_ne he, Option.bind_some]
    unfold fateAll
    simp only [List.mem_cons, he, false_or]

/-- Only what an entry waits for can be new. -/
theorem fateAll_eq (h : e.fateAll claims ids = some e') :
    e' = { e with blocking := e'.blocking } := by
  unfold fateAll at h
  split at h
  · obtain ⟨held, -, rfl⟩ := Option.map_eq_some_iff.mp h
    rfl
  · cases h
    rfl

/-- **An entry that goes has nothing in its way.** -/
theorem conflictAmong_of_fateAll_eq_none (h : e.fateAll claims ids = none) :
    conflictAmong claims e.footprint = none := by
  unfold fateAll at h
  split at h
  · exact Option.map_eq_none_iff.mp h
  · cases h

/-- After several workers let go nobody waits for any of them. -/
theorem fateAll_blocking_not_mem (h : e.fateAll (withoutAll claims ids) ids = some e') :
    e'.blocking.workerId ∉ ids := by
  by_cases he : e.blocking.workerId ∈ ids
  · rw [fateAll_of_mem he] at h
    obtain ⟨held, hheld, rfl⟩ := Option.map_eq_some_iff.mp h
    obtain ⟨c, -, hother, -, rfl⟩ := Registry.exists_other_of_conflictAmong_withoutAll hheld
    exact hother
  · rw [fateAll_of_not_mem he] at h
    cases h
    exact he

end QueueEntry

namespace Registry

/-- The registry after the workers let go, one after the other. -/
def releaseAll (r : Registry) (ids : List String) : Registry :=
  ids.foldl (fun r workerId => (r.release workerId).1) r

/-- **After several releases** the claims of these workers are gone, and each entry of the queue is
where it would be had they let go at once. -/
theorem releaseAll_eq (r : Registry) (ids : List String) :
    r.releaseAll ids =
      ⟨withoutAll r.claims ids,
        r.queue.filterMap (QueueEntry.fateAll (withoutAll r.claims ids) ids)⟩ := by
  induction ids generalizing r with
  | nil => rw [withoutAll_nil, QueueEntry.fateAll_nil, List.filterMap_some]; rfl
  | cons workerId ids ih =>
    have hfirst : r.releaseAll (workerId :: ids) = (r.release workerId).1.releaseAll ids := rfl
    rw [hfirst, ih, release_eq]
    dsimp only
    rw [List.filterMap_filterMap, ← withoutAll_cons]
    simp only [QueueEntry.fate_bind_fateAll]

end Registry
end Foreman
