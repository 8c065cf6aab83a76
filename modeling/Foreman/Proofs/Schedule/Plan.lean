/-
# What a plan holds

One walk over the ranked tasks makes the plan.  `Snapshot.pick` is that walk, begun anywhere, and
section 2 says what it does to the orders and the deferrals made so far; section 3 reads it off for
a plan.  Section 4 says what a plan has to be, without the walk.

Nothing here rests on how the tasks are ranked.  Of the ranking it is used only that it is one of
the eligible tasks, each once (`Plans.exists_walk`), which every sorting routine sees to that does
not give up; scores need not be comparable, nor identifiers.

* `mem_eligibleTasks_iff`: what a task needs in order to start.
* `pick_dispatch`: the orders of a walk are those of some of the tasks walked over, in their order.
* `pick_deferred`: a walk puts a task off only behind an order that it ends with.
* `pick_named`: every task walked over gets an order or a deferral, and one only.
* `Plans.dispatch_apart`: no two orders of a plan overlap.
* `Plans.dispatch_length_le`: a plan starts no more tasks than there is room for.
* `Plans.dispatch_covers`: while there is room, a task that may start is in the plan or overlaps an
  order that is.
* `pick_isSelection`: the walk is sound, and while there is room it leaves nothing out.
* `selectBy_isSelection`: so is a plan, whatever routine has ranked the tasks; and there is one
  where the ranking is an order.

The walk is the loop of `select_tasks`, which takes the ranked tasks one after the other: the
room is full, or the task overlaps an order, or it is taken.  The tasks that claims block are
put off before the walk begins (`Snapshot.claimPlan`).
-/
import Foreman.Proofs.Footprint.Canonical
import Foreman.Schedule.Selection
import Mathlib.Data.List.Nodup

namespace Foreman

/-- The tasks a plan names, those it starts first. -/
def Plan.named (p : Plan) : List String :=
  p.dispatch.map Order.taskId ++ p.deferred.map Deferral.taskId

namespace Snapshot

/-! ## 1. Tasks that may start

What `eligibility` asks, as one condition. -/

/-- A task may start if its eligibility says so. -/
theorem mem_eligibleTasks {s : Snapshot} {t : Task} {now : Instant} :
    t ∈ s.eligibleTasks now ↔ t ∈ s.tasks ∧ s.eligibility t now = .eligible := by
  simp [eligibleTasks]

/-- **What a task needs in order to start**: it waits, its dependencies are done, nobody works
on it, it is out of its cooldown and its footprint is free. -/
theorem mem_eligibleTasks_iff {s : Snapshot} {t : Task} {now : Instant} :
    t ∈ s.eligibleTasks now ↔ t ∈ s.tasks ∧ isWaiting t = true ∧ s.dependenciesDone t = true ∧
      s.hasActiveWorker t.id = false ∧ (s.resumeOf t.id).inCooldown now = false ∧
      s.registry.findConflict t.footprint = none := by
  have helig : s.eligibility t now = .eligible ↔ isWaiting t = true ∧ s.dependenciesDone t = true ∧
      s.hasActiveWorker t.id = false ∧ (s.resumeOf t.id).inCooldown now = false ∧
      s.registry.findConflict t.footprint = none := by
    unfold eligibility
    split
    · rename_i hcan
      simp only [Bool.and_eq_true, Bool.not_eq_true'] at hcan
      obtain ⟨⟨⟨hwaits, hdeps⟩, hidle⟩, hcool⟩ := hcan
      cases s.registry.findConflict t.footprint <;> simp [hwaits, hdeps, hidle, hcool]
    · rename_i hcan
      simp only [Bool.and_eq_true, Bool.not_eq_true'] at hcan
      refine ⟨fun e => absurd e (by simp), fun ⟨hwaits, hdeps, hidle, hcool, _⟩ => ?_⟩
      exact absurd ⟨⟨⟨hwaits, hdeps⟩, hidle⟩, hcool⟩ hcan
  rw [mem_eligibleTasks, helig]

/-- The claim that blocks a task is the one that is found for its footprint. -/
theorem findConflict_of_claimBlocked {s : Snapshot} {t : Task} {now : Instant} {claim : ClaimRef}
    (h : s.eligibility t now = .claimBlocked claim) :
    s.registry.findConflict t.footprint = some claim := by
  unfold eligibility at h
  split at h
  · split at h
    · rename_i claim' hconflict
      cases h
      exact hconflict
    · cases h
  · cases h

/-- A task is put off for a claim if one blocks it. -/
theorem claimDeferral?_eq_some_iff {s : Snapshot} {t : Task} {now : Instant} {d : Deferral} :
    s.claimDeferral? now t = some d ↔
      ∃ claim, s.eligibility t now = .claimBlocked claim ∧ d = ⟨t.id, t.footprint, claim⟩ := by
  unfold claimDeferral?
  split
  · rename_i claim hblocked
    simp [hblocked, eq_comm]
  · rename_i hother
    simp only [reduceCtorEq, false_iff, not_exists, not_and]
    intro claim hblocked
    exact absurd hblocked (hother claim)

/-! ## 2. The walk over the ranked tasks

By induction on the tasks that are still to come, with the plan that was made so far as a
parameter: what is proved of a walk has to be said for one that begins in the middle. -/

/-- The order that starts a task. -/
def orderFor (s : Snapshot) (now : Instant) (ranked : Task × Float) : Order :=
  ⟨ranked.1.id, s.workerIdFor ranked.1 now, ranked.1.footprint, ranked.2⟩

/-- A footprint is free of the orders taken if it overlaps none of them. -/
theorem overlapWith_eq_none_iff {taken : List Order} {footprint : List String} :
    overlapWith taken footprint = none ↔
      ∀ o ∈ taken, Footprint.intersection? footprint o.footprint = none := by
  simp [overlapWith, List.findSome?_eq_none_iff]

/-- The reference names an order of the list, with a pattern of that order that overlaps one of
the footprint. -/
def NamesOrder (orders : List Order) (footprint : List String) (blocking : ClaimRef) : Prop :=
  ∃ o ∈ orders, blocking.taskId = o.taskId ∧ blocking.workerId = o.workerId ∧
    blocking.pattern ∈ o.footprint ∧
    ∃ p ∈ footprint, Pattern.intersects p blocking.pattern = true

theorem NamesOrder.mono {orders more : List Order} (hsub : orders ⊆ more)
    {footprint : List String} {blocking : ClaimRef} (h : NamesOrder orders footprint blocking) :
    NamesOrder more footprint blocking := by
  obtain ⟨o, ho, hnames⟩ := h
  exact ⟨o, hsub ho, hnames⟩

theorem namesOrder_of_overlapWith {taken : List Order} {footprint : List String}
    {blocking : ClaimRef} (h : overlapWith taken footprint = some blocking) :
    NamesOrder taken footprint blocking := by
  obtain ⟨o, ho, hmeets⟩ := List.exists_of_findSome?_eq_some h
  obtain ⟨⟨ours, theirs⟩, hpair, rfl⟩ := Option.map_eq_some_iff.mp hmeets
  obtain ⟨hours, htheirs, hoverlap⟩ := Footprint.intersection?_eq_some hpair
  exact ⟨o, ho, rfl, rfl, htheirs, ours, hours, hoverlap⟩

/-- There is room as long as fewer orders were taken. -/
theorem isFull_eq_false_iff {room : Option Nat} {taken : List Order} :
    isFull room taken = false ↔ ∀ n ∈ room, taken.length < n := by
  cases room with
  | none => simp [isFull]
  | some n => simp [isFull]

/-- A list that is full stays full as it grows. -/
theorem isFull_of_length_le {room : Option Nat} {taken more : List Order}
    (hle : taken.length ≤ more.length) (h : isFull room more = false) :
    isFull room taken = false := by
  rw [isFull_eq_false_iff] at h ⊢
  exact fun n hn => Nat.lt_of_le_of_lt hle (h n hn)

variable (s : Snapshot) (room : Option Nat) (now : Instant)

/-- Without room left the walk ends. -/
theorem pick_full {plan : Plan} (h : isFull room plan.dispatch = true) (r : Task × Float)
    (rest : List (Task × Float)) : s.pick room now plan (r :: rest) = plan := by
  rw [pick, if_pos h]

/-- A task that overlaps an order is put off. -/
theorem pick_overlap {plan : Plan} (h : isFull room plan.dispatch = false) {r : Task × Float}
    {blocking : ClaimRef} (hoverlap : overlapWith plan.dispatch r.1.footprint = some blocking)
    (rest : List (Task × Float)) :
    s.pick room now plan (r :: rest) = s.pick room now
      { plan with deferred := plan.deferred ++ [⟨r.1.id, r.1.footprint, blocking⟩] } rest := by
  rw [pick, if_neg (by simp [h]), hoverlap]

/-- Any other task is taken. -/
theorem pick_free {plan : Plan} (h : isFull room plan.dispatch = false) {r : Task × Float}
    (hfree : overlapWith plan.dispatch r.1.footprint = none) (rest : List (Task × Float)) :
    s.pick room now plan (r :: rest) = s.pick room now
      { plan with dispatch := plan.dispatch ++ [s.orderFor now r] } rest := by
  rw [pick, if_neg (by simp [h]), hfree, orderFor]

/-- **The orders of a walk are those of some of the tasks walked over, in their order.** -/
theorem pick_dispatch (plan : Plan) (ranked : List (Task × Float)) :
    ∃ picked : List (Task × Float), picked.Sublist ranked ∧
      (s.pick room now plan ranked).dispatch = plan.dispatch ++ picked.map (s.orderFor now) := by
  induction ranked generalizing plan with
  | nil => exact ⟨[], List.Sublist.refl _, by simp [pick]⟩
  | cons r rest ih =>
    cases hroom : isFull room plan.dispatch with
    | true =>
      rw [pick_full s room now hroom]
      exact ⟨[], List.nil_sublist _, by simp⟩
    | false =>
      cases hoverlap : overlapWith plan.dispatch r.1.footprint with
      | some blocking =>
        rw [pick_overlap s room now hroom hoverlap]
        obtain ⟨picked, hsub, heq⟩ := ih _
        exact ⟨picked, hsub.cons _, heq⟩
      | none =>
        rw [pick_free s room now hroom hoverlap]
        obtain ⟨picked, hsub, heq⟩ := ih _
        refine ⟨r :: picked, hsub.cons_cons _, ?_⟩
        rw [heq, List.map_cons, ← List.append_cons]

/-- A walk takes no order back. -/
theorem length_le_pick (plan : Plan) (ranked : List (Task × Float)) :
    plan.dispatch.length ≤ (s.pick room now plan ranked).dispatch.length := by
  obtain ⟨picked, -, heq⟩ := s.pick_dispatch room now plan ranked
  rw [heq, List.length_append]
  exact Nat.le_add_right _ _

theorem mem_pick_of_mem {plan : Plan} {o : Order} (ho : o ∈ plan.dispatch)
    (ranked : List (Task × Float)) : o ∈ (s.pick room now plan ranked).dispatch := by
  obtain ⟨picked, -, heq⟩ := s.pick_dispatch room now plan ranked
  rw [heq]
  exact List.mem_append_left _ ho

/-- Two orders, the later one second, whose footprints do not overlap. -/
def Apart (earlier later : Order) : Prop :=
  Footprint.intersection? later.footprint earlier.footprint = none

/-- A walk takes no order that overlaps one taken before. -/
theorem pick_dispatch_apart {plan : Plan} (h : plan.dispatch.Pairwise Apart)
    (ranked : List (Task × Float)) : (s.pick room now plan ranked).dispatch.Pairwise Apart := by
  induction ranked generalizing plan with
  | nil => exact h
  | cons r rest ih =>
    cases hroom : isFull room plan.dispatch with
    | true =>
      rw [pick_full s room now hroom]
      exact h
    | false =>
      cases hoverlap : overlapWith plan.dispatch r.1.footprint with
      | some blocking =>
        rw [pick_overlap s room now hroom hoverlap]
        exact ih h
      | none =>
        rw [pick_free s room now hroom hoverlap]
        refine ih (List.pairwise_append.mpr ⟨h, List.pairwise_singleton _ _, ?_⟩)
        intro o ho o' ho'
        rw [List.mem_singleton.mp ho']
        exact overlapWith_eq_none_iff.mp hoverlap o ho

/-- A walk that begins with a list that fits ends with one. -/
theorem pick_dispatch_length_le {n : Nat} {plan : Plan}
    (h : plan.dispatch.length ≤ n) (ranked : List (Task × Float)) :
    (s.pick (some n) now plan ranked).dispatch.length ≤ n := by
  induction ranked generalizing plan with
  | nil => exact h
  | cons r rest ih =>
    cases hroom : isFull (some n) plan.dispatch with
    | true =>
      rw [pick_full s _ now hroom]
      exact h
    | false =>
      cases hoverlap : overlapWith plan.dispatch r.1.footprint with
      | some blocking =>
        rw [pick_overlap s _ now hroom hoverlap]
        exact ih h
      | none =>
        rw [pick_free s _ now hroom hoverlap]
        have hless : plan.dispatch.length < n := isFull_eq_false_iff.mp hroom n rfl
        refine ih ?_
        rw [List.length_append, List.length_singleton]
        exact hless

/-- A walk that ends with room left has passed over a task only for an order that overlaps it. -/
theorem pick_dispatch_covers {plan : Plan} {ranked : List (Task × Float)}
    (h : isFull room (s.pick room now plan ranked).dispatch = false) {r : Task × Float}
    (hr : r ∈ ranked) :
    ∃ o ∈ (s.pick room now plan ranked).dispatch,
      o.taskId = r.1.id ∨ Footprint.intersection? r.1.footprint o.footprint ≠ none := by
  induction ranked generalizing plan with
  | nil => exact absurd hr List.not_mem_nil
  | cons r' rest ih =>
    have hroom := isFull_of_length_le (s.length_le_pick room now plan (r' :: rest)) h
    cases hoverlap : overlapWith plan.dispatch r'.1.footprint with
    | some blocking =>
      rw [pick_overlap s room now hroom hoverlap] at h ⊢
      rcases List.mem_cons.mp hr with rfl | hr
      · have hmeets : overlapWith plan.dispatch r.1.footprint ≠ none := by simp [hoverlap]
        rw [Ne, overlapWith_eq_none_iff] at hmeets
        push Not at hmeets
        obtain ⟨o, ho, hne⟩ := hmeets
        refine ⟨o, s.mem_pick_of_mem room now ?_ rest, Or.inr hne⟩
        exact ho
      · exact ih h hr
    | none =>
      rw [pick_free s room now hroom hoverlap] at h ⊢
      rcases List.mem_cons.mp hr with rfl | hr
      · refine ⟨s.orderFor now r, s.mem_pick_of_mem room now ?_ rest, Or.inl rfl⟩
        exact List.mem_append_right _ List.mem_cons_self
      · exact ih h hr

/-- What was put off before the walk stays so. -/
theorem mem_pick_deferred {plan : Plan} {d : Deferral} (hd : d ∈ plan.deferred)
    (ranked : List (Task × Float)) : d ∈ (s.pick room now plan ranked).deferred := by
  induction ranked generalizing plan with
  | nil => exact hd
  | cons r rest ih =>
    cases hroom : isFull room plan.dispatch with
    | true =>
      rw [pick_full s room now hroom]
      exact hd
    | false =>
      cases hoverlap : overlapWith plan.dispatch r.1.footprint with
      | some blocking =>
        rw [pick_overlap s room now hroom hoverlap]
        exact ih (List.mem_append_left _ hd)
      | none =>
        rw [pick_free s room now hroom hoverlap]
        exact ih hd

/-- **A walk puts a task off only behind an order that it ends with.** -/
theorem pick_deferred {plan : Plan} {ranked : List (Task × Float)} {d : Deferral}
    (hd : d ∈ (s.pick room now plan ranked).deferred) :
    d ∈ plan.deferred ∨ (∃ r ∈ ranked, d.taskId = r.1.id ∧ d.footprint = r.1.footprint) ∧
      NamesOrder (s.pick room now plan ranked).dispatch d.footprint d.blocking := by
  induction ranked generalizing plan with
  | nil => exact Or.inl hd
  | cons r rest ih =>
    cases hroom : isFull room plan.dispatch with
    | true =>
      rw [pick_full s room now hroom] at hd
      exact Or.inl hd
    | false =>
      cases hoverlap : overlapWith plan.dispatch r.1.footprint with
      | some blocking =>
        rw [pick_overlap s room now hroom hoverlap] at hd ⊢
        rcases ih hd with hold | ⟨⟨r', hr', hof⟩, hnames⟩
        · rcases List.mem_append.mp hold with hold | hnew
          · exact Or.inl hold
          · rw [List.mem_singleton.mp hnew]
            refine Or.inr ⟨⟨r, List.mem_cons_self, rfl, rfl⟩, ?_⟩
            -- the orders taken so far stay to the end of the walk
            refine (namesOrder_of_overlapWith hoverlap).mono fun o ho => ?_
            refine s.mem_pick_of_mem room now ?_ rest
            exact ho
        · exact Or.inr ⟨⟨r', List.mem_cons_of_mem _ hr', hof⟩, hnames⟩
      | none =>
        rw [pick_free s room now hroom hoverlap] at hd ⊢
        rcases ih hd with hold | ⟨⟨r', hr', hof⟩, hnames⟩
        · exact Or.inl hold
        · exact Or.inr ⟨⟨r', List.mem_cons_of_mem _ hr', hof⟩, hnames⟩

/-- **Every task walked over is named once more**, by an order or by a deferral, and a walk that
ends with room left has gone over all. -/
theorem pick_named (plan : Plan) (ranked : List (Task × Float)) :
    ∃ walked : List (Task × Float), walked.Sublist ranked ∧
      (s.pick room now plan ranked).named.Perm (plan.named ++ walked.map fun r => r.1.id) ∧
      (isFull room (s.pick room now plan ranked).dispatch = false → walked = ranked) := by
  induction ranked generalizing plan with
  | nil => exact ⟨[], List.Sublist.refl _, by simp [pick], fun _ => rfl⟩
  | cons r rest ih =>
    -- a full plan ends the walk; else the task goes to one of the two lists, and is named there
    cases hroom : isFull room plan.dispatch with
    | true =>
      rw [pick_full s room now hroom]
      refine ⟨[], List.nil_sublist _, by simp, fun hleft => ?_⟩
      rw [hroom] at hleft
      cases hleft
    | false =>
      cases hoverlap : overlapWith plan.dispatch r.1.footprint with
      | some blocking =>
        rw [pick_overlap s room now hroom hoverlap]
        obtain ⟨walked, hsub, hperm, hall⟩ :=
          ih { plan with deferred := plan.deferred ++ [⟨r.1.id, r.1.footprint, blocking⟩] }
        refine ⟨r :: walked, hsub.cons_cons _, hperm.trans ?_, fun hleft => by rw [hall hleft]⟩
        simp [Plan.named]
      | none =>
        rw [pick_free s room now hroom hoverlap]
        obtain ⟨walked, hsub, hperm, hall⟩ :=
          ih { plan with dispatch := plan.dispatch ++ [s.orderFor now r] }
        refine ⟨r :: walked, hsub.cons_cons _, hperm.trans ?_, fun hleft => by rw [hall hleft]⟩
        simp only [Plan.named, List.map_append, List.map_cons, List.map_nil, List.append_assoc,
          List.singleton_append, orderFor]
        exact List.perm_middle.symm.append_left _

/-! ## 3. The plan

What is proved of the walk needs nothing of the ranking but that it is one of the eligible
tasks.  So it holds for what any sorting routine returns. -/

variable {s room now} {w : Config.Scoring}

/-- What a sorting routine makes of the eligible tasks, without the scores. -/
theorem perm_eligibleTasks {ranked : List (Task × Float)} (h : ranked.Perm (s.scored now w)) :
    (ranked.map Prod.fst).Perm (s.eligibleTasks now) := by
  have hfst := h.map Prod.fst
  rw [scored, List.map_map] at hfst
  simpa [Function.comp_def] using hfst

/-- A plan is a walk over the eligible tasks, in some order. -/
theorem Plans.exists_walk {plan : Plan} (h : s.Plans room now w plan) :
    ∃ ranked : List (Task × Float), (ranked.map Prod.fst).Perm (s.eligibleTasks now) ∧
      plan = s.pick room now (s.claimPlan now) ranked := by
  obtain ⟨sort, hplan⟩ := h
  obtain ⟨ranked, hsorted, rfl⟩ := Option.map_eq_some_iff.mp hplan
  exact ⟨ranked, perm_eligibleTasks (sort.perm hsorted), rfl⟩

section Orders

variable {plan : Plan} (h : s.Plans room now w plan)

include h

/-- **Every order of a plan starts a task that may start.** -/
theorem Plans.dispatch_mem {o : Order} (ho : o ∈ plan.dispatch) :
    ∃ t ∈ s.eligibleTasks now,
      o.taskId = t.id ∧ o.footprint = t.footprint ∧ o.workerId = s.workerIdFor t now := by
  obtain ⟨ranked, hranked, rfl⟩ := h.exists_walk
  obtain ⟨picked, hsub, heq⟩ := s.pick_dispatch room now (s.claimPlan now) ranked
  rw [heq, claimPlan, List.nil_append, List.mem_map] at ho
  obtain ⟨r, hr, rfl⟩ := ho
  have hmem : r.1 ∈ ranked.map Prod.fst := List.mem_map_of_mem (hsub.subset hr)
  exact ⟨r.1, hranked.subset hmem, rfl, rfl, rfl⟩

/-- A plan starts no task twice. -/
theorem Plans.dispatch_nodup (hids : (s.tasks.map Task.id).Nodup) :
    (plan.dispatch.map Order.taskId).Nodup := by
  obtain ⟨ranked, hranked, rfl⟩ := h.exists_walk
  obtain ⟨picked, hsub, heq⟩ := s.pick_dispatch room now (s.claimPlan now) ranked
  have heligible : ((s.eligibleTasks now).map Task.id).Nodup :=
    hids.sublist (List.filter_sublist.map Task.id)
  have hnodup : ((ranked.map Prod.fst).map Task.id).Nodup :=
    (hranked.map Task.id).nodup_iff.mpr heligible
  rw [heq, claimPlan, List.nil_append, List.map_map]
  rw [List.map_map] at hnodup
  exact hnodup.sublist (hsub.map _)

/-- **No two orders of a plan overlap.** -/
theorem Plans.dispatch_apart : plan.dispatch.Pairwise Apart := by
  obtain ⟨ranked, -, rfl⟩ := h.exists_walk
  exact s.pick_dispatch_apart room now List.Pairwise.nil _

/-- **A plan starts no more tasks than there is room for.** -/
theorem Plans.dispatch_length_le {n : Nat} (hn : n ∈ room) : plan.dispatch.length ≤ n := by
  obtain ⟨ranked, -, rfl⟩ := h.exists_walk
  rw [Option.mem_def] at hn
  subst hn
  exact s.pick_dispatch_length_le now (Nat.zero_le n) _

/-- **While there is room, a task that may start is in the plan or overlaps an order that is.** -/
theorem Plans.dispatch_covers (hroom : ∀ n ∈ room, plan.dispatch.length < n)
    {t : Task} (ht : t ∈ s.eligibleTasks now) :
    ∃ o ∈ plan.dispatch,
      o.taskId = t.id ∨ Footprint.intersection? t.footprint o.footprint ≠ none := by
  obtain ⟨ranked, hranked, rfl⟩ := h.exists_walk
  obtain ⟨r, hr, rfl⟩ := List.mem_map.mp (hranked.mem_iff.mpr ht)
  exact s.pick_dispatch_covers room now (isFull_eq_false_iff.mpr hroom) hr

end Orders

/-- **Where the ranking is an order, every routine makes the plan that insertion makes.** -/
theorem selectBy_eq (sort : Sorter) (h : IsOrderOn outranks (s.scored now w)) :
    s.selectBy sort room now w = some (s.select room now w) := by
  rw [selectBy, sort.sort?_eq h]
  rfl

/-! ## 4. Sound and complete

The parts of a selection, and that the walk makes one.  Insertion's plan is the only one where
scores and identifiers are in order. -/

/-- **What a plan has to be**, whatever way it is found: for a snapshot, a room and a time. -/
structure IsSelection (s : Snapshot) (room : Option Nat) (now : Instant) (plan : Plan) : Prop where
  /-- No task is started twice. -/
  orders_distinct : (plan.dispatch.map Order.taskId).Nodup
  /-- Every task started may start. -/
  orders_eligible : ∀ o ∈ plan.dispatch, ∃ t ∈ s.tasks,
    o.taskId = t.id ∧ o.footprint = t.footprint ∧ s.eligibility t now = .eligible
  within_room : ∀ n ∈ room, plan.dispatch.length ≤ n
  /-- The tasks started can run side by side. -/
  orders_apart : plan.dispatch.Pairwise fun a b =>
    Footprint.intersection? a.footprint b.footprint = none ∧
      Footprint.intersection? b.footprint a.footprint = none
  /-- No task is put off twice. -/
  deferred_distinct : (plan.deferred.map Deferral.taskId).Nodup
  /-- No task is both started and put off. -/
  deferred_new : ∀ d ∈ plan.deferred, ∀ o ∈ plan.dispatch, d.taskId ≠ o.taskId
  /-- A task is put off for the claim that blocks it, or behind an order that overlaps it. -/
  deferred_blocked : ∀ d ∈ plan.deferred, ∃ t ∈ s.tasks,
    d.taskId = t.id ∧ d.footprint = t.footprint ∧
      ((s.eligibility t now = .claimBlocked d.blocking ∧
          s.registry.findConflict t.footprint = some d.blocking) ∨
        (s.eligibility t now = .eligible ∧
          NamesOrder plan.dispatch d.footprint d.blocking))
  /-- Every task that a claim blocks is put off. -/
  claimBlocked_deferred : ∀ t ∈ s.tasks, ∀ claim, s.eligibility t now = .claimBlocked claim →
    ⟨t.id, t.footprint, claim⟩ ∈ plan.deferred
  /-- While there is room, every task that may start is started or put off. -/
  eligible_planned : (∀ n ∈ room, plan.dispatch.length < n) →
    ∀ t ∈ s.tasks, s.eligibility t now = .eligible →
      (∃ o ∈ plan.dispatch, o.taskId = t.id) ∨ ∃ d ∈ plan.deferred, d.taskId = t.id

theorem mem_claimPlan_deferred {d : Deferral} :
    d ∈ (s.claimPlan now).deferred ↔
      ∃ t ∈ s.tasks, ∃ claim, s.eligibility t now = .claimBlocked claim ∧
        d = ⟨t.id, t.footprint, claim⟩ := by
  simp only [claimPlan, List.mem_filterMap, claimDeferral?_eq_some_iff]

/-- The tasks that claims block and the tasks walked over have distinct identifiers. -/
theorem nodup_claimPlan_named (h : (s.tasks.map Task.id).Nodup) {walked : List (Task × Float)}
    (hwalked : (walked.map fun r => r.1.id).Nodup)
    (helig : ∀ r ∈ walked, r.1 ∈ s.eligibleTasks now) :
    ((s.claimPlan now).named ++ walked.map fun r => r.1.id).Nodup := by
  refine List.nodup_append.mpr ⟨?_, hwalked, ?_⟩
  · have hids : s.tasks.Pairwise fun t u => t.id ≠ u.id := List.pairwise_map.mp h
    rw [Plan.named, claimPlan, List.map_nil, List.nil_append, List.Nodup, List.pairwise_map,
      List.pairwise_filterMap]
    refine hids.imp fun {t u} hne d hd e he => ?_
    obtain ⟨_, -, rfl⟩ := claimDeferral?_eq_some_iff.mp hd
    obtain ⟨_, -, rfl⟩ := claimDeferral?_eq_some_iff.mp he
    exact hne
  · intro a ha b hb
    rw [Plan.named, claimPlan, List.map_nil, List.nil_append] at ha
    obtain ⟨d, hd, rfl⟩ := List.mem_map.mp ha
    obtain ⟨r, hr, rfl⟩ := List.mem_map.mp hb
    obtain ⟨t, ht, claim, hblocked, rfl⟩ := mem_claimPlan_deferred.mp hd
    obtain ⟨hmem, hmay⟩ := mem_eligibleTasks.mp (helig r hr)
    intro heq
    rw [List.inj_on_of_nodup_map h ht hmem heq, hmay] at hblocked
    cases hblocked

/-- **The walk over the tasks that may start makes a selection of them**, in whatever order they
are ranked. -/
theorem pick_isSelection (h : (s.tasks.map Task.id).Nodup) {ranked : List (Task × Float)}
    (hranked : (ranked.map Prod.fst).Perm (s.eligibleTasks now)) :
    IsSelection s room now (s.pick room now (s.claimPlan now) ranked) := by
  have helig : ∀ r ∈ ranked, r.1 ∈ s.eligibleTasks now := fun r hr =>
    hranked.subset (List.mem_map_of_mem hr)
  have hids : (ranked.map fun r => r.1.id).Nodup := by
    have hnodup := (hranked.map Task.id).nodup_iff.mpr
      (h.sublist (List.filter_sublist.map Task.id))
    rwa [List.map_map] at hnodup
  -- the walk names each ranked task once at most, and orders are taken from the ranking
  obtain ⟨walked, hsub, hnamed, hall⟩ := s.pick_named room now (s.claimPlan now) ranked
  obtain ⟨picked, hpicked, horders⟩ := s.pick_dispatch room now (s.claimPlan now) ranked
  have hnodup : (s.pick room now (s.claimPlan now) ranked).named.Nodup :=
    hnamed.nodup_iff.mpr (nodup_claimPlan_named h (hids.sublist (hsub.map _))
      fun r hr => helig r (hsub.subset hr))
  obtain ⟨hdispatch, hdeferred, hnew⟩ := List.nodup_append.mp hnodup
  refine
    { orders_distinct := hdispatch
      orders_eligible := fun o ho => ?_
      within_room := fun n hn => ?_
      orders_apart := ?_
      deferred_distinct := hdeferred
      deferred_new := fun d hd o ho => ?_
      deferred_blocked := fun d hd => ?_
      claimBlocked_deferred := fun t ht claim hblocked => ?_
      eligible_planned := fun hroom t ht hmay => ?_ }
  · rw [horders, claimPlan, List.nil_append] at ho
    obtain ⟨r, hr, rfl⟩ := List.mem_map.mp ho
    obtain ⟨hmem, hmay⟩ := mem_eligibleTasks.mp (helig r (hpicked.subset hr))
    exact ⟨r.1, hmem, rfl, rfl, hmay⟩
  · rw [Option.mem_def] at hn
    subst hn
    exact s.pick_dispatch_length_le now (Nat.zero_le n) ranked
  · have hapart : (s.pick room now (s.claimPlan now) ranked).dispatch.Pairwise Apart :=
      s.pick_dispatch_apart room now List.Pairwise.nil ranked
    exact hapart.imp fun {a b} hab => ⟨Footprint.intersection?_eq_none_comm.mp hab, hab⟩
  · exact (hnew _ (List.mem_map_of_mem ho) _ (List.mem_map_of_mem hd)).symm
  · rcases s.pick_deferred room now hd with hclaim | ⟨⟨r, hr, htask, hfoot⟩, hnames⟩
    · obtain ⟨t, ht, claim, hblocked, rfl⟩ := mem_claimPlan_deferred.mp hclaim
      exact ⟨t, ht, rfl, rfl, Or.inl ⟨hblocked, findConflict_of_claimBlocked hblocked⟩⟩
    · obtain ⟨hmem, hmay⟩ := mem_eligibleTasks.mp (helig r hr)
      exact ⟨r.1, hmem, htask, hfoot, Or.inr ⟨hmay, hnames⟩⟩
  · exact s.mem_pick_deferred room now (mem_claimPlan_deferred.mpr ⟨t, ht, claim, hblocked, rfl⟩)
      ranked
  · obtain ⟨r, hr, rfl⟩ := List.mem_map.mp (hranked.mem_iff.mpr (mem_eligibleTasks.mpr ⟨ht, hmay⟩))
    have hin : r.1.id ∈ (s.pick room now (s.claimPlan now) ranked).named := by
      rw [hnamed.mem_iff, hall (isFull_eq_false_iff.mpr hroom)]
      exact List.mem_append_right _ (List.mem_map_of_mem (f := fun r => r.1.id) hr)
    rcases List.mem_append.mp hin with hin | hin
    · exact Or.inl (List.mem_map.mp hin)
    · exact Or.inr (List.mem_map.mp hin)

/-- **A plan is sound and leaves nothing out.**  On a backlog with distinct identifiers, for any
room, time and weights, and with any routine that ranks the tasks: if there is a plan, it starts
tasks that may start, once each, as many as there is room for and none that overlap; it puts off,
once each, others, for a claim or an order that is in their way; and it names every task that a
claim blocks and, while there is room, every task that may start.  There is a plan, and one only,
where scores and identifiers put the tasks that may start in an order. -/
theorem selectBy_isSelection (h : (s.tasks.map Task.id).Nodup) (sort : Sorter)
    (room : Option Nat) (now : Instant) (w : Config.Scoring) :
    (∀ plan, s.selectBy sort room now w = some plan → IsSelection s room now plan) ∧
      (IsOrderOn outranks (s.scored now w) →
        s.selectBy sort room now w = some (s.select room now w)) := by
  refine ⟨fun plan hplan => ?_, selectBy_eq sort⟩
  obtain ⟨ranked, hranked, rfl⟩ := Plans.exists_walk ⟨sort, hplan⟩
  exact pick_isSelection h hranked

end Snapshot

namespace Sample

def rush : Instant := ⟨20000, 43200, 0⟩

/-- Five tasks of falling priority: the second overlaps the first, and a claim is in the way of the
third. -/
def crossing : Snapshot where
  tasks :=
    [{ id := "T-1", priority := 4, footprint := ["src"] },
      { id := "T-2", priority := 3, footprint := ["src/api/**"] },
      { id := "T-3", priority := 2, footprint := ["docs/**"] },
      { id := "T-4", priority := 1, footprint := ["tests"] },
      { id := "T-5", priority := 0, footprint := ["bench"] }]
  registry := { claims := [⟨"docs/guide", "worker-T-9-1", "T-9", rush⟩] }

end Sample

/-- With room for two the plan starts the first and the fourth task, puts the second off behind the
first and the third behind the claim, and never comes to the fifth.  The most cautious routine makes
it. -/
theorem crossing_isSelection :
    let plan := Sample.crossing.select (some 2) Sample.rush {}
    (Sample.crossing.tasks.map Task.id).Nodup ∧
      IsOrderOn Snapshot.outranks (Sample.crossing.scored Sample.rush {}) ∧
      Sample.crossing.selectBy .cautious (some 2) Sample.rush {} = some plan ∧
      Snapshot.IsSelection Sample.crossing (some 2) Sample.rush plan ∧
      plan.dispatch.map Order.taskId = ["T-1", "T-4"] ∧
      plan.deferred.map (fun d => (d.taskId, d.blocking.taskId, d.blocking.pattern)) =
        [("T-3", "T-9", "docs/guide"), ("T-2", "T-1", "src")] := by
  have hids : (Sample.crossing.tasks.map Task.id).Nodup := by decide
  have horder : IsOrderOn Snapshot.outranks (Sample.crossing.scored Sample.rush {}) := by
    decide +kernel
  obtain ⟨hsound, hplan⟩ :=
    Snapshot.selectBy_isSelection hids .cautious (some 2) Sample.rush {}
  exact ⟨hids, horder, hplan horder, hsound _ (hplan horder), by decide +kernel,
    by decide +kernel⟩

end Foreman
