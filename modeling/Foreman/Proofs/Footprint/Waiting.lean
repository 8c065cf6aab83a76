/-
# Who waits, for what, and in which order

A release looks only at the entries that wait for the worker who lets go, and points those that are
still in somebody's way at the next claim.  So the queue is sound only if every entry is pointed at
a claim that is really held, after any claims, releases and changes of the queue.

Every task has one footprint here, and a task joins the queue with the claim that is found for it
at that moment.

* `Orderly.after`: every act keeps each task in the queue at most once, and each entry pointed at
  a claim that is held and in its way.
* `arrival`: an act keeps what waits in its order, or puts one task that did not wait at the end.
* `wait_queue_orderly`: so, after any acts on an empty registry, nobody waits for nothing, the
  queue stands in the order in which tasks joined it, and a task leaves it only when it is taken
  out or when its footprint is free, in which case the release hands it back.

A release hands back the tasks that it lets go, and the coordinator passes them on in the effect
of an outcome.  It is only a notice: the next pass looks at all tasks again.  So what the queue
is for is the order and the reason of the waiting, and that is what is proved of it.
-/
import Mathlib.Data.List.Induction
import Mathlib.Data.List.Nodup
import Mathlib.Tactic.ByContra
import Foreman.Proofs.Footprint.Queue

namespace Foreman
namespace Registry

/-! ## 1. Acts

What the coordinator does with a registry.  A task is put in the queue only with a claim that
was found for it, which is how `apply_dispatch` and the deferrals of a plan do it. -/

/-- What can happen to a registry. -/
inductive Act where
  | claim (footprint : List String) (workerId taskId : String) (now : Instant)
  | release (workerId : String)
  | dequeue (taskId : String)
  /-- A task joins the queue, if a claim is in its way. -/
  | enqueue (taskId : String) (now : Instant)
deriving DecidableEq, Repr

/-- The registry after an act, where `feet` says which footprint each task has. -/
def after (feet : String → List String) (r : Registry) : Act → Registry
  | .claim footprint workerId taskId now =>
    match r.claim footprint workerId taskId now with
    | .ok r' => r'
    | .error _ => r
  | .release workerId => (r.release workerId).1
  | .dequeue taskId => r.dequeue taskId
  | .enqueue taskId now =>
    match r.findConflict (feet taskId) with
    | some held => r.enqueue taskId (feet taskId) held now
    | none => r

/-- A claim leaves the queue as it is, and takes no claim away. -/
theorem after_claim (feet : String → List String) (r : Registry) (footprint : List String)
    (workerId taskId : String) (now : Instant) :
    (r.after feet (.claim footprint workerId taskId now)).queue = r.queue ∧
      r.claims ⊆ (r.after feet (.claim footprint workerId taskId now)).claims := by
  unfold after
  dsimp only
  split
  · rename_i r' hr'
    obtain ⟨-, rfl⟩ := claim_eq_ok_iff.mp hr'
    exact ⟨rfl, List.subset_append_left _ _⟩
  · exact ⟨rfl, List.Subset.refl _⟩

/-- A task joins the queue if a claim is in its way. -/
theorem after_enqueue (feet : String → List String) (r : Registry) (taskId : String)
    (now : Instant) :
    r.after feet (.enqueue taskId now) = r ∨
      ∃ held, r.findConflict (feet taskId) = some held ∧
        r.after feet (.enqueue taskId now) = r.enqueue taskId (feet taskId) held now := by
  unfold after
  dsimp only
  split
  · exact Or.inr ⟨_, ‹_›, rfl⟩
  · exact Or.inl rfl

/-- **After any acts on an empty registry the queue is orderly.** -/
def played (feet : String → List String) (acts : List Act) : Registry :=
  acts.foldl (after feet) empty

theorem played_append_singleton (feet : String → List String) (acts : List Act) (a : Act) :
    played feet (acts ++ [a]) = (played feet acts).after feet a := by
  rw [played, List.foldl_append]
  rfl

/-- The tasks in the queue, in its order. -/
def waiting (r : Registry) : List String := r.queue.map QueueEntry.taskId

/-- A task is queued if it has an entry (`is_queued`). -/
theorem isQueued_iff {r : Registry} {taskId : String} :
    r.isQueued taskId = true ↔ taskId ∈ r.waiting := by
  simp [isQueued, waiting]

theorem isQueued_eq_false_iff {r : Registry} {taskId : String} :
    r.isQueued taskId = false ↔ taskId ∉ r.waiting := by
  rw [← isQueued_iff, Bool.not_eq_true]

/-! ## 2. What becomes of the queue

The tasks in the queue, act by act. -/

variable {feet : String → List String} {r : Registry} {a : Act}

/-- A task that waits keeps its place when it is put in the queue again. -/
theorem waiting_enqueue_of_mem {taskId : String} (h : taskId ∈ r.waiting) (footprint : List String)
    (blocking : ClaimRef) (now : Instant) :
    (r.enqueue taskId footprint blocking now).waiting = r.waiting := by
  obtain ⟨queue, hjoins, heq⟩ := r.enqueue_joins taskId footprint blocking now
  rw [heq]
  rcases hjoins.map_taskId with ⟨-, hsame⟩ | ⟨hnew, -⟩
  · exact hsame
  · exact absurd h hnew

theorem waiting_after_enqueue {taskId : String} (h : taskId ∈ r.waiting) (now : Instant) :
    (r.after feet (.enqueue taskId now)).waiting = r.waiting := by
  rcases after_enqueue feet r taskId now with heq | ⟨held, -, heq⟩
  · rw [heq]
  · rw [heq, waiting_enqueue_of_mem h]

/-- Any other task goes to the end. -/
theorem waiting_enqueue_of_not_mem {taskId : String} (h : taskId ∉ r.waiting)
    (footprint : List String) (blocking : ClaimRef) (now : Instant) :
    (r.enqueue taskId footprint blocking now).waiting = r.waiting ++ [taskId] := by
  obtain ⟨queue, hjoins, heq⟩ := r.enqueue_joins taskId footprint blocking now
  rw [heq]
  rcases hjoins.map_taskId with ⟨hin, -⟩ | ⟨-, hlast⟩
  · exact absurd hin h
  · exact hlast

/-- A release keeps the tasks whose entries stay, in their order. -/
theorem waiting_release (r : Registry) (workerId : String) :
    (r.release workerId).1.waiting =
      (r.queue.filter fun e =>
        (e.fate (without r.claims workerId) workerId).isSome).map QueueEntry.taskId := by
  rw [release_eq, waiting]
  dsimp only
  induction r.queue with
  | nil => rfl
  | cons e rest ih =>
    cases hfate : e.fate (without r.claims workerId) workerId with
    | none => rw [List.filterMap_cons_none hfate, List.filter_cons_of_neg (by simp [hfate]), ih]
    | some e' =>
      rw [List.filterMap_cons_some hfate, List.filter_cons_of_pos (by simp [hfate]),
        List.map_cons, List.map_cons, ih, QueueEntry.fate_taskId hfate]

/-- **An act keeps what waits in its order, or puts one task that did not wait at the end.** -/
theorem arrival (feet : String → List String) (r : Registry) (a : Act) :
    List.Sublist (r.after feet a).waiting r.waiting ∨
      ∃ taskId, taskId ∉ r.waiting ∧ (r.after feet a).waiting = r.waiting ++ [taskId] := by
  cases a with
  | claim footprint workerId taskId now =>
    left
    rw [waiting, (after_claim feet r footprint workerId taskId now).1]
    exact List.Sublist.refl _
  | release workerId =>
    left
    have hwaiting : (r.after feet (.release workerId)).waiting = _ := waiting_release r workerId
    rw [hwaiting]
    exact List.filter_sublist.map _
  | dequeue taskId => exact Or.inl (List.filter_sublist.map _)
  | enqueue taskId now =>
    rcases after_enqueue feet r taskId now with heq | ⟨held, -, heq⟩
    · left
      rw [heq]
    · by_cases hmem : taskId ∈ r.waiting
      · left
        rw [waiting_after_enqueue hmem]
      · right
        exact ⟨taskId, hmem, heq ▸ waiting_enqueue_of_not_mem hmem _ held now⟩

/-! ## 3. Nobody waits for nothing

The invariant, and its proof act by act. -/

/-- The entry is pointed at one of the claims, and that claim is in its way. -/
def Blocked (claims : List Claim) (e : QueueEntry) : Prop :=
  ∃ c ∈ claims, c.ref = e.blocking ∧ ∃ p ∈ e.footprint, Pattern.intersects p c.pattern = true

/-- Each task is in the queue at most once, with its own footprint and behind a claim that is in
its way. -/
structure Orderly (feet : String → List String) (r : Registry) : Prop where
  once : r.waiting.Nodup
  own : ∀ e ∈ r.queue, e.footprint = feet e.taskId
  blocked : ∀ e ∈ r.queue, Blocked r.claims e

theorem Blocked.mono {claims claims' : List Claim} {e : QueueEntry} (h : Blocked claims e)
    (hsub : claims ⊆ claims') : Blocked claims' e := by
  obtain ⟨c, hc, hway⟩ := h
  exact ⟨c, hsub hc, hway⟩

/-- A conflict that is found is a claim to wait for. -/
theorem blocked_of_conflictAmong {claims : List Claim} {e : QueueEntry} {held : ClaimRef}
    (h : conflictAmong claims e.footprint = some held) :
    Blocked claims { e with blocking := held } := by
  obtain ⟨p, hp, c, hc, hmeets, href⟩ := conflictAmong_eq_some h
  exact ⟨c, hc, href, p, hp, hmeets⟩

/-- An entry that stays when a worker lets go waits for a claim that is still held. -/
theorem Blocked.of_fate {claims : List Claim} {e e' : QueueEntry} {workerId : String}
    (h : Blocked claims e) (hfate : e.fate (without claims workerId) workerId = some e') :
    e'.footprint = e.footprint ∧ Blocked (without claims workerId) e' := by
  by_cases he : e.blocking.workerId = workerId
  · rw [QueueEntry.fate_of_eq he] at hfate
    obtain ⟨held, hheld, rfl⟩ := Option.map_eq_some_iff.mp hfate
    exact ⟨rfl, blocked_of_conflictAmong hheld⟩
  · rw [QueueEntry.fate_of_ne he] at hfate
    cases hfate
    obtain ⟨c, hc, href, hway⟩ := h
    refine ⟨rfl, c, List.mem_filter.mpr ⟨hc, ?_⟩, href, hway⟩
    have hworker : c.workerId = e.blocking.workerId := congrArg ClaimRef.workerId href
    simpa [hworker] using he

namespace Orderly

/-- A release keeps the queue orderly. -/
theorem release (h : Orderly feet r) (workerId : String)
    (honce : (r.release workerId).1.waiting.Nodup) : Orderly feet (r.release workerId).1 := by
  have hmem : ∀ e' ∈ (r.release workerId).1.queue,
      ∃ e ∈ r.queue, e.fate (without r.claims workerId) workerId = some e' := by
    intro e' he'
    rw [release_eq] at he'
    exact List.mem_filterMap.mp he'
  refine ⟨honce, fun e' he' => ?_, fun e' he' => ?_⟩
  · obtain ⟨e, he, hfate⟩ := hmem e' he'
    rw [((h.blocked e he).of_fate hfate).1, h.own e he, QueueEntry.fate_taskId hfate]
  · obtain ⟨e, he, hfate⟩ := hmem e' he'
    exact ((h.blocked e he).of_fate hfate).2

/-- So does a task that joins. -/
theorem enqueue (h : Orderly feet r) {taskId : String} {held : ClaimRef}
    (hheld : r.findConflict (feet taskId) = some held) (now : Instant)
    (honce : (r.enqueue taskId (feet taskId) held now).waiting.Nodup) :
    Orderly feet (r.enqueue taskId (feet taskId) held now) := by
  have hmem : ∀ e ∈ (r.enqueue taskId (feet taskId) held now).queue,
      e ∈ r.queue ∨ e.footprint = feet taskId ∧ e.taskId = taskId ∧ e.blocking = held := by
    intro e he
    obtain ⟨queue, hjoins, heq⟩ := r.enqueue_joins taskId (feet taskId) held now
    rw [heq] at he
    rcases hjoins.mem he with hold | rfl | ⟨old, hold, htask, rfl⟩
    · exact Or.inl hold
    · exact Or.inr ⟨rfl, rfl, rfl⟩
    · exact Or.inr ⟨(h.own old hold).trans (congrArg feet htask), htask, rfl⟩
  refine ⟨honce, fun e he => ?_, fun e he => ?_⟩
  · rcases hmem e he with hold | ⟨hfoot, htask, -⟩
    · exact h.own e hold
    · rw [hfoot, htask]
  · rw [enqueue_claims]
    rcases hmem e he with hold | ⟨hfoot, -, hblocking⟩
    · exact h.blocked e hold
    · rw [findConflict, ← hfoot] at hheld
      rw [← hblocking] at hheld
      exact blocked_of_conflictAmong hheld

/-- **Every act keeps the queue orderly.** -/
theorem after (h : Orderly feet r) (a : Act) : Orderly feet (r.after feet a) := by
  have honce : (r.after feet a).waiting.Nodup := by
    rcases arrival feet r a with hsub | ⟨taskId, hnew, hwaiting⟩
    · exact hsub.nodup h.once
    · rw [hwaiting]
      refine List.nodup_append.mpr ⟨h.once, List.nodup_singleton _, ?_⟩
      rintro s hs t ht rfl
      exact hnew (List.mem_singleton.mp ht ▸ hs)
  cases a with
  | claim footprint workerId taskId now =>
    obtain ⟨hqueue, hclaims⟩ := after_claim feet r footprint workerId taskId now
    refine ⟨honce, fun e he => ?_, fun e he => ?_⟩
    · rw [hqueue] at he
      exact h.own e he
    · rw [hqueue] at he
      exact (h.blocked e he).mono hclaims
  | release workerId => exact h.release workerId honce
  | dequeue taskId =>
    have hmem : ∀ e ∈ (r.dequeue taskId).queue, e ∈ r.queue := fun e he =>
      (List.mem_filter.mp he).1
    exact ⟨honce, fun e he => h.own e (hmem e he), fun e he => h.blocked e (hmem e he)⟩
  | enqueue taskId now =>
    rcases after_enqueue feet r taskId now with heq | ⟨held, hheld, heq⟩
    · rwa [heq]
    · rw [heq] at honce ⊢
      exact h.enqueue hheld now honce

theorem played (feet : String → List String) (acts : List Act) :
    Orderly feet (played feet acts) := by
  induction acts using List.reverseRecOn with
  | nil => exact ⟨List.nodup_nil, fun _ he => absurd he List.not_mem_nil,
      fun _ he => absurd he List.not_mem_nil⟩
  | append_singleton acts a ih =>
    rw [played_append_singleton]
    exact ih.after a

end Orderly

/-! ## 4. The order of joining

Since when a task waits can be read off the acts.  The queue is not dated by the moments in its
entries, which clocks may have set back. -/

/-- The task waits since the act of that number: it did not wait before, and has waited ever
since. -/
def WaitsSince (feet : String → List String) (acts : List Act) (n : Nat) (taskId : String) : Prop :=
  n < acts.length ∧ taskId ∉ (played feet (acts.take n)).waiting ∧
    ∀ m, n < m → m ≤ acts.length → taskId ∈ (played feet (acts.take m)).waiting

/-- The first of two tasks waits longer than the second. -/
def WaitsLonger (feet : String → List String) (acts : List Act) (s t : String) : Prop :=
  ∃ m n, m < n ∧ WaitsSince feet acts m s ∧ WaitsSince feet acts n t

variable {acts : List Act} {n : Nat} {s t taskId : String}

/-- Who still waits after one more act waits since the same act as before. -/
theorem WaitsSince.snoc (h : WaitsSince feet acts n taskId)
    (hstill : taskId ∈ (played feet (acts ++ [a])).waiting) :
    WaitsSince feet (acts ++ [a]) n taskId := by
  obtain ⟨hn, hbefore, hsince⟩ := h
  rw [WaitsSince, List.length_append, List.length_singleton]
  refine ⟨Nat.lt_succ_of_lt hn, ?_, fun m hm hle => ?_⟩
  · rwa [List.take_append_of_le_length (Nat.le_of_lt hn)]
  · rcases Nat.lt_or_eq_of_le hle with hlt | rfl
    · have hle' : m ≤ acts.length := Nat.le_of_lt_succ hlt
      rw [List.take_append_of_le_length hle']
      exact hsince m hm hle'
    · rwa [List.take_of_length_le (by simp)]

/-- Who joins with the last act waits since then. -/
theorem waitsSince_last (hnew : taskId ∉ (played feet acts).waiting)
    (hnow : taskId ∈ (played feet (acts ++ [a])).waiting) :
    WaitsSince feet (acts ++ [a]) acts.length taskId := by
  rw [WaitsSince, List.length_append, List.length_singleton]
  refine ⟨Nat.lt_succ_self _, ?_, fun m hm hle => ?_⟩
  · rwa [List.take_left]
  · rwa [List.take_of_length_le (by simp; omega)]

/-- **The queue stands in the order of joining**: its tasks wait since acts of their own, each of
them longer than those behind it. -/
theorem waits_in_order (feet : String → List String) (acts : List Act) :
    (∀ t ∈ (played feet acts).waiting, ∃ n, WaitsSince feet acts n t) ∧
      (played feet acts).waiting.Pairwise (WaitsLonger feet acts) := by
  induction acts using List.reverseRecOn with
  | nil => exact ⟨fun t ht => absurd ht List.not_mem_nil, List.Pairwise.nil⟩
  | append_singleton acts a ih =>
    obtain ⟨hsince, hpairs⟩ := ih
    have harrival := arrival feet (played feet acts) a
    rw [← played_append_singleton] at harrival
    rcases harrival with hsub | ⟨taskId, hnew, hwaiting⟩
    · refine ⟨fun t ht => ?_, (hpairs.sublist hsub).imp_of_mem ?_⟩
      · obtain ⟨n, hn⟩ := hsince t (hsub.subset ht)
        exact ⟨n, hn.snoc ht⟩
      · rintro s t hs ht ⟨m, n, hlt, hm, hn⟩
        exact ⟨m, n, hlt, hm.snoc hs, hn.snoc ht⟩
    -- the act is the latest of all, so the task that joins by it waits shortest
    · have hold : ∀ t ∈ (played feet acts).waiting, t ∈ (played feet (acts ++ [a])).waiting :=
        fun t ht => hwaiting ▸ List.mem_append_left _ ht
      have hlast : WaitsSince feet (acts ++ [a]) acts.length taskId :=
        waitsSince_last hnew (hwaiting ▸ List.mem_append_right _ List.mem_cons_self)
      refine ⟨fun t ht => ?_, ?_⟩
      · rw [hwaiting] at ht
        rcases List.mem_append.mp ht with ht | ht
        · obtain ⟨n, hn⟩ := hsince t ht
          exact ⟨n, hn.snoc (hold t ht)⟩
        · rw [List.mem_singleton.mp ht]
          exact ⟨acts.length, hlast⟩
      · rw [hwaiting]
        refine List.pairwise_append.mpr ⟨hpairs.imp_of_mem ?_, List.pairwise_singleton _ _, ?_⟩
        · rintro s t hs ht ⟨m, n, hlt, hm, hn⟩
          exact ⟨m, n, hlt, hm.snoc (hold s hs), hn.snoc (hold t ht)⟩
        · intro s hs t ht
          rw [List.mem_singleton.mp ht]
          obtain ⟨m, hm⟩ := hsince s hs
          exact ⟨m, acts.length, hm.1, hm.snoc (hold s hs), hlast⟩

/-! ## 5. Leaving

The two ways out of the queue. -/

/-- A release keeps a task in the queue exactly if its entry has a fate. -/
theorem mem_waiting_release_iff (honce : r.waiting.Nodup) {e : QueueEntry} (he : e ∈ r.queue)
    (workerId : String) :
    e.taskId ∈ (r.release workerId).1.waiting ↔
      (e.fate (without r.claims workerId) workerId).isSome = true := by
  rw [waiting_release, List.mem_map]
  constructor
  · rintro ⟨e', he', htask⟩
    obtain ⟨hmem, hfate⟩ := List.mem_filter.mp he'
    rwa [← List.inj_on_of_nodup_map honce hmem he htask]
  · exact fun hfate => ⟨e, List.mem_filter.mpr ⟨he, hfate⟩, rfl⟩

/-- **A release hands back the tasks that left the queue with it**, each once and in the order of
the queue. -/
theorem release_freed (honce : r.waiting.Nodup) (workerId : String) :
    (r.release workerId).2 =
        r.waiting.filter (fun taskId => !(r.release workerId).1.isQueued taskId) ∧
      (r.release workerId).2.Nodup := by
  have hfreed : (r.release workerId).2 =
      r.waiting.filter fun taskId => !(r.release workerId).1.isQueued taskId := by
    have hsnd : (r.release workerId).2 = (r.queue.filter fun e =>
        (e.fate (without r.claims workerId) workerId).isNone).map QueueEntry.taskId := by
      rw [release_eq]
    rw [hsnd, waiting, List.filter_map]
    refine congrArg _ (List.filter_congr fun e he => ?_)
    have hiff := mem_waiting_release_iff honce he workerId
    rw [← isQueued_iff] at hiff
    rw [Function.comp_apply, Bool.eq_iff_iff.mpr hiff, Option.not_isSome]
  exact ⟨hfreed, hfreed ▸ honce.filter _⟩

/-- **A task leaves the queue when it is taken out, or by a release after which its footprint is
free.** -/
theorem leaves_only_by (h : Orderly feet r) {e : QueueEntry} (he : e ∈ r.queue)
    (hgone : (r.after feet a).isQueued e.taskId = false) :
    a = .dequeue e.taskId ∨
      ∃ workerId, a = .release workerId ∧
        (r.release workerId).1.findConflict e.footprint = none := by
  have hhere : e.taskId ∈ r.waiting := List.mem_map_of_mem he
  rw [isQueued_eq_false_iff] at hgone
  cases a with
  | claim footprint workerId taskId now =>
    refine absurd ?_ hgone
    rw [waiting, (after_claim feet r footprint workerId taskId now).1]
    exact hhere
  | enqueue taskId now =>
    refine absurd ?_ hgone
    rcases after_enqueue feet r taskId now with heq | ⟨held, -, heq⟩
    · rwa [heq]
    · by_cases hmem : taskId ∈ r.waiting
      · rwa [waiting_after_enqueue hmem]
      · rw [heq, waiting_enqueue_of_not_mem hmem]
        exact List.mem_append_left _ hhere
  | dequeue taskId =>
    left
    by_contra hne
    refine hgone (List.mem_map_of_mem (List.mem_filter.mpr ⟨he, ?_⟩))
    simpa using fun heq : e.taskId = taskId => hne (congrArg Act.dequeue heq.symm)
  | release workerId =>
    refine Or.inr ⟨workerId, rfl, ?_⟩
    -- an entry that waits for somebody else keeps its place, whatever was released
    have hnone := mt (mem_waiting_release_iff h.once he workerId).mpr hgone
    by_cases hmine : e.blocking.workerId = workerId
    · rw [QueueEntry.fate_of_eq hmine, Option.isSome_map, Bool.not_eq_true,
        Option.isSome_eq_false_iff, Option.isNone_iff_eq_none] at hnone
      exact hnone
    · rw [QueueEntry.fate_of_ne hmine] at hnone
      exact absurd rfl hnone

end Registry

/-- **The wait queue strands nobody and keeps its order.**  Let every task have a footprint of its
own, and take any acts on an empty registry.  In the registry `r` they lead to

* no task is in the queue twice;
* every entry has its task's footprint, and waits for a claim that is held and overlaps it, so
  without claims nobody waits;
* the tasks in the queue wait since acts of their own, each of them longer than those behind it,
  and a task that is put in the queue again stays where it is;
* whatever happens next, a task leaves the queue only by being taken out, or by a release after
  which no claim is in the way of its footprint;
* a release hands back just the tasks that leave the queue with it, each once and in its order. -/
theorem wait_queue_orderly (feet : String → List String) (acts : List Registry.Act) :
    let r := Registry.played feet acts
    r.waiting.Nodup ∧
      (∀ e ∈ r.queue, e.footprint = feet e.taskId ∧
        ∃ c ∈ r.claims, c.ref = e.blocking ∧
          ∃ p ∈ e.footprint, Pattern.intersects p c.pattern = true) ∧
      (r.claims = [] → r.queue = []) ∧
      (∀ t ∈ r.waiting, ∃ n, Registry.WaitsSince feet acts n t) ∧
      r.waiting.Pairwise (Registry.WaitsLonger feet acts) ∧
      (∀ t ∈ r.waiting, ∀ now, (r.after feet (.enqueue t now)).waiting = r.waiting) ∧
      (∀ a, ∀ e ∈ r.queue, (r.after feet a).isQueued e.taskId = false →
        a = .dequeue e.taskId ∨
          ∃ workerId, a = .release workerId ∧
            (r.release workerId).1.findConflict e.footprint = none) ∧
      ∀ workerId,
        (r.release workerId).2 =
            r.waiting.filter (fun taskId => !(r.release workerId).1.isQueued taskId) ∧
          (r.release workerId).2.Nodup := by
  have horderly := Registry.Orderly.played feet acts
  obtain ⟨hsince, hpairs⟩ := Registry.waits_in_order feet acts
  refine ⟨horderly.once, fun e he => ⟨horderly.own e he, horderly.blocked e he⟩, ?_, hsince, hpairs,
    fun t ht now => Registry.waiting_after_enqueue ht now,
    fun a e he hgone => Registry.leaves_only_by horderly he hgone,
    Registry.release_freed horderly.once⟩
  intro hnone
  refine List.eq_nil_iff_forall_not_mem.mpr fun e he => ?_
  obtain ⟨c, hc, -⟩ := horderly.blocked e he
  rw [hnone] at hc
  exact absurd hc List.not_mem_nil

/-- Two tasks wait while `w1` holds `src` and `w2` holds `docs`.  `T-3` needs both, joins first,
joins again to no effect, and stays in front when `w1` lets go; both leave when `w2` does. -/
theorem queue_of_two_is_orderly :
    let feet : String → List String := fun taskId =>
      if taskId = "T-3" then ["src/a.rs", "docs"] else ["docs/guide.md"]
    let acts : List Registry.Act :=
      [.claim ["src"] "w1" "T-1" ⟨0, 0, 0⟩, .claim ["docs"] "w2" "T-2" ⟨0, 0, 0⟩,
        .enqueue "T-3" ⟨0, 0, 0⟩, .enqueue "T-4" ⟨0, 0, 0⟩, .enqueue "T-3" ⟨0, 0, 0⟩,
        .release "w1"]
    let r := Registry.played feet acts
    r.waiting = ["T-3", "T-4"] ∧ r.queue.map (fun e => e.blocking.workerId) = ["w2", "w2"] ∧
      r.waiting.Pairwise (Registry.WaitsLonger feet acts) ∧
      (r.release "w2").2 = ["T-3", "T-4"] ∧
      (r.after feet (.release "w2")).isQueued "T-3" = false ∧
      ∃ workerId, Registry.Act.release "w2" = .release workerId ∧
        (r.release workerId).1.findConflict ["src/a.rs", "docs"] = none := by
  intro feet acts r
  obtain ⟨-, -, -, -, hpairs, -, hleaves, hfreed⟩ := wait_queue_orderly feet acts
  have hwaiting : r.waiting = ["T-3", "T-4"] := by decide +kernel
  have hgone : (r.after feet (.release "w2")).isQueued "T-3" = false := by decide +kernel
  have hentry : ∃ e ∈ r.queue, e.taskId = "T-3" ∧ e.footprint = ["src/a.rs", "docs"] := by
    decide +kernel
  obtain ⟨e, he, htask, hfoot⟩ := hentry
  refine ⟨hwaiting, by decide +kernel, hpairs, ?_, hgone, ?_⟩
  · rw [(hfreed "w2").1, hwaiting]
    decide +kernel
  · have hleft := hleaves (.release "w2") e he (htask ▸ hgone)
    rw [hfoot] at hleft
    exact hleft.resolve_left nofun

end Foreman
