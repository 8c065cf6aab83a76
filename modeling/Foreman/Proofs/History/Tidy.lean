/-
# Records and claims belong together

The part of the invariant that is about worker records and claims alone.  A restart abandons
workers before it looks at any task, so it passes through documents whose statuses disagree with
the records; `Tidy` holds of them all the same.

* names of workers are distinct, and each works on a task of the backlog;
* a task has at most one worker that is not closed;
* an active worker holds its task's footprint, any other holds nothing, and there are no other
  claims.

Only three things ever happen to it: records change without any change that matters
(`Tidy.of_profiles`), one open record changes together with the claims of its worker
(`Tidy.change`), and a record is added together with its claims (`Tidy.recruit`).  Every move is
made of these, and keeps it (`Tidy.after`), whatever the statuses are and wherever the orders come
from.

It is weaker than what holds of documents in accord, and that is its use: it holds of a state
that was loaded from a file, whatever backlog lies beside it
(`Foreman.Proofs.History.Recovery`), and in the middle of a restart.
-/
import Foreman.Proofs.History.Frame
import Foreman.Proofs.History.Quiet

namespace Foreman

/-! ## 1. Records and claims

The invariant, and what it does not look at: statuses of tasks, the queue, and everything that
is remembered of attempts. -/

/-- Records and claims belong together. -/
structure Tidy (k : Kanban) (s : State) : Prop where
  distinct : (s.workers.map Worker.id).Nodup
  /-- Every worker works on a task of the backlog. -/
  homed : ∀ w ∈ s.workers, ∃ t ∈ k.tasks, t.id = w.taskId
  /-- A task has at most one worker that is not closed. -/
  oneOpen : ∀ v ∈ s.workers, ∀ w ∈ s.workers, v.taskId = w.taskId →
    v.status.isTerminal = false → w.status.isTerminal = false → v.id = w.id
  /-- An active worker holds the footprint of its task, any other holds nothing. -/
  holds : ∀ w ∈ s.workers, (s.registry.claimsOf w.id).map Claim.ref =
    if w.status.isActive then Registry.refsFor (k.footprintOf w.taskId) w.id w.taskId else []
  /-- Every claim is held by a worker. -/
  owned : ∀ c ∈ s.registry.claims, ∃ w ∈ s.workers, w.id = c.workerId

namespace Tidy

variable {k : Kanban} {s s' : State}

/-- Nobody works. -/
theorem empty (k : Kanban) : Tidy k {} := by
  have hnobody : ∀ w : Worker, w ∉ ({} : State).workers := fun _ => List.not_mem_nil
  exact ⟨List.nodup_nil, fun w hw => absurd hw (hnobody w), fun w hw => absurd hw (hnobody w),
    fun w hw => absurd hw (hnobody w), fun _ hc => absurd hc List.not_mem_nil⟩

/-- Records may change in anything but their profiles. -/
theorem of_profiles (h : Tidy k s)
    (hw : s'.workers.map Worker.profile = s.workers.map Worker.profile)
    (hc : s'.registry.claims = s.registry.claims) : Tidy k s' := by
  have hmem : ∀ w ∈ s'.workers, ∃ v ∈ s.workers, v.profile = w.profile := fun w hw' =>
    List.mem_map.mp (hw ▸ List.mem_map_of_mem hw')
  have hmem' : ∀ v ∈ s.workers, ∃ w ∈ s'.workers, w.profile = v.profile := fun v hv =>
    List.mem_map.mp (hw.symm ▸ List.mem_map_of_mem hv)
  have hids : s'.workers.map Worker.id = s.workers.map Worker.id := by
    have hfst := congrArg (List.map Prod.fst) hw
    rw [List.map_map, List.map_map] at hfst
    exact hfst
  have hclaims : ∀ id, s'.registry.claimsOf id = s.registry.claimsOf id := fun id => by
    rw [Registry.claimsOf, Registry.claimsOf, hc]
  refine ⟨hids ▸ h.distinct, ?_, ?_, ?_, ?_⟩
  · intro w hw'
    obtain ⟨v, hv, hvw⟩ := hmem w hw'
    rw [Worker.profile_eq_iff] at hvw
    rw [← hvw.2.1]
    exact h.homed v hv
  · intro w hw' w' hw'' htask hopen hopen'
    obtain ⟨v, hv, hvw⟩ := hmem w hw'
    obtain ⟨v', hv', hvw'⟩ := hmem w' hw''
    rw [Worker.profile_eq_iff] at hvw hvw'
    rw [← hvw.1, ← hvw'.1]
    refine h.oneOpen v hv v' hv' ?_ (hvw.2.2.2.trans hopen) (hvw'.2.2.2.trans hopen')
    rw [hvw.2.1, hvw'.2.1, htask]
  · intro w hw'
    obtain ⟨v, hv, hvw⟩ := hmem w hw'
    rw [Worker.profile_eq_iff] at hvw
    rw [hclaims, ← hvw.1, ← hvw.2.1, ← hvw.2.2.1]
    exact h.holds v hv
  · intro c hc'
    rw [hc] at hc'
    obtain ⟨v, hv, hvc⟩ := h.owned c hc'
    obtain ⟨w, hw', hwv⟩ := hmem' v hv
    exact ⟨w, hw', (Worker.profile_eq_iff.mp hwv).1.trans hvc⟩

/-- Statuses of tasks do not matter. -/
theorem of_plainTasks (h : Tidy k s) {k' : Kanban} (hk : k'.plainTasks = k.plainTasks) :
    Tidy k' s := by
  refine ⟨h.distinct, fun w hw => ?_, h.oneOpen, fun w hw => ?_, h.owned⟩
  · have hid : w.taskId ∈ k'.tasks.map Task.id := by
      rw [Kanban.map_id_eq_of_plainTasks_eq hk]
      exact List.mem_map.mpr (h.homed w hw)
    exact List.mem_map.mp hid
  · rw [Kanban.footprintOf_congr hk]
    exact h.holds w hw

/-- Active workers of one task are one worker, and no other worker of it is open. -/
theorem inactive_of_ne (h : Tidy k s) {v w : Worker} (hv : v ∈ s.workers) (hw : w ∈ s.workers)
    (hopen : w.status.isTerminal = false) (htask : v.taskId = w.taskId) (hne : v.id ≠ w.id) :
    v.status.isActive = false := by
  cases hact : v.status.isActive with
  | false => rfl
  | true =>
    have hvopen := WorkerStatus.not_isTerminal_of_isActive hact
    exact absurd (h.oneOpen v hv w hw htask hvopen hopen) hne

/-! ## 2. Two changes that keep it

The two ways in which records and claims change together.  In the first, the claims of the
worker afterwards have to be what its new status asks for; all other claims stay. -/

/-- **One open record changes together with the claims of its worker.** -/
theorem change (h : Tidy k s) {w : Worker} (hw : w ∈ s.workers) {f : Worker → Worker}
    (hid : ∀ v, (f v).id = v.id) (htask : ∀ v, (f v).taskId = v.taskId)
    (hopen : w.status.isTerminal = false)
    (hworkers : s'.workers = State.updateFirst w.id f s.workers)
    (hmine : (s'.registry.claimsOf w.id).map Claim.ref =
      if (f w).status.isActive then Registry.refsFor (k.footprintOf w.taskId) w.id w.taskId else [])
    (hothers : ∀ id, id ≠ w.id → s'.registry.claimsOf id = s.registry.claimsOf id) :
    Tidy k s' := by
  -- each record afterwards is one from before, and only that of `w` differs from it
  have hmem : ∀ u ∈ s'.workers, ∃ v ∈ s.workers, u.id = v.id ∧ u.taskId = v.taskId ∧
      (v.id ≠ w.id → u = v) ∧ (v.id = w.id → u = f w) := by
    intro u hu
    rw [hworkers, State.mem_updateFirst h.distinct] at hu
    obtain ⟨v, hv, rfl⟩ := hu
    refine ⟨v, hv, ?_⟩
    split
    · rename_i hvw
      have heq : v = w := List.inj_on_of_nodup_map h.distinct hv hw hvw
      subst heq
      exact ⟨hid v, htask v, fun hne => absurd rfl hne, fun _ => rfl⟩
    · rename_i hvw
      exact ⟨rfl, rfl, fun _ => rfl, fun e => absurd e hvw⟩
  have hids : s'.workers.map Worker.id = s.workers.map Worker.id := by
    rw [hworkers, State.map_updateFirst Worker.id hid]
  refine ⟨hids ▸ h.distinct, ?_, ?_, ?_, ?_⟩
  · intro u hu
    obtain ⟨v, hv, -, hut, -⟩ := hmem u hu
    rw [hut]
    exact h.homed v hv
  · -- a record that is open after the change was open before it
    have hwas : ∀ u ∈ s'.workers, ∀ v ∈ s.workers, (v.id ≠ w.id → u = v) →
        u.status.isTerminal = false → v.status.isTerminal = false := by
      intro u _ v hv hsame huopen
      by_cases hvw : v.id = w.id
      · rw [List.inj_on_of_nodup_map h.distinct hv hw hvw]
        exact hopen
      · exact hsame hvw ▸ huopen
    intro u hu u' hu' htasks huopen huopen'
    obtain ⟨v, hv, huid, hut, hsame, -⟩ := hmem u hu
    obtain ⟨v', hv', huid', hut', hsame', -⟩ := hmem u' hu'
    rw [huid, huid']
    refine h.oneOpen v hv v' hv' ?_ (hwas u hu v hv hsame huopen)
      (hwas u' hu' v' hv' hsame' huopen')
    rw [← hut, ← hut', htasks]
  · intro u hu
    obtain ⟨v, hv, huid, hut, hsame, hchanged⟩ := hmem u hu
    by_cases hvw : v.id = w.id
    · have heq : v = w := List.inj_on_of_nodup_map h.distinct hv hw hvw
      rw [huid, hut, heq, hchanged hvw]
      exact hmine
    · rw [hsame hvw, hothers v.id hvw]
      exact h.holds v hv
  · intro c hc
    -- no claim lost its record, as the names of the records are the same
    have hcid : c.workerId ∈ s'.workers.map Worker.id := by
      rw [hids]
      by_cases hcw : c.workerId = w.id
      · exact hcw ▸ List.mem_map_of_mem hw
      · have hc' : c ∈ s.registry.claimsOf c.workerId := by
          rw [← hothers c.workerId hcw]
          exact Registry.mem_claimsOf.mpr ⟨hc, rfl⟩
        exact List.mem_map.mpr (h.owned c (Registry.mem_claimsOf.mp hc').1)
    exact List.mem_map.mp hcid

/-- Which tasks have an active worker after one open record has changed. -/
theorem hasActiveWorker_change (h : Tidy k s) {w : Worker} (hw : w ∈ s.workers)
    {f : Worker → Worker} (htask : ∀ v, (f v).taskId = v.taskId)
    (hopen : w.status.isTerminal = false)
    (hworkers : s'.workers = State.updateFirst w.id f s.workers) (taskId : String) :
    s'.hasActiveWorker taskId =
      if taskId = w.taskId then (f w).status.isActive else s.hasActiveWorker taskId := by
  have hfw : f w ∈ s'.workers := by
    rw [hworkers, State.mem_updateFirst h.distinct]
    exact ⟨w, hw, (if_pos rfl).symm⟩
  rw [Bool.eq_iff_iff, State.hasActiveWorker_iff]
  split
  · rename_i heq
    constructor
    · rintro ⟨u, hu, hut, huact⟩
      rw [hworkers, State.mem_updateFirst h.distinct] at hu
      obtain ⟨v, hv, rfl⟩ := hu
      by_cases hvw : v.id = w.id
      · rw [List.inj_on_of_nodup_map h.distinct hv hw hvw, if_pos rfl] at huact
        exact huact
      -- another record of the task cannot be active beside one that is open
      · rw [if_neg hvw] at hut huact
        rw [h.inactive_of_ne hv hw hopen (hut.trans heq) hvw] at huact
        exact absurd huact (by simp)
    · exact fun hact => ⟨f w, hfw, (htask w).trans heq.symm, hact⟩
  · rename_i hne
    rw [State.hasActiveWorker_iff]
    constructor
    · rintro ⟨u, hu, hut, huact⟩
      rw [hworkers, State.mem_updateFirst h.distinct] at hu
      obtain ⟨v, hv, rfl⟩ := hu
      by_cases hvw : v.id = w.id
      · rw [List.inj_on_of_nodup_map h.distinct hv hw hvw, if_pos rfl, htask] at hut
        exact absurd hut.symm hne
      · rw [if_neg hvw] at hut huact
        exact ⟨v, hv, hut, huact⟩
    · rintro ⟨v, hv, hvt, hvact⟩
      have hvw : v.id ≠ w.id := fun e =>
        hne (hvt ▸ congrArg Worker.taskId (List.inj_on_of_nodup_map h.distinct hv hw e))
      refine ⟨v, ?_, hvt, hvact⟩
      rw [hworkers, State.mem_updateFirst h.distinct]
      exact ⟨v, hv, (if_neg hvw).symm⟩

/-- **A record is added at the end together with its claims.** -/
theorem recruit (h : Tidy k s) {w : Worker} (hfresh : ∀ v ∈ s.workers, v.id ≠ w.id)
    (hhome : ∃ t ∈ k.tasks, t.id = w.taskId)
    (hnone : ∀ v ∈ s.workers, v.taskId = w.taskId → v.status.isTerminal = true)
    (hworkers : s'.workers = s.workers ++ [w])
    (hmine : (s'.registry.claimsOf w.id).map Claim.ref =
      if w.status.isActive then Registry.refsFor (k.footprintOf w.taskId) w.id w.taskId else [])
    (hothers : ∀ id, id ≠ w.id → s'.registry.claimsOf id = s.registry.claimsOf id) :
    Tidy k s' := by
  -- each record is one from before or the new one, and each clause is shown of both
  have hmem : ∀ u, u ∈ s'.workers ↔ u ∈ s.workers ∨ u = w := by
    intro u
    rw [hworkers, List.mem_append, List.mem_singleton]
  refine ⟨?_, ?_, ?_, ?_, ?_⟩
  · rw [hworkers, List.map_append, List.nodup_append]
    refine ⟨h.distinct, by simp, ?_⟩
    intro a ha b hb
    obtain ⟨v, hv, rfl⟩ := List.mem_map.mp ha
    rw [List.mem_singleton.mp hb]
    exact hfresh v hv
  · intro u hu
    rcases (hmem u).mp hu with hu | rfl
    · exact h.homed u hu
    · exact hhome
  · intro u hu u' hu' htasks hopen hopen'
    rcases (hmem u).mp hu with hu | rfl <;> rcases (hmem u').mp hu' with hu' | rfl
    · exact h.oneOpen u hu u' hu' htasks hopen hopen'
    · rw [hnone u hu htasks] at hopen
      exact absurd hopen (by simp)
    · rw [hnone u' hu' htasks.symm] at hopen'
      exact absurd hopen' (by simp)
    · rfl
  · intro u hu
    rcases (hmem u).mp hu with hu | rfl
    · rw [hothers u.id (hfresh u hu)]
      exact h.holds u hu
    · exact hmine
  · intro c hc
    by_cases hcw : c.workerId = w.id
    · exact ⟨w, (hmem w).mpr (Or.inr rfl), hcw.symm⟩
    · have hc' : c ∈ s.registry.claimsOf c.workerId := by
        rw [← hothers c.workerId hcw]
        exact Registry.mem_claimsOf.mpr ⟨hc, rfl⟩
      obtain ⟨v, hv, hvc⟩ := h.owned c (Registry.mem_claimsOf.mp hc').1
      exact ⟨v, (hmem v).mpr (Or.inl hv), hvc⟩

/-! ## 3. Workers that are given up

`abandonAll` gives workers up one by one, and each of them is still open when its turn comes,
since giving up one leaves the others alone. -/

/-- A worker that is given up is closed, and its claims are released. -/
theorem abandon (h : Tidy k s) {w : Worker} (hw : w ∈ s.workers)
    (hopen : w.status.isTerminal = false) : Tidy k (s.abandon w.id) := by
  refine h.change hw (f := State.abandoned) (fun _ => rfl) (fun _ => rfl) hopen rfl ?_ ?_
  · rw [State.abandon_registry, Registry.claimsOf_release, if_pos rfl]
    rfl
  · intro id hid
    rw [State.abandon_registry, Registry.claimsOf_release, if_neg hid]

/-- What one abandonment does to the other workers: nothing. -/
theorem mem_abandon (h : Tidy k s) {v w : Worker} (hv : v ∈ s.workers) (hne : v.id ≠ w.id) :
    v ∈ (s.abandon w.id).workers := by
  rw [State.abandon_workers, State.mem_updateFirst h.distinct]
  exact ⟨v, hv, (if_neg hne).symm⟩

/-- Its task has no active worker afterwards, and all others are as before. -/
theorem hasActiveWorker_abandon (h : Tidy k s) {w : Worker} (hw : w ∈ s.workers)
    (hopen : w.status.isTerminal = false) (taskId : String) :
    (s.abandon w.id).hasActiveWorker taskId =
      if taskId = w.taskId then false else s.hasActiveWorker taskId :=
  h.hasActiveWorker_change hw (f := State.abandoned) (fun _ => rfl) hopen rfl taskId

/-- Open workers given up one after the other: afterwards the tasks of none of them has an active
worker, and all others have one if they had. -/
theorem abandonAll : ∀ {ws : List Worker} {s : State}, Tidy k s → (ws.map Worker.id).Nodup →
    (∀ w ∈ ws, w ∈ s.workers ∧ w.status.isTerminal = false) →
      Tidy k (s.abandonAll ws) ∧ ∀ taskId, (s.abandonAll ws).hasActiveWorker taskId = true ↔
        s.hasActiveWorker taskId = true ∧ ∀ w ∈ ws, w.taskId ≠ taskId
  | [], s, h, _, _ => ⟨h, fun taskId => by simp⟩
  | w :: ws, s, h, hnd, hws => by
    rw [List.map_cons, List.nodup_cons] at hnd
    rw [List.forall_mem_cons] at hws
    obtain ⟨⟨hw, hopen⟩, hrest⟩ := hws
    have hstill : ∀ v ∈ ws, v ∈ (s.abandon w.id).workers ∧ v.status.isTerminal = false := by
      intro v hv
      have hne : v.id ≠ w.id := fun e => hnd.1 (e ▸ List.mem_map_of_mem hv)
      exact ⟨h.mem_abandon (hrest v hv).1 hne, (hrest v hv).2⟩
    obtain ⟨htidy, hact⟩ := abandonAll (h.abandon hw hopen) hnd.2 hstill
    refine ⟨htidy, fun taskId => ?_⟩
    rw [State.abandonAll_cons, hact, h.hasActiveWorker_abandon hw hopen, List.forall_mem_cons]
    split
    · rename_i heq
      simp [heq]
    · rename_i hne
      simp [Ne.symm hne]

/-! ## 4. What a move leaves

Each lemma also says which tasks have an active worker afterwards, which is all that statuses are
compared with. -/

/-- A dispatch that starts its task. -/
theorem launched (h : Tidy k s) {o : Order} {task : Task} (hfind : k.find? o.taskId = some task)
    (hidle : s.hasActiveWorker task.id = false)
    (hfresh : s.retryWorker? task.id = none → ∀ v ∈ s.workers, v.id ≠ o.workerId)
    (backend worktreeDir : String) (now : Instant) :
    Tidy k (s.launched task o backend worktreeDir now).2 ∧
      ∀ id, (s.launched task o backend worktreeDir now).2.hasActiveWorker id =
        if id = task.id then true else s.hasActiveWorker id := by
  have htask := (Kanban.find?_mem hfind).1
  have hfoot : k.footprintOf task.id = task.footprint := by
    rw [(Kanban.find?_mem hfind).2]
    exact Kanban.footprintOf_eq hfind
  -- the claims of every worker but the one that starts are as before
  have hothers : ∀ id, id ≠ s.workerFor task.id o →
      (s.launched task o backend worktreeDir now).2.registry.claimsOf id =
        s.registry.claimsOf id := by
    intro id hid
    rw [State.launched_registry]
    refine (Registry.claimsOf_append s.registry.claims s.registry.queue _ _ _ id now).trans ?_
    rw [if_neg hid, List.append_nil]
  have hmine : s.registry.claimsOf (s.workerFor task.id o) = [] →
      ((s.launched task o backend worktreeDir now).2.registry.claimsOf
        (s.workerFor task.id o)).map Claim.ref =
        Registry.refsFor task.footprint (s.workerFor task.id o) task.id := by
    intro hnil
    rw [State.launched_registry]
    refine (congrArg (List.map Claim.ref) (Registry.claimsOf_append s.registry.claims
      s.registry.queue _ _ _ _ now)).trans ?_
    rw [if_pos rfl, List.map_append, Registry.map_ref_claimsFor]
    exact congrArg (fun l => List.map Claim.ref l ++ _) hnil
  cases hretry : s.retryWorker? task.id with
  | some w =>
    obtain ⟨hw, hwtask, hwstatus⟩ := State.retryWorker?_mem hretry
    have hfor : s.workerFor task.id o = w.id := by simp only [State.workerFor, hretry]
    have hworkers := State.launched_workers_of_some hretry o backend worktreeDir now
    have hopen : w.status.isTerminal = false := by rw [hwstatus]; rfl
    have hnil : s.registry.claimsOf w.id = [] := by
      have hholds := h.holds w hw
      rw [hwstatus] at hholds
      exact List.map_eq_nil_iff.mp hholds
    rw [hfor] at hothers hmine
    refine ⟨h.change hw (f := fun v => State.wake v now) (fun _ => rfl) (fun _ => rfl)
      hopen hworkers ?_ hothers, fun id => ?_⟩
    · rw [hmine hnil, hwtask, hfoot]
      rfl
    · rw [h.hasActiveWorker_change hw (f := fun v => State.wake v now) (fun _ => rfl)
        hopen hworkers, hwtask]
      rfl
  | none =>
    have hfor : s.workerFor task.id o = o.workerId := by simp only [State.workerFor, hretry]
    have hworkers := State.launched_workers_of_none hretry o backend worktreeDir now
    have hnil : s.registry.claimsOf o.workerId = [] := by
      refine List.eq_nil_iff_forall_not_mem.mpr fun c hc => ?_
      obtain ⟨hc, hcid⟩ := Registry.mem_claimsOf.mp hc
      obtain ⟨v, hv, hvid⟩ := h.owned c hc
      exact hfresh hretry v hv (hvid.trans hcid)
    have hnone : ∀ v ∈ s.workers, v.taskId = task.id → v.status.isTerminal = true :=
      fun v hv hvt => State.closed_of_idle hidle hretry hv hvt
    rw [hfor] at hothers hmine
    refine ⟨h.recruit (w := State.recruit o.workerId task.id backend worktreeDir now)
      (hfresh hretry) ⟨task, htask, rfl⟩ hnone hworkers ?_ hothers, fun id => ?_⟩
    · exact (hmine hnil).trans (by rw [← hfoot]; rfl)
    · rw [State.hasActiveWorker, hworkers, List.any_append]
      by_cases hid : id = task.id
      · subst hid
        simp [State.recruit, WorkerStatus.isActive]
      · simp [State.recruit, hid, Ne.symm hid, State.hasActiveWorker]

/-- An outcome of an open worker. -/
theorem settled (h : Tidy k s) {workerId : String} {w : Worker}
    (hfind : s.worker? workerId = some w) (hopen : w.status.isTerminal = false)
    (outcome : Outcome) (retry : Config.Retry) (now : Instant) :
    Tidy k (s.settled workerId w outcome retry now) ∧
      ∀ id, (s.settled workerId w outcome retry now).hasActiveWorker id =
        if id = w.taskId then false else s.hasActiveWorker id := by
  obtain ⟨hw, rfl⟩ := State.worker?_mem hfind
  have hinactive : (State.ended (s.verdictOn w outcome retry now).2 (State.sessionAfter w outcome)
      w).status.isActive = false := State.verdict_worker_inactive outcome _ retry
  refine ⟨h.change hw
    (f := State.ended (s.verdictOn w outcome retry now).2 (State.sessionAfter w outcome))
    (fun _ => rfl) (fun _ => rfl) hopen rfl ?_ fun id hid => ?_, fun id => ?_⟩
  · rw [hinactive, State.settled, Registry.claimsOf_release, if_pos rfl]
    rfl
  · rw [State.settled, Registry.claimsOf_release, if_neg hid]
  · rw [h.hasActiveWorker_change hw
      (f := State.ended (s.verdictOn w outcome retry now).2 (State.sessionAfter w outcome))
      (fun _ => rfl) hopen rfl, hinactive]

/-- A reset that is not refused. -/
theorem forgotten (h : Tidy k s) (taskId : String) :
    Tidy k (s.forget taskId) ∧
      ∀ id, (s.forget taskId).hasActiveWorker id =
        if id = taskId then false else s.hasActiveWorker id := by
  have hsub : (s.openWorkers taskId).Sublist s.workers := List.filter_sublist
  have hmem : ∀ w, w ∈ s.openWorkers taskId ↔
      w ∈ s.workers ∧ w.taskId = taskId ∧ w.status.isTerminal = false := by
    intro w
    simp only [State.openWorkers, List.mem_filter, Bool.and_eq_true, decide_eq_true_eq,
      Bool.not_eq_true']
  have hstart : Tidy k { s with
      resume := s.resume.erase taskId
      registry := s.registry.dequeue taskId } := h.of_profiles rfl rfl
  obtain ⟨htidy, hact⟩ := hstart.abandonAll (h.distinct.sublist (hsub.map Worker.id))
    fun w hw => ⟨((hmem w).mp hw).1, ((hmem w).mp hw).2.2⟩
  have hsame : ∀ id, State.hasActiveWorker { s with
      resume := s.resume.erase taskId
      registry := s.registry.dequeue taskId } id = s.hasActiveWorker id := fun _ => rfl
  refine ⟨htidy, fun id => ?_⟩
  rw [State.forget_eq, Bool.eq_iff_iff, hact, hsame]
  split
  · rename_i hid
    subst hid
    -- whoever was active for the task is among those given up
    refine ⟨fun ⟨hactive, hnone⟩ => ?_, fun hfalse => by cases hfalse⟩
    obtain ⟨w, hw, hwt, hwact⟩ := State.hasActiveWorker_iff.mp hactive
    exact absurd hwt
      (hnone w ((hmem w).mpr ⟨hw, hwt, WorkerStatus.not_isTerminal_of_isActive hwact⟩))
  · rename_i hid
    simp only [and_iff_left_iff_imp]
    exact fun _ w hw e => hid (e.symm.trans ((hmem w).mp hw).2.1)

/-- A restart. -/
theorem restored (h : Tidy k s) (alive : Nat → Bool) :
    Tidy k (s.abandonAll (s.workers.filter (State.isLost alive))) ∧
      ∀ id, (s.abandonAll (s.workers.filter (State.isLost alive))).hasActiveWorker id = true ↔
        s.hasActiveWorker id = true ∧ ∀ w ∈ s.workers.filter (State.isLost alive),
          w.taskId ≠ id := by
  have hsub : (s.workers.filter (State.isLost alive)).Sublist s.workers := List.filter_sublist
  refine h.abandonAll (h.distinct.sublist (hsub.map Worker.id)) fun w hw => ?_
  obtain ⟨hw, hlost⟩ := List.mem_filter.mp hw
  rw [State.isLost, Bool.and_eq_true] at hlost
  exact ⟨hw, WorkerStatus.not_isTerminal_of_isActive hlost.1⟩

end Tidy

/-- **Every move keeps records and claims together**, as long as outcomes are those of active
workers and records that are added have new names.  It does not matter what the statuses of the
tasks are, or where the orders come from. -/
theorem Tidy.after {b : Books} (h : Tidy b.kanban b.state) {m : Move} (hattended : b.Attended m)
    (hfresh : b.Fresh m) : Tidy (b.after m).kanban (b.after m).state := by
  refine Tidy.of_plainTasks ?_ (b.plainTasks_after m)
  -- a move that touches neither claims nor what records are for keeps it as it is
  have hquiet : m.Quiet → Tidy b.kanban (b.after m).state := fun hm =>
    h.of_profiles (b.unmoved_after hm).profiles (b.unmoved_after hm).claims
  cases m with
  | beginPass | defer | markRunning | recordSession => exact hquiet trivial
  | dispatch o backend worktreeDir now =>
    have hend := State.dispatch_end b.state b.kanban o backend worktreeDir now
    simp only [Books.Fresh, Books.after] at hfresh ⊢
    generalize b.state.dispatch b.kanban o backend worktreeDir now = r at hend hfresh
    cases hend with
    | unknown | busy => exact h
    | blocked task held => exact h.of_profiles rfl (Registry.enqueue_claims ..)
    | started task k' hfind hidle =>
      exact (h.launched hfind hidle (State.ne_of_launched_fresh hfresh) backend worktreeDir now).1
  | settle workerId outcome retry now =>
    obtain ⟨w, hw, rfl, hactive⟩ := hattended
    have hfind : b.state.worker? w.id = some w :=
      (State.worker?_eq_some_iff h.distinct).mpr ⟨hw, rfl⟩
    have hend := State.settle_end b.state b.kanban w.id outcome retry now
    simp only [Books.after]
    generalize b.state.settle b.kanban w.id outcome retry now = r at hend
    cases hend with
    | unknown => exact h
    | homeless v reason hv | settled v k' hv =>
      cases hv.symm.trans hfind
      exact (h.settled hv (WorkerStatus.not_isTerminal_of_isActive hactive) outcome retry now).1
  | reset taskId =>
    cases hreset : b.state.reset b.kanban taskId with
    | error => simpa only [Books.after, hreset] using h
    | ok r =>
      obtain ⟨t, -, -, -, hforget⟩ := State.reset_eq_ok hreset
      simp only [Books.after, hreset, hforget]
      exact (h.forgotten taskId).1
  | restart alive => exact (h.restored alive).1

end Foreman
