/-
# Tasks, workers and claims stay in step

Four stores hold what is going on: the statuses of the backlog, the worker records, the claims
and the queue.  Every move touches two or three of them.  This file proves that they never
disagree:  a task is in progress exactly while it has an active worker, and the claims are
exactly the footprints of the tasks in progress.

The invariant is `Accord`.  It has three parts, and two of them need the third: that identifiers
are distinct, so that a status set for one task is set for no other; that records and claims
belong together (`Tidy`); and that statuses agree with the records.  A restart asks for less
than it gives (`Accord.restarted`): tasks with an active worker have to be in progress, and
those without one are made pending.  That is why a first start, on any backlog, begins a
history.

* `Accord.started`, `Accord.settled`, `Accord.forgotten`, `Accord.restarted`: one lemma for each
  move that changes a status, and `Accord.unmoved` for all others.
* `Accord.after`: every allowed move keeps the accord.
* `tasks_workers_claims_in_step`: so reachable documents are in step, and the outcome of an
  active worker is never refused.

The moves are not opened here.  What a dispatch and an outcome can do is read off their lemmas
in `Foreman.Proofs.Coordinator`, so a change of their definitions is met there.
-/
import Foreman.Proofs.History.Tidy

namespace Foreman

/-! ## 1. Statuses

The part of the accord that is about statuses, and the one step by which a move changes it: a
single task gets a status, and becomes active or ceases to be at the same time. -/

/-- The two documents agree. -/
structure Accord (b : Books) : Prop where
  distinct : b.kanban.HasDistinctIds
  tidy : Tidy b.kanban b.state
  /-- A task is in progress exactly while it has an active worker. -/
  status : ∀ t ∈ b.kanban.tasks,
    t.status = .inProgress ↔ b.state.hasActiveWorker t.id = true

/-- One task gets a status, and has an active worker exactly if that is in progress. -/
theorem status_restatus {k : Kanban} {s s' : State} {taskId : String} {status : TaskStatus}
    (h : ∀ t ∈ k.tasks, t.status = .inProgress ↔ s.hasActiveWorker t.id = true)
    (hact : ∀ id, s'.hasActiveWorker id =
      if id = taskId then decide (status = .inProgress) else s.hasActiveWorker id) :
    ∀ t ∈ k.tasks.map (Kanban.restatus taskId status),
      t.status = .inProgress ↔ s'.hasActiveWorker t.id = true := by
  intro t ht
  obtain ⟨u, hu, rfl⟩ := List.mem_map.mp ht
  rw [Kanban.restatus_id, hact]
  by_cases hid : u.id = taskId
  · rw [Kanban.restatus, if_pos hid, if_pos hid, decide_eq_true_eq]
  · rw [Kanban.restatus, if_neg hid, if_neg hid]
    exact h u hu

namespace Accord

variable {b : Books}

/-- Nothing that matters has changed. -/
theorem of_profiles (h : Accord b) {s' : State}
    (hw : s'.workers.map Worker.profile = b.state.workers.map Worker.profile)
    (hc : s'.registry.claims = b.state.registry.claims) : Accord { b with state := s' } := by
  refine ⟨h.distinct, h.tidy.of_profiles hw hc, fun t ht => ?_⟩
  have hact : s'.hasActiveWorker t.id = b.state.hasActiveWorker t.id := by
    refine State.hasActiveWorker_eq_of_profiles ?_
    rw [State.map_profile_workersOf, State.map_profile_workersOf, hw]
  rw [hact]
  exact h.status t ht

/-- A move that changes nothing of weight. -/
theorem unmoved (h : Accord b) {c : Books} (hc : Unmoved b c) : Accord c := by
  have hsame : c = { b with state := c.state } := by rw [← hc.kanban]
  rw [hsame]
  exact h.of_profiles hc.profiles hc.claims

/-! ## 2. One lemma a move

What a move leaves behind is taken from the lemma on the call it stands for; here it is shown to
be in accord. -/

/-- A dispatch that starts its task. -/
theorem started (h : Accord b) {o : Order} {backend worktreeDir : String} {now : Instant}
    {task : Task} {k' : Kanban} (hfind : b.kanban.find? o.taskId = some task)
    (hidle : b.state.hasActiveWorker task.id = false)
    (hset : b.kanban.setStatus task.id .inProgress = .ok k')
    (hfresh : b.state.retryWorker? task.id = none → ∀ v ∈ b.state.workers, v.id ≠ o.workerId) :
    Accord ⟨(b.state.launched task o backend worktreeDir now).2, k'⟩ := by
  have htask := (Kanban.find?_mem hfind).1
  rw [Kanban.setStatus_eq_ok h.distinct ⟨task, htask, rfl⟩] at hset
  cases hset
  obtain ⟨htidy, hact⟩ := h.tidy.launched hfind hidle hfresh backend worktreeDir now
  refine ⟨h.distinct.of_plainTasks_eq (Kanban.plainTasks_restatus _ _ _),
    htidy.of_plainTasks (Kanban.plainTasks_restatus _ _ _), ?_⟩
  exact status_restatus h.status fun id => by rw [hact]; rfl

/-- An outcome that is settled for an open worker. -/
theorem settled (h : Accord b) {workerId : String} {w : Worker} {outcome : Outcome}
    {retry : Config.Retry} {now : Instant} {k' : Kanban}
    (hfind : b.state.worker? workerId = some w) (hopen : w.status.isTerminal = false)
    (hset : b.kanban.setStatus w.taskId (b.state.verdictOn w outcome retry now).1 = .ok k') :
    Accord ⟨b.state.settled workerId w outcome retry now, k'⟩ := by
  obtain ⟨t, ht, htw⟩ := h.tidy.homed w (State.worker?_mem hfind).1
  rw [Kanban.setStatus_eq_ok h.distinct ⟨t, ht, htw⟩] at hset
  cases hset
  obtain ⟨htidy, hact⟩ := h.tidy.settled hfind hopen outcome retry now
  have hne : decide ((b.state.verdictOn w outcome retry now).1 = .inProgress) = false :=
    decide_eq_false (State.verdict_task_ne outcome _ retry)
  refine ⟨h.distinct.of_plainTasks_eq (Kanban.plainTasks_restatus _ _ _),
    htidy.of_plainTasks (Kanban.plainTasks_restatus _ _ _), ?_⟩
  exact status_restatus h.status fun id => by rw [hact, hne]

/-- A reset that is not refused. -/
theorem forgotten (h : Accord b) {taskId : String} {s' : State} {k' : Kanban}
    (hreset : b.state.reset b.kanban taskId = .ok (s', k')) : Accord ⟨s', k'⟩ := by
  obtain ⟨t, hfind, hstatus, hset, rfl⟩ := State.reset_eq_ok hreset
  obtain ⟨ht, htid⟩ := Kanban.find?_mem hfind
  rw [Kanban.setStatus_eq_ok h.distinct ⟨t, ht, htid⟩] at hset
  cases hset
  obtain ⟨htidy, hact⟩ := h.tidy.forgotten taskId
  refine ⟨h.distinct.of_plainTasks_eq (Kanban.plainTasks_restatus _ _ _),
    htidy.of_plainTasks (Kanban.plainTasks_restatus _ _ _), ?_⟩
  exact status_restatus h.status fun id => by rw [hact]; rfl

/-- A restart on records and claims that belong together.  Of the statuses it asks only that the
tasks with an active worker are in progress: it makes the converse true. -/
theorem restarted {k : Kanban} {s : State} (hids : k.HasDistinctIds) (h : Tidy k s)
    (hstatus : ∀ t ∈ k.tasks, s.hasActiveWorker t.id = true → t.status = .inProgress)
    (alive : Nat → Bool) : Accord (Books.after ⟨s, k⟩ (.restart alive)) := by
  obtain ⟨htidy, hact⟩ := h.restored alive
  have hplain := Books.plainTasks_after ⟨s, k⟩ (.restart alive)
  refine ⟨hids.of_plainTasks_eq hplain, htidy.of_plainTasks hplain, ?_⟩
  intro t ht
  simp only [Books.after, State.restoreLiveness_tasks] at ht
  obtain ⟨u, hu, rfl⟩ := List.mem_map.mp ht
  rw [State.returned_inProgress_iff, State.returned_id]
  exact ⟨fun hboth => hboth.2, fun hone => ⟨hstatus u hu ((hact u.id).mp hone).1, hone⟩⟩

/-! ## 3. All moves, and all histories

The invariant is kept by each move that is allowed, and by induction by a whole history of them. -/

/-- **Every allowed move keeps the accord.** -/
theorem after (h : Accord b) {m : Move} (hm : b.Allowed m) : Accord (b.after m) := by
  cases m with
  | beginPass | defer | markRunning | recordSession => exact h.unmoved (b.unmoved_after trivial)
  | dispatch o backend worktreeDir now =>
    have hfresh := hm.fresh
    have hend := State.dispatch_end b.state b.kanban o backend worktreeDir now
    simp only [Books.Fresh, Books.after] at hfresh ⊢
    generalize b.state.dispatch b.kanban o backend worktreeDir now = r at hend hfresh
    cases hend with
    | unknown | busy => exact h
    | blocked task held => exact h.of_profiles rfl (Registry.enqueue_claims ..)
    | started task k' hfind hidle hfree hset =>
      exact h.started hfind hidle hset (State.ne_of_launched_fresh hfresh)
  | settle workerId outcome retry now =>
    obtain ⟨w, hw, rfl, hactive⟩ := hm.attended
    have hfind : b.state.worker? w.id = some w :=
      (State.worker?_eq_some_iff h.tidy.distinct).mpr ⟨hw, rfl⟩
    have htask := h.tidy.homed w hw
    simp only [Books.after, State.settle_eq hfind h.distinct htask]
    exact h.settled hfind (WorkerStatus.not_isTerminal_of_isActive hactive)
      (Kanban.setStatus_eq_ok h.distinct htask _)
  | reset taskId =>
    cases hreset : b.state.reset b.kanban taskId with
    | error => simpa only [Books.after, hreset] using h
    | ok r => simpa only [Books.after, hreset] using h.forgotten hreset
  | restart alive => exact restarted h.distinct h.tidy (fun t ht => (h.status t ht).mpr) alive

/-- The accord holds at a first start: nobody works yet. -/
theorem opened {k : Kanban} (hids : k.HasDistinctIds) (alive : Nat → Bool) :
    Accord (Books.opened k alive) := by
  refine restarted hids (Tidy.empty k) (fun t _ hact => ?_) alive
  obtain ⟨w, hw, -⟩ := State.hasActiveWorker_iff.mp hact
  exact absurd hw List.not_mem_nil

end Accord

/-- Reachable documents are in accord. -/
theorem Reachable.accord {k : Kanban} {b : Books} (h : Reachable k b) (hids : k.HasDistinctIds) :
    Accord b :=
  h.invariant (Accord.opened hids) fun _ _ hacc hm => hacc.after hm

/-! ## 4. What the accord says

The invariant put into words that do not speak of it. -/

theorem flatMap_ite_nil {α β : Type} (p : α → Bool) (f : α → List β) :
    ∀ xs : List α, (xs.flatMap fun x => if p x then f x else []) = (xs.filter p).flatMap f
  | [] => rfl
  | x :: xs => by
    rw [List.flatMap_cons, flatMap_ite_nil p f xs, List.filter_cons]
    split <;> simp

namespace Accord

variable {b : Books}

/-- The claims are those of the active workers, up to order. -/
theorem claims_perm (h : Accord b) :
    (b.state.registry.claims.map Claim.ref).Perm
      ((b.state.workers.filter fun w => w.status.isActive).flatMap fun w =>
        Registry.refsFor (b.kanban.footprintOf w.taskId) w.id w.taskId) := by
  have hgather := perm_flatMap_filter_key Claim.workerId h.tidy.distinct
    fun c hc => List.mem_map.mpr (h.tidy.owned c hc)
  have hholds : (b.state.workers.flatMap fun w => (b.state.registry.claimsOf w.id).map Claim.ref) =
      b.state.workers.flatMap fun w => if w.status.isActive then
        Registry.refsFor (b.kanban.footprintOf w.taskId) w.id w.taskId else [] :=
    List.flatMap_congr h.tidy.holds
  rw [flatMap_ite_nil] at hholds
  rw [← hholds, ← List.map_flatMap]
  exact hgather.map Claim.ref

/-- A task has at most one worker that is not closed. -/
theorem openWorkers_length_le (h : Accord b) (taskId : String) :
    (b.state.openWorkers taskId).length ≤ 1 := by
  have hmem : ∀ w ∈ b.state.openWorkers taskId,
      w ∈ b.state.workers ∧ w.taskId = taskId ∧ w.status.isTerminal = false := by
    intro w hw
    simpa [State.openWorkers] using hw
  have hnd : ((b.state.openWorkers taskId).map Worker.id).Nodup :=
    h.tidy.distinct.sublist (List.filter_sublist.map Worker.id)
  rcases hws : b.state.openWorkers taskId with _ | ⟨v, _ | ⟨w, ws⟩⟩
  · exact Nat.zero_le 1
  · exact Nat.le_refl 1
  · rw [hws] at hnd hmem
    have hv := hmem v (by simp)
    have hw := hmem w (by simp)
    have hid := h.tidy.oneOpen v hv.1 w hw.1 (hv.2.1.trans hw.2.1.symm) hv.2.2 hw.2.2
    simp [hid] at hnd

/-- The outcome of an active worker is settled. -/
theorem settle_ok (h : Accord b) {w : Worker} (hw : w ∈ b.state.workers) (outcome : Outcome)
    (retry : Config.Retry) (now : Instant) :
    ∃ effect, (b.state.settle b.kanban w.id outcome retry now).1 = .ok effect := by
  have hfind : b.state.worker? w.id = some w :=
    (State.worker?_eq_some_iff h.tidy.distinct).mpr ⟨hw, rfl⟩
  rw [State.settle_eq hfind h.distinct (h.tidy.homed w hw)]
  exact ⟨_, rfl⟩

end Accord

/-- Tasks, workers and claims are in step. -/
structure Books.InStep (b : Books) : Prop where
  /-- A task is in progress exactly while it has an active worker. -/
  inProgress_iff : ∀ t ∈ b.kanban.tasks, t.status = .inProgress ↔
    ∃ w ∈ b.state.workers, w.taskId = t.id ∧ w.status.isActive = true
  /-- No task has more than one worker that is not closed. -/
  oneOpen : ∀ taskId, (b.state.openWorkers taskId).length ≤ 1
  /-- Up to order, the claims are one for each pattern of the footprint of each active worker's
  task, in canonical spelling. -/
  claims : (b.state.registry.claims.map Claim.ref).Perm
    ((b.state.workers.filter fun w => w.status.isActive).flatMap fun w =>
      Registry.refsFor (b.kanban.footprintOf w.taskId) w.id w.taskId)
  /-- The outcome of an active worker is settled, whatever it is. -/
  settles : ∀ w ∈ b.state.workers, w.status.isActive = true → ∀ outcome retry now,
    ∃ effect, (b.state.settle b.kanban w.id outcome retry now).1 = .ok effect

/-- **Tasks, workers and claims stay in step**, in all documents that come about from a backlog
with distinct identifiers. -/
theorem tasks_workers_claims_in_step {k : Kanban} {b : Books} (hids : k.HasDistinctIds)
    (h : Reachable k b) : b.InStep := by
  have hacc := h.accord hids
  refine ⟨fun t ht => ?_, hacc.openWorkers_length_le, hacc.claims_perm, ?_⟩
  · rw [hacc.status t ht, State.hasActiveWorker_iff]
  · exact fun w hw _ => hacc.settle_ok hw

theorem Sample.board_hasDistinctIds : board.HasDistinctIds := by decide +kernel

/-- Two tasks in progress, with three patterns claimed between them. -/
theorem busy_in_step :
    Sample.board.HasDistinctIds ∧ Reachable Sample.board Sample.busy ∧
      Sample.busy.state.registry.claims.map Claim.pattern = ["src", "docs/**", "README.md"] ∧
      Sample.busy.InStep :=
  ⟨Sample.board_hasDistinctIds, Sample.busy_reachable, by decide +kernel,
    tasks_workers_claims_in_step Sample.board_hasDistinctIds Sample.busy_reachable⟩

end Foreman
