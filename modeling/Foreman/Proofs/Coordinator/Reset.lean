/-
# What a reset leaves

An operator's reset (`reset_task`) forgets a failed or blocked task: its attempts, its place in
the queue and the workers that have not been closed.  These let go of their claims one after the
other, and each release looks at the queue that the ones before have left.  What comes of it can
be said without any of that: the queue is looked at once, against the claims that are left in
the end.

`Books.IsReset` is that statement, with a field for every part of the documents and one for all
that is left alone.  It is the relation that the operator sees; the definition that runs makes
its changes in another order and one by one.

* `mem_map_id_openWorkers`: where names are distinct, an open worker is known by its name.
* `forget_workers`, `forget_claims`, `forget_queue`: what is left when a task is forgotten.
* `reset_eq_error`: a reset is refused for a task that is not in the backlog, or has not failed
  and is not blocked.
* `reset_exact`: a refused reset changes nothing; any other one does what `Books.IsReset` says,
  and nothing else.
-/
import Foreman.Proofs.History.Basic
import Foreman.Proofs.State.Restart

namespace Foreman

/-- Why the backlog does not allow the reset of a task. -/
inductive Kanban.RefusesReset (k : Kanban) (taskId : String) : String → Prop
  | unknown : (∀ t ∈ k.tasks, t.id ≠ taskId) → RefusesReset k taskId (Kanban.unknownTask taskId)
  | status {t : Task} : t ∈ k.tasks → t.id = taskId → t.status ≠ .failed → t.status ≠ .blocked →
      RefusesReset k taskId (State.resetRefusal taskId t.status)

namespace State

variable {s : State} {k : Kanban} {taskId : String}

/-! ## 1. Forgetting a task

The parts of the state after `forget`, one by one. -/

/-- An open worker of the task is one whose record is not closed. -/
theorem mem_openWorkers {w : Worker} :
    w ∈ s.openWorkers taskId ↔
      w ∈ s.workers ∧ w.taskId = taskId ∧ w.status.isTerminal = false := by
  simp [openWorkers]

/-- Where names are distinct, a worker that has the name of an open one is that one. -/
theorem mem_map_id_openWorkers (hids : (s.workers.map Worker.id).Nodup) {w : Worker}
    (hw : w ∈ s.workers) :
    w.id ∈ (s.openWorkers taskId).map Worker.id ↔
      w.taskId = taskId ∧ w.status.isTerminal = false := by
  constructor
  · intro h
    obtain ⟨v, hv, hname⟩ := List.mem_map.mp h
    obtain ⟨hmem, hopen⟩ := mem_openWorkers.mp hv
    rwa [List.inj_on_of_nodup_map hids hmem hw hname] at hopen
  · exact fun hopen => List.mem_map_of_mem (mem_openWorkers.mpr ⟨hw, hopen⟩)

/-- The open workers of the task are abandoned, and no other record changes. -/
theorem forget_workers (hids : (s.workers.map Worker.id).Nodup) (taskId : String) :
    (s.forget taskId).workers = s.workers.map fun w =>
      if w.taskId = taskId ∧ w.status.isTerminal = false then abandoned w else w := by
  rw [forget_eq, abandonAll_workers]
  · refine List.map_congr_left fun w hw => ?_
    simp only [mem_map_id_openWorkers hids hw]
  · exact hids

/-- The claims of the open workers are gone. -/
theorem forget_claims (s : State) (taskId : String) :
    (s.forget taskId).registry.claims =
      Registry.withoutAll s.registry.claims ((s.openWorkers taskId).map Worker.id) := by
  rw [forget_eq, abandonAll_registry, Registry.releaseAll_eq]
  rfl

/-- **The task is out of the queue, and every other entry is looked at once**, against the claims
that are left. -/
theorem forget_queue (s : State) (taskId : String) :
    (s.forget taskId).registry.queue =
      (s.registry.dequeue taskId).queue.filterMap
        (QueueEntry.fateAll (s.forget taskId).registry.claims
          ((s.openWorkers taskId).map Worker.id)) := by
  rw [forget_claims, forget_eq, abandonAll_registry, Registry.releaseAll_eq]
  rfl

/-- Nothing is remembered of the task. -/
theorem forget_resume (s : State) (taskId : String) :
    (s.forget taskId).resume = s.resume.erase taskId := by
  rw [forget_eq, abandonAll_resume]

/-- Nothing else changes. -/
theorem forget_rest (s : State) (taskId : String) :
    s.forget taskId = { s with
      resume := (s.forget taskId).resume
      workers := (s.forget taskId).workers
      registry := (s.forget taskId).registry } := by
  rw [forget_resume, forget_eq]
  exact abandonAll_eq _ _

/-- No worker of a forgotten task is open. -/
theorem isTerminal_of_mem_forget (hids : (s.workers.map Worker.id).Nodup) {w : Worker}
    (hw : w ∈ (s.forget taskId).workers) (htask : w.taskId = taskId) :
    w.status.isTerminal = true := by
  rw [forget_workers hids] at hw
  obtain ⟨v, -, rfl⟩ := List.mem_map.mp hw
  by_cases hopen : v.taskId = taskId ∧ v.status.isTerminal = false
  · rw [if_pos hopen]
    rfl
  · rw [if_neg hopen] at htask ⊢
    rw [not_and, Bool.not_eq_false] at hopen
    exact hopen htask

/-- A forgotten task is not in the queue. -/
theorem taskId_ne_of_mem_forget {e : QueueEntry} (he : e ∈ (s.forget taskId).registry.queue) :
    e.taskId ≠ taskId := by
  rw [forget_queue] at he
  obtain ⟨old, hold, hfate⟩ := List.mem_filterMap.mp he
  rw [QueueEntry.fateAll_eq hfate]
  simpa [Registry.dequeue] using (List.mem_filter.mp hold).2

/-- **An entry of another task that is gone has nothing in its way.** -/
theorem findConflict_forget {e : QueueEntry} (he : e ∈ s.registry.queue) (htask : e.taskId ≠ taskId)
    (hgone : ∀ e' ∈ (s.forget taskId).registry.queue, e' ≠ { e with blocking := e'.blocking }) :
    (s.forget taskId).registry.findConflict e.footprint = none := by
  have hkept : e ∈ (s.registry.dequeue taskId).queue :=
    List.mem_filter.mpr ⟨he, by simpa using htask⟩
  rw [forget_queue] at hgone
  cases hfate : e.fateAll (s.forget taskId).registry.claims
      ((s.openWorkers taskId).map Worker.id) with
  | none => exact QueueEntry.conflictAmong_of_fateAll_eq_none hfate
  | some e' =>
    have hstays := List.mem_filterMap.mpr ⟨e, hkept, hfate⟩
    exact absurd (QueueEntry.fateAll_eq hfate) (hgone e' hstays)

/-! ## 2. Refusals

A refusal comes before anything is changed. -/

/-- The two reasons for which a reset is refused. -/
theorem reset_eq_error {reason : String} (h : s.reset k taskId = .error reason) :
    k.RefusesReset taskId reason := by
  unfold reset at h
  split at h
  · rename_i hfind
    cases h
    exact .unknown fun t ht => by simpa using List.find?_eq_none.mp hfind t ht
  · rename_i t hfind
    obtain ⟨hmem, hid⟩ := Kanban.find?_mem hfind
    split at h
    · -- the status of a task that was found can be set
      obtain ⟨k', hset⟩ := Kanban.exists_setStatus ⟨hmem, hid⟩ .pending
      rw [hset] at h
      cases h
    · rename_i hstatus
      cases h
      simp only [Bool.or_eq_true, decide_eq_true_eq, not_or] at hstatus
      exact .status hmem hid hstatus.1 hstatus.2

end State

/-! ## 3. The reset

The parts put together.  Names have to be distinct, for a release is made by name: with two
records of one name it would take the claims of both. -/

/-- What a reset has to make of the documents. -/
structure Books.IsReset (taskId : String) (b b' : Books) : Prop where
  /-- The task had failed or was blocked. -/
  stuck : ∃ t ∈ b.kanban.tasks, t.id = taskId ∧ (t.status = .failed ∨ t.status = .blocked)
  /-- The task is pending, and no other task has changed. -/
  kanban : b'.kanban = { b.kanban with
    tasks := b.kanban.tasks.map fun t =>
      if t.id = taskId then { t with status := .pending } else t }
  /-- Nothing is remembered of the task, and of the others what was. -/
  resume : ∀ id, b'.state.resume.get? id = if id = taskId then none else b.state.resume.get? id
  /-- The open workers of the task are abandoned, and no other record has changed. -/
  workers : b'.state.workers = b.state.workers.map fun w =>
    if w.taskId = taskId ∧ w.status.isTerminal = false then { w with status := .abandoned } else w
  /-- No worker of the task is active or waits for another attempt. -/
  closed : ∀ w ∈ b'.state.workers, w.taskId = taskId → w.status.isTerminal = true
  /-- The claims of the workers abandoned are gone, and the others stand in their order. -/
  claims : b'.state.registry.claims = b.state.registry.claims.filter fun c =>
    c.workerId ∉ (b.state.openWorkers taskId).map Worker.id
  /-- The task is out of the queue, and the other entries stand in their order, but for those that
  waited for one of these workers: they wait for the next claim in their way, or are gone. -/
  queue : b'.state.registry.queue =
    (b.state.registry.queue.filter fun e => e.taskId ≠ taskId).filterMap fun e =>
      if e.blocking.workerId ∈ (b.state.openWorkers taskId).map Worker.id then
        (b'.state.registry.findConflict e.footprint).map fun held => { e with blocking := held }
      else some e
  unqueued : ∀ e ∈ b'.state.registry.queue, e.taskId ≠ taskId
  /-- An entry of another task that is gone has nothing in its way. -/
  freed : ∀ e ∈ b.state.registry.queue, e.taskId ≠ taskId →
    (∀ e' ∈ b'.state.registry.queue, e' ≠ { e with blocking := e'.blocking }) →
      b'.state.registry.findConflict e.footprint = none
  /-- All else is what it was. -/
  rest : b'.state = { b.state with
    resume := b'.state.resume, workers := b'.state.workers, registry := b'.state.registry }

/-- A reset that is not refused is exact. -/
theorem State.reset_isReset {b : Books} {s : State} {k : Kanban} {taskId : String}
    (hids : (b.state.workers.map Worker.id).Nodup) (hdistinct : b.kanban.HasDistinctIds)
    (h : b.state.reset b.kanban taskId = .ok (s, k)) : b.IsReset taskId ⟨s, k⟩ := by
  obtain ⟨t, hfind, hstatus, hset, rfl⟩ := reset_eq_ok h
  obtain ⟨hmem, hid⟩ := Kanban.find?_mem hfind
  rw [Kanban.setStatus_eq_ok hdistinct ⟨t, hmem, hid⟩] at hset
  cases hset
  exact
    { stuck := ⟨t, hmem, hid, hstatus⟩
      kanban := rfl
      resume := fun id => by rw [forget_resume, Table.get?_erase]
      workers := forget_workers hids taskId
      closed := fun _ => isTerminal_of_mem_forget hids
      claims := forget_claims b.state taskId
      queue := forget_queue b.state taskId
      unqueued := fun _ => taskId_ne_of_mem_forget
      freed := fun _ => findConflict_forget
      rest := forget_rest b.state taskId }

/-- **A reset is exact, and is made as a whole or not at all.**  Let no two workers and no two
tasks share an identifier.  If the reset of a task is refused, the documents stay as they are,
and the task is not in the backlog, or has not failed and is not blocked.  Otherwise the task
had failed or was blocked, and the documents are what `Books.IsReset` says. -/
theorem reset_exact {b : Books} (hids : (b.state.workers.map Worker.id).Nodup)
    (hdistinct : b.kanban.HasDistinctIds) (taskId : String) :
    match b.state.reset b.kanban taskId with
    | .error reason => b.kanban.RefusesReset taskId reason ∧ b.after (.reset taskId) = b
    | .ok (s, k) => b.IsReset taskId ⟨s, k⟩ ∧ b.after (.reset taskId) = ⟨s, k⟩ := by
  cases hreset : b.state.reset b.kanban taskId with
  | error reason => exact ⟨State.reset_eq_error hreset, by simp only [Books.after, hreset]⟩
  | ok r =>
    obtain ⟨s, k⟩ := r
    exact ⟨State.reset_isReset hids hdistinct hreset, by simp only [Books.after, hreset]⟩

namespace Sample

/-- The first task is blocked, and yet has two workers that are not closed and a place in the queue.
Two tasks wait for its first worker: the one meets its second worker next, and the other a worker of
another task. -/
def stuckBooks : Books where
  state :=
    { workers :=
        [leftWorker "w1" "T-1" (some 7) .running, leftWorker "w2" "T-1" none .awaitingRetry,
          leftWorker "w3" "T-2" (some 8) .running, leftWorker "w4" "T-1" none .failed]
      resume := ⟨[("T-1", { attempts := 2 }), ("T-2", { attempts := 1 })]⟩
      registry :=
        { claims :=
            [⟨"src", "w1", "T-1", noon⟩, ⟨"lib", "w3", "T-2", noon⟩, ⟨"docs", "w2", "T-1", noon⟩]
          queue :=
            [⟨"T-3", ["src/a.rs", "docs/a.md"], ⟨"w1", "T-1", "src"⟩, noon⟩,
              ⟨"T-1", ["src", "lib"], ⟨"w3", "T-2", "lib"⟩, noon⟩,
              ⟨"T-4", ["src/b.rs", "lib/b.rs"], ⟨"w1", "T-1", "src"⟩, noon⟩] } }
  kanban := ⟨1, [{ id := "T-1", status := .blocked }, { id := "T-2", status := .inProgress },
    { id := "T-3" }, { id := "T-4" }]⟩

end Sample

/-- The entry that would meet the second worker goes, and the other one waits for the worker of the
other task.  The reset of that one's task is refused. -/
theorem stuck_task_reset :
    (Sample.stuckBooks.state.workers.map Worker.id).Nodup ∧
      Sample.stuckBooks.kanban.HasDistinctIds ∧
      (let b := Sample.stuckBooks.after (.reset "T-1")
      Sample.stuckBooks.IsReset "T-1" b ∧
        b.state.workers.map Worker.status = [.abandoned, .abandoned, .running, .failed] ∧
        b.state.registry.queue.map (fun e => (e.taskId, e.blocking.workerId)) = [("T-4", "w3")] ∧
        b.state.resume.keys = ["T-2"]) ∧
      Sample.stuckBooks.after (.reset "T-2") = Sample.stuckBooks := by
  have hids : (Sample.stuckBooks.state.workers.map Worker.id).Nodup := by decide +kernel
  have hdistinct : Sample.stuckBooks.kanban.HasDistinctIds := by decide +kernel
  have hdone : (Sample.stuckBooks.state.reset Sample.stuckBooks.kanban "T-1").isOk = true := by
    decide +kernel
  have hrefused : (Sample.stuckBooks.state.reset Sample.stuckBooks.kanban "T-2").isOk = false := by
    decide +kernel
  have hfirst := reset_exact hids hdistinct "T-1"
  have hsecond := reset_exact hids hdistinct "T-2"
  refine ⟨hids, hdistinct, ⟨?_, by decide +kernel, by decide +kernel, by decide +kernel⟩, ?_⟩
  · split at hfirst
    · rename_i h
      rw [h] at hdone
      cases hdone
    · exact hfirst.2 ▸ hfirst.1
  · split at hsecond
    · exact hsecond.2
    · rename_i h
      rw [h] at hrefused
      cases hrefused

end Foreman
