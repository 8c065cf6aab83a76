/-
# Abandoned workers and returned tasks

A restart and an operator's reset both abandon workers one after the other.  Here is what that does
to the records, the claims and the queue, and what a restart does to the tasks.

* `abandonAll_workers`, `abandonAll_claims`: where names are distinct, the records of these workers
  and nobody else's change, and their claims are gone.
* `abandonAll_registry`: their releases come one after the other, so the queue is told by
  `Registry.releaseAll_eq`; `abandonAll_queue`: nobody waits for any of them.
* `restoreLiveness_tasks`: a restart returns the tasks in progress that nobody works on.

Giving a worker up is one of the two changes of a record that come with a release of claims; the
other is the end of an attempt, in `Foreman.Proofs.Coordinator.Settle`.
-/
import Foreman.Coordinator.Reset
import Foreman.Proofs.Footprint.Queue
import Foreman.Proofs.Kanban.Tasks
import Foreman.Proofs.State.Records

namespace Foreman
namespace State

/-- The record of a worker that was given up. -/
def abandoned (w : Worker) : Worker := { w with status := .abandoned }

@[simp] theorem abandon_workers (s : State) (workerId : String) :
    (s.abandon workerId).workers = updateFirst workerId abandoned s.workers := rfl

@[simp] theorem abandon_registry (s : State) (workerId : String) :
    (s.abandon workerId).registry = (s.registry.release workerId).1 := rfl

/-- Workers given up one after the other. -/
def abandonAll (s : State) (ws : List Worker) : State := ws.foldl (fun s w => s.abandon w.id) s

@[simp] theorem abandonAll_nil (s : State) : s.abandonAll [] = s := rfl

@[simp] theorem abandonAll_cons (s : State) (w : Worker) (ws : List Worker) :
    s.abandonAll (w :: ws) = (s.abandon w.id).abandonAll ws := rfl

/-- Nothing that is remembered of attempts is lost with a worker. -/
@[simp] theorem abandonAll_resume : ∀ (lost : List Worker) (s : State),
    (s.abandonAll lost).resume = s.resume
  | [], _ => rfl
  | w :: lost, s => by
    rw [abandonAll_cons, abandonAll_resume lost]
    rfl

/-- Nothing but records, claims and queue changes. -/
theorem abandonAll_eq : ∀ (lost : List Worker) (s : State),
    s.abandonAll lost =
      { s with
        workers := (s.abandonAll lost).workers
        registry := (s.abandonAll lost).registry }
  | [], _ => rfl
  | w :: lost, s => by
    rw [abandonAll_cons, abandonAll_eq lost]
    rfl

/-- **Where names are distinct, the records of the workers given up change, and no other.** -/
theorem abandonAll_workers : ∀ (lost : List Worker) {s : State},
    (s.workers.map Worker.id).Nodup →
      (s.abandonAll lost).workers =
        s.workers.map fun w => if w.id ∈ lost.map Worker.id then abandoned w else w
  | [], s, _ => by simp
  | v :: lost, s, h => by
    have hnames : ((s.abandon v.id).workers.map Worker.id).Nodup := by
      rw [abandon_workers, map_updateFirst Worker.id (f := abandoned) fun _ => rfl]
      exact h
    rw [abandonAll_cons, abandonAll_workers lost hnames, abandon_workers, updateFirst_eq_map h,
      List.map_map]
    refine List.map_congr_left fun w _ => ?_
    by_cases hv : w.id = v.id
    · simp [abandoned, hv]
    · simp [hv]

/-- The workers given up let go of their claims, one after the other. -/
theorem abandonAll_registry : ∀ (lost : List Worker) (s : State),
    (s.abandonAll lost).registry = s.registry.releaseAll (lost.map Worker.id)
  | [], _ => rfl
  | w :: lost, s => by
    rw [abandonAll_cons, abandonAll_registry lost, abandon_registry]
    rfl

/-- **The claims of the workers given up are gone**, and the others stand as they stood. -/
theorem abandonAll_claims (lost : List Worker) (s : State) :
    (s.abandonAll lost).registry.claims =
      s.registry.claims.filter fun c => c.workerId ∉ lost.map Worker.id := by
  rw [abandonAll_registry, Registry.releaseAll_eq]
  rfl

/-- **Nobody waits for a worker that was given up.**  An entry that a release points at the claim
of a worker whose turn is still to come is pointed elsewhere when it comes, and never back. -/
theorem abandonAll_queue (lost : List Worker) (s : State) :
    ∀ e ∈ (s.abandonAll lost).registry.queue, e.blocking.workerId ∉ lost.map Worker.id := by
  intro e he
  rw [abandonAll_registry, Registry.releaseAll_eq] at he
  obtain ⟨old, -, hfate⟩ := List.mem_filterMap.mp he
  exact QueueEntry.fateAll_blocking_not_mem hfate

/-- A task as a restart leaves it: in progress only with an active worker. -/
def returned (s : State) (t : Task) : Task :=
  if t.status = .inProgress ∧ ¬ s.hasActiveWorker t.id = true then { t with status := .pending }
  else t

@[simp] theorem returned_id (s : State) (t : Task) : (s.returned t).id = t.id := by
  unfold returned
  split <;> rfl

@[simp] theorem returned_plain (s : State) (t : Task) : (s.returned t).plain = t.plain := by
  unfold returned
  split <;> rfl

/-- A task stays in progress exactly if it still has an active worker. -/
theorem returned_inProgress_iff (s : State) (t : Task) :
    (s.returned t).status = .inProgress ↔
      t.status = .inProgress ∧ s.hasActiveWorker t.id = true := by
  unfold returned
  split
  · rename_i h
    simp [h.2]
  · rename_i h
    rw [not_and_not_right] at h
    exact ⟨fun ht => ⟨ht, h ht⟩, fun ht => ht.1⟩

/-- The tasks are looked at one by one. -/
theorem returnTasks_fst (s : State) : ∀ (ts : List Task) (reset : List String),
    (returnTasks s reset ts).1 = ts.map s.returned
  | [], _ => rfl
  | t :: ts, reset => by
    unfold returnTasks returned
    split
    · rename_i h
      simp only [List.map_cons, returnTasks_fst s ts, if_pos h]
      rfl
    · rename_i h
      simp only [List.map_cons, returnTasks_fst s ts, if_neg h]
      rfl

/-- The tasks after a restart. -/
theorem restoreLiveness_tasks (s : State) (tasks : List Task) (alive : Nat → Bool) :
    (s.restoreLiveness tasks alive).2.1 =
      tasks.map (s.abandonAll (s.workers.filter (isLost alive))).returned :=
  returnTasks_fst _ _ _

/-! ## The operator's reset

A reset gives the open workers of one task up, in the order of their records. -/

/-- A reset that is not refused. -/
theorem reset_eq_ok {s s' : State} {k k' : Kanban} {taskId : String}
    (h : s.reset k taskId = .ok (s', k')) :
    ∃ t, k.find? taskId = some t ∧ (t.status = .failed ∨ t.status = .blocked) ∧
      k.setStatus taskId .pending = .ok k' ∧ s' = s.forget taskId := by
  unfold reset at h
  split at h
  · exact absurd h (by simp)
  · rename_i t hfind
    split at h
    · rename_i hstatus
      cases hset : k.setStatus taskId .pending with
      | error reason => simp [hset, Except.map] at h
      | ok k'' =>
        simp only [hset, Except.map, Except.ok.injEq, Prod.mk.injEq] at h
        exact ⟨t, hfind, by simpa using hstatus, by rw [h.2], h.1.symm⟩
    · exact absurd h (by simp)

/-- The workers of a task that are not closed. -/
def openWorkers (s : State) (taskId : String) : List Worker :=
  s.workers.filter fun w => w.taskId = taskId && !w.status.isTerminal

/-- A reset gives the open workers of its task up, and forgets the rest. -/
theorem forget_eq (s : State) (taskId : String) :
    s.forget taskId =
      ({ s with
          resume := s.resume.erase taskId
          registry := s.registry.dequeue taskId } : State).abandonAll (s.openWorkers taskId) := rfl

end State
end Foreman
