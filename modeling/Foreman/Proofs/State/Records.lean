/-
# Worker records and the first of its name

Look-ups and changes act on the first record with an identifier.  Where identifiers are distinct
there is no other, so the first record is the record:

* `updateFirst_eq_map`: a change of the first record is a change of every record with that name;
* `worker?_eq_some_iff`: a look-up finds exactly the record of that name.

Also where they are not distinct, a change of a record leaves the records of all tasks alone but
that of the first record of the name (`workersOf_updateWorker`).

A record that shares its name with another one is left behind by both, which is why the histories
of `Foreman.Proofs.History.Names` ask for fresh names.
-/
import Foreman.Proofs.Distinct
import Foreman.State.Basic

namespace Foreman

/-- A worker that waits is neither active nor closed. -/
theorem WorkerStatus.eq_awaitingRetry_iff {s : WorkerStatus} :
    s = .awaitingRetry ↔ s.isActive = false ∧ s.isTerminal = false := by
  cases s <;> simp [isActive, isTerminal]

namespace State

/-! ## 1. Changes of the first record

`updateFirst` is what all changes of a record come to.  The lemmas on it do not ask what the
change is, only that it keeps the name. -/

/-- Without a record of that name nothing changes. -/
theorem updateFirst_eq_self {workerId : String} {f : Worker → Worker} :
    ∀ {ws : List Worker}, (∀ w ∈ ws, w.id ≠ workerId) → updateFirst workerId f ws = ws
  | [], _ => rfl
  | w :: ws, h => by
    rw [List.forall_mem_cons] at h
    rw [updateFirst, if_neg h.1, updateFirst_eq_self h.2]

/-- A change that keeps a field of every record keeps the list of that field. -/
theorem map_updateFirst {α : Type} (g : Worker → α) {workerId : String} {f : Worker → Worker}
    (hf : ∀ w, g (f w) = g w) : ∀ ws : List Worker, (updateFirst workerId f ws).map g = ws.map g
  | [] => rfl
  | w :: ws => by
    rw [updateFirst]
    split
    · rw [List.map_cons, List.map_cons, hf]
    · rw [List.map_cons, List.map_cons, map_updateFirst g hf ws]

/-- With distinct names a change of the first record is one of every record with that name. -/
theorem updateFirst_eq_map {workerId : String} {f : Worker → Worker} :
    ∀ {ws : List Worker}, (ws.map Worker.id).Nodup →
      updateFirst workerId f ws = ws.map fun w => if w.id = workerId then f w else w
  | [], _ => rfl
  | w :: ws, h => by
    rw [List.map_cons, List.nodup_cons] at h
    rw [updateFirst, List.map_cons]
    split
    · rename_i hw
      have hne : ∀ v ∈ ws, v.id ≠ workerId := fun v hv e =>
        h.1 (List.mem_map.mpr ⟨v, hv, e.trans hw.symm⟩)
      have hid : (ws.map fun v => if v.id = workerId then f v else v) = ws.map id :=
        List.map_congr_left fun v hv => if_neg (hne v hv)
      rw [hid, List.map_id]
    · rw [updateFirst_eq_map h.2]

/-- A record after a change is a record before it, changed if it has the name. -/
theorem mem_updateFirst {workerId : String} {f : Worker → Worker} {ws : List Worker}
    (h : (ws.map Worker.id).Nodup) {w : Worker} :
    w ∈ updateFirst workerId f ws ↔ ∃ v ∈ ws, w = if v.id = workerId then f v else v := by
  rw [updateFirst_eq_map h, List.mem_map]
  simp only [eq_comm]

/-- A record after a change is one that was there, or the changed one. -/
theorem mem_of_mem_updateFirst {workerId : String} {f : Worker → Worker} {w : Worker} :
    ∀ {ws : List Worker}, w ∈ updateFirst workerId f ws → w ∈ ws ∨ ∃ v ∈ ws, w = f v
  | [], h => absurd h List.not_mem_nil
  | u :: ws, h => by
    rw [updateFirst] at h
    split at h
    · rcases List.mem_cons.mp h with rfl | h
      · exact Or.inr ⟨u, List.mem_cons_self, rfl⟩
      · exact Or.inl (List.mem_cons_of_mem _ h)
    · rcases List.mem_cons.mp h with rfl | h
      · exact Or.inl List.mem_cons_self
      · rcases mem_of_mem_updateFirst h with h | ⟨v, hv, rfl⟩
        · exact Or.inl (List.mem_cons_of_mem _ h)
        · exact Or.inr ⟨v, List.mem_cons_of_mem _ hv, rfl⟩

/-- The first record of a name, and the list with it changed. -/
theorem exists_updateFirst {workerId : String} {w : Worker} {ws : List Worker}
    (h : (ws.find? fun v => v.id = workerId) = some w) (f : Worker → Worker) :
    ∃ before after, ws = before ++ w :: after ∧ (∀ v ∈ before, v.id ≠ workerId) ∧
      updateFirst workerId f ws = before ++ f w :: after := by
  induction ws with
  | nil => exact absurd h (by simp)
  | cons v ws ih =>
    rw [updateFirst]
    by_cases hv : v.id = workerId
    · rw [List.find?_cons_of_pos (by simpa using hv)] at h
      cases h
      exact ⟨[], ws, rfl, by simp, if_pos hv⟩
    · rw [List.find?_cons_of_neg (by simpa using hv)] at h
      obtain ⟨before, after, hws, hbefore, hupdate⟩ := ih h
      refine ⟨v :: before, after, ?_, List.forall_mem_cons.mpr ⟨hv, hbefore⟩, ?_⟩
      · rw [hws, List.cons_append]
      · rw [if_neg hv, hupdate, List.cons_append]

/-- A change that gives the record it finds back changes nothing. -/
theorem updateFirst_eq_self_iff {workerId : String} {w : Worker} {ws : List Worker}
    (h : (ws.find? fun v => v.id = workerId) = some w) (f : Worker → Worker) :
    updateFirst workerId f ws = ws ↔ f w = w := by
  obtain ⟨before, after, rfl, -, hupdate⟩ := exists_updateFirst h f
  rw [hupdate]
  simp

/-- Changes of records with different names do not meet. -/
theorem updateFirst_comm {v w : String} (hne : v ≠ w) {f g : Worker → Worker}
    (hf : ∀ u, (f u).id = u.id) (hg : ∀ u, (g u).id = u.id) : ∀ ws : List Worker,
    updateFirst v f (updateFirst w g ws) = updateFirst w g (updateFirst v f ws)
  | [] => rfl
  | u :: ws => by
    have ih := updateFirst_comm hne hf hg ws
    by_cases hv : u.id = v
    · have huw : u.id ≠ w := fun e => hne (hv.symm.trans e)
      simp only [updateFirst, if_pos hv, if_neg huw, hf]
    · by_cases hw : u.id = w
      · simp only [updateFirst, if_neg hv, if_pos hw, hg]
      · simp only [updateFirst, if_neg hv, if_neg hw, ih]

/-! ## 2. Look-ups

A look-up by name (`worker`) finds the first record. -/

/-- A record that is found is one of those there are. -/
theorem worker?_mem {s : State} {workerId : String} {w : Worker} (h : s.worker? workerId = some w) :
    w ∈ s.workers ∧ w.id = workerId := find?_key_mem h

/-- With distinct names a look-up finds exactly the record of that name. -/
theorem worker?_eq_some_iff {s : State} (h : (s.workers.map Worker.id).Nodup) {workerId : String}
    {w : Worker} : s.worker? workerId = some w ↔ w ∈ s.workers ∧ w.id = workerId :=
  find?_key_eq_some_iff h

/-- A change of the record of one name is not seen by a look-up of another. -/
theorem find?_updateFirst_of_ne {v w : String} (hne : v ≠ w) {f : Worker → Worker}
    (hf : ∀ u, (f u).id = u.id) : ∀ ws : List Worker,
    ((updateFirst v f ws).find? fun u => u.id = w) = ws.find? fun u => u.id = w
  | [] => rfl
  | u :: ws => by
    rw [updateFirst]
    by_cases hu : u.id = v
    · have huw : u.id ≠ w := fun e => hne (hu.symm.trans e)
      rw [if_pos hu, List.find?_cons_of_neg (by simpa [hf] using huw),
        List.find?_cons_of_neg (by simpa using huw)]
    · rw [if_neg hu, List.find?_cons, List.find?_cons, find?_updateFirst_of_ne hne hf ws]

/-! ## 3. Active workers of a task

Whether a task has one (`has_active_worker`). -/

/-- A task has an active worker exactly if one of its records is active. -/
theorem hasActiveWorker_iff {s : State} {taskId : String} :
    s.hasActiveWorker taskId = true ↔
      ∃ w ∈ s.workers, w.taskId = taskId ∧ w.status.isActive = true := by
  simp [hasActiveWorker]

/-! ## 4. The records of one task

What matters of the state for one task: its records, in their order. -/

/-- The records of a task's workers. -/
def workersOf (s : State) (taskId : String) : List Worker :=
  s.workers.filter fun w => w.taskId = taskId

/-- The task of the first record with that identifier. -/
def taskOf? (s : State) (workerId : String) : Option String :=
  (s.worker? workerId).map Worker.taskId

theorem hasActiveWorker_eq_any_workersOf (s : State) (taskId : String) :
    s.hasActiveWorker taskId = (s.workersOf taskId).any fun w => w.status.isActive := by
  rw [workersOf, List.any_filter, hasActiveWorker]

theorem taskOf?_eq_find? (s : State) (workerId : String) :
    s.taskOf? workerId =
      ((s.workers.map fun w => (w.id, w.taskId)).find? fun p => p.1 = workerId).map Prod.snd := by
  rw [taskOf?, worker?, List.find?_map, Option.map_map]
  rfl

/-- Which task a worker works on does not change with its record. -/
theorem taskOf?_updateWorker (s : State) {workerId : String} {f : Worker → Worker}
    (hid : ∀ w, (f w).id = w.id) (htask : ∀ w, (f w).taskId = w.taskId) (name : String) :
    (s.updateWorker workerId f).taskOf? name = s.taskOf? name := by
  rw [taskOf?_eq_find?, taskOf?_eq_find?, updateWorker,
    map_updateFirst (fun w => (w.id, w.taskId)) fun w => Prod.ext (hid w) (htask w)]

/-- Only the records of one task change with a record. -/
theorem workersOf_updateWorker (s : State) {workerId : String} {f : Worker → Worker}
    (htask : ∀ w, (f w).taskId = w.taskId) {taskId : String}
    (hne : s.taskOf? workerId ≠ some taskId) :
    (s.updateWorker workerId f).workersOf taskId = s.workersOf taskId := by
  have hgo : ∀ ws : List Worker,
      (ws.find? fun w => w.id = workerId).map Worker.taskId ≠ some taskId →
        (updateFirst workerId f ws).filter (fun w => w.taskId = taskId) =
          ws.filter fun w => w.taskId = taskId := by
    intro ws
    induction ws with
    | nil => exact fun _ => rfl
    | cons w ws ih =>
      intro hfirst
      rw [updateFirst]
      by_cases hw : w.id = workerId
      · have hwt : w.taskId ≠ taskId := by simpa [hw] using hfirst
        rw [if_pos hw, List.filter_cons_of_neg (by simpa [htask] using hwt),
          List.filter_cons_of_neg (by simpa using hwt)]
      · rw [if_neg hw, List.filter_cons, List.filter_cons, ih (by simpa [hw] using hfirst)]
  exact hgo s.workers hne

/-! ## 5. Notes

When a task was first seen is noted and never changed (`note_tasks`). -/

/-- Noting tasks changes nothing but when tasks were first seen. -/
theorem noteTasks_eq (s : State) (tasks : List Task) (now : Instant) :
    (s.noteTasks tasks now).1 = { s with firstSeen := (s.noteTasks tasks now).1.firstSeen } := by
  refine List.foldlRecOn (motive := fun r : State × Nat =>
    r.1 = { s with firstSeen := r.1.firstSeen }) tasks _ rfl ?_
  rintro ⟨s', added⟩ ih t -
  dsimp only at ih ⊢
  split
  · exact ih
  · rw [ih]

end State
end Foreman
