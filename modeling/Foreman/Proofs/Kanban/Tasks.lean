/-
# Tasks of the backlog

Only statuses ever change in the backlog.  `Task.plain` forgets the status, and two backlogs with
the same plain tasks hold the same tasks in the same order with the same footprints.

* `find?_eq_some_iff`: where identifiers are distinct, a look-up finds exactly the task of that
  name.
* `setStatus_eq_ok`: the status of a task of the backlog can always be set.

The first task of an identifier is the one that is found (`find`) and changed (`set_status`).
The reader of the backlog sees to it that there is no second one.
-/
import Foreman.Kanban.Basic
import Foreman.Proofs.Distinct

namespace Foreman

/-- The task without its status. -/
def Task.plain (t : Task) : Task := { t with status := .pending }

namespace Kanban

/-- No two tasks share an identifier. -/
def HasDistinctIds (k : Kanban) : Prop := (k.tasks.map Task.id).Nodup

instance (k : Kanban) : Decidable k.HasDistinctIds :=
  inferInstanceAs (Decidable (k.tasks.map Task.id).Nodup)

/-- The tasks without their statuses. -/
def plainTasks (k : Kanban) : List Task := k.tasks.map Task.plain

/-! ## 1. What the plain tasks decide

Everything but statuses. -/

theorem map_id_eq_of_plainTasks_eq {k k' : Kanban} (h : k'.plainTasks = k.plainTasks) :
    k'.tasks.map Task.id = k.tasks.map Task.id := by
  have hid : ∀ ts : List Task, (ts.map Task.plain).map Task.id = ts.map Task.id := by
    intro ts
    rw [List.map_map]
    rfl
  rw [← hid, ← hid k.tasks]
  exact congrArg _ h

theorem HasDistinctIds.of_plainTasks_eq {k k' : Kanban} (h : k.HasDistinctIds)
    (hplain : k'.plainTasks = k.plainTasks) : k'.HasDistinctIds := by
  rw [HasDistinctIds, map_id_eq_of_plainTasks_eq hplain]
  exact h

/-- A task of one backlog stands in the other, but for its status. -/
theorem exists_mem_of_plainTasks_eq {k k' : Kanban} (h : k'.plainTasks = k.plainTasks) {t : Task}
    (ht : t ∈ k'.tasks) : ∃ u ∈ k.tasks, u.plain = t.plain := by
  have hmem : t.plain ∈ k.plainTasks := h ▸ List.mem_map_of_mem ht
  exact List.mem_map.mp hmem

/-! ## 2. Look-ups

A look-up finds the first task of that identifier. -/

theorem find?_mem {k : Kanban} {taskId : String} {t : Task} (h : k.find? taskId = some t) :
    t ∈ k.tasks ∧ t.id = taskId := find?_key_mem h

theorem find?_eq_some_iff {k : Kanban} (h : k.HasDistinctIds) {taskId : String} {t : Task} :
    k.find? taskId = some t ↔ t ∈ k.tasks ∧ t.id = taskId := find?_key_eq_some_iff h

/-! ## 3. Setting a status

It fails for an identifier that no task has, and else changes one task. -/

/-- The task gets the status if it has the identifier. -/
def restatus (taskId : String) (status : TaskStatus) (t : Task) : Task :=
  if t.id = taskId then { t with status := status } else t

@[simp] theorem restatus_plain (taskId : String) (status : TaskStatus) (t : Task) :
    (restatus taskId status t).plain = t.plain := by
  unfold restatus
  split <;> rfl

@[simp] theorem restatus_id (taskId : String) (status : TaskStatus) (t : Task) :
    (restatus taskId status t).id = t.id := by
  unfold restatus
  split <;> rfl

/-- Statuses of different tasks can be set in either order. -/
theorem map_restatus_comm {a b : String} (hne : a ≠ b) (x y : TaskStatus) (ts : List Task) :
    (ts.map (restatus a x)).map (restatus b y) = (ts.map (restatus b y)).map (restatus a x) := by
  rw [List.map_map, List.map_map]
  refine List.map_congr_left fun t _ => ?_
  simp only [Function.comp_apply]
  by_cases ha : t.id = a
  · have hb : t.id ≠ b := fun e => hne (ha.symm.trans e)
    simp only [restatus, if_pos ha, if_neg hb]
  · have hsame : restatus a x t = t := if_neg ha
    have hlate : restatus a x (restatus b y t) = restatus b y t :=
      if_neg (by rwa [restatus_id])
    rw [hsame, hlate]

theorem withStatus?_eq_some {taskId : String} {status : TaskStatus} :
    ∀ {ts : List Task}, (ts.map Task.id).Nodup → taskId ∈ ts.map Task.id →
      withStatus? taskId status ts = some (ts.map (restatus taskId status))
  | [], _, hmem => absurd hmem List.not_mem_nil
  | t :: ts, hnd, hmem => by
    rw [List.map_cons, List.nodup_cons] at hnd
    rw [withStatus?, List.map_cons]
    split
    · rename_i ht
      have hrest : ts.map (restatus taskId status) = ts.map id := by
        refine List.map_congr_left fun u hu => if_neg fun e => hnd.1 ?_
        exact List.mem_map.mpr ⟨u, hu, e.trans ht.symm⟩
      rw [hrest, List.map_id, restatus, if_pos ht]
    · rename_i ht
      have hmem' : taskId ∈ ts.map Task.id :=
        (List.mem_cons.mp hmem).resolve_left fun e => ht e.symm
      rw [withStatus?_eq_some hnd.2 hmem', Option.map_some, restatus, if_neg ht]

/-- The status of a task of the backlog can be set, and nothing else changes. -/
theorem setStatus_eq_ok {k : Kanban} (h : k.HasDistinctIds) {taskId : String}
    (hmem : ∃ t ∈ k.tasks, t.id = taskId) (status : TaskStatus) :
    k.setStatus taskId status = .ok { k with tasks := k.tasks.map (restatus taskId status) } := by
  rw [setStatus, withStatus?_eq_some h (List.mem_map.mpr hmem)]

/-- A task of the backlog can get any status, whether or not it shares its identifier. -/
theorem exists_setStatus {k : Kanban} {t : Task} {taskId : String}
    (h : t ∈ k.tasks ∧ t.id = taskId) (status : TaskStatus) :
    ∃ k', k.setStatus taskId status = .ok k' := by
  have hgo : ∀ ts : List Task, taskId ∈ ts.map Task.id →
      ∃ ts', withStatus? taskId status ts = some ts' := by
    intro ts
    induction ts with
    | nil => exact fun hmem => absurd hmem List.not_mem_nil
    | cons u ts ih =>
      intro hmem
      rw [withStatus?]
      split
      · exact ⟨_, rfl⟩
      · rename_i hu
        obtain ⟨ts', hts'⟩ := ih ((List.mem_cons.mp hmem).resolve_left fun e => hu e.symm)
        exact ⟨u :: ts', by rw [hts', Option.map_some]⟩
  obtain ⟨ts', hts'⟩ := hgo k.tasks (List.mem_map.mpr ⟨t, h⟩)
  exact ⟨{ k with tasks := ts' }, by rw [setStatus, hts']⟩

/-- Only the status of a task that is missing cannot be set. -/
theorem setStatus_eq_error {k : Kanban} {taskId : String} {status : TaskStatus}
    {reason : String} (h : k.setStatus taskId status = .error reason) :
    k.find? taskId = none ∧ reason = unknownTask taskId := by
  constructor
  · cases hfind : k.find? taskId with
    | none => rfl
    | some t =>
      obtain ⟨k', hk'⟩ := exists_setStatus (find?_mem hfind) status
      cases hk'.symm.trans h
  · unfold setStatus at h
    split at h
    · cases h
    · cases h
      rfl

theorem plainTasks_restatus (k : Kanban) (taskId : String) (status : TaskStatus) :
    plainTasks { k with tasks := k.tasks.map (restatus taskId status) } = k.plainTasks := by
  rw [plainTasks, plainTasks, List.map_map]
  exact List.map_congr_left fun t _ => restatus_plain taskId status t

/-- Whatever a change of status gives, the plain tasks stay. -/
theorem plainTasks_setStatus {k k' : Kanban} {taskId : String} {status : TaskStatus}
    (h : k.setStatus taskId status = .ok k') : k'.plainTasks = k.plainTasks := by
  have hgo : ∀ {ts ts' : List Task}, withStatus? taskId status ts = some ts' →
      ts'.map Task.plain = ts.map Task.plain := by
    intro ts
    induction ts with
    | nil => simp [withStatus?]
    | cons t ts ih =>
      intro ts' h
      rw [withStatus?] at h
      split at h
      · cases h
        rfl
      · obtain ⟨rest, hrest, rfl⟩ := Option.map_eq_some_iff.mp h
        rw [List.map_cons, List.map_cons, ih hrest]
  unfold setStatus at h
  split at h
  · rename_i ts hts
    cases h
    exact hgo hts
  · exact absurd h (by simp)

end Kanban
end Foreman
