/-
# What no move changes

Statuses apart, the backlog stays as it is: no move adds a task, takes one away or changes one.
So every fact about identifiers and footprints holds at the end of a history if it holds at its
start.

* `Books.plainTasks_after`: a move changes no task but in its status.
* `Kanban.footprintOf_congr`: footprints are decided by the plain tasks.

Only the statuses are ever set, by `set_status`, and the tasks are the same list in the same
order afterwards.
-/
import Foreman.Proofs.Coordinator.Dispatch
import Foreman.Proofs.Coordinator.Settle
import Foreman.Proofs.History.Basic
import Foreman.Proofs.State.Liveness

namespace Foreman

/-- The footprint of a task of the backlog. -/
def Kanban.footprintOf (k : Kanban) (taskId : String) : List String :=
  match k.find? taskId with
  | some t => t.footprint
  | none => []

/-- It is that of the first task of that identifier. -/
theorem Kanban.footprintOf_eq {k : Kanban} {taskId : String} {t : Task}
    (h : k.find? taskId = some t) : k.footprintOf taskId = t.footprint := by
  simp only [footprintOf, h]

/-- Backlogs with the same plain tasks have the same footprints. -/
theorem Kanban.footprintOf_congr {k k' : Kanban} (h : k'.plainTasks = k.plainTasks)
    (taskId : String) : k'.footprintOf taskId = k.footprintOf taskId := by
  have hplain : ∀ j : Kanban, (j.find? taskId).map Task.plain =
      j.plainTasks.find? fun t => t.id = taskId := by
    intro j
    rw [plainTasks, List.find?_map]
    rfl
  have hfoot : ∀ j : Kanban, j.footprintOf taskId =
      ((j.plainTasks.find? fun t => t.id = taskId).map Task.footprint).getD [] := by
    intro j
    rw [← hplain, footprintOf]
    cases j.find? taskId <;> rfl
  rw [hfoot, hfoot, h]

namespace Books

/-- **A move changes no task but in its status.** -/
theorem plainTasks_after (b : Books) (m : Move) :
    (b.after m).kanban.plainTasks = b.kanban.plainTasks := by
  cases m with
  | beginPass | defer | markRunning | recordSession => rfl
  | dispatch o backend worktreeDir now =>
    have hend := State.dispatch_end b.state b.kanban o backend worktreeDir now
    simp only [after]
    generalize b.state.dispatch b.kanban o backend worktreeDir now = r at hend
    cases hend with
    | unknown | busy | blocked => rfl
    | started task k' _ _ _ hset => exact Kanban.plainTasks_setStatus hset
  | settle workerId outcome retry now =>
    have hend := State.settle_end b.state b.kanban workerId outcome retry now
    simp only [after]
    generalize b.state.settle b.kanban workerId outcome retry now = r at hend
    cases hend with
    | unknown | homeless => rfl
    | settled w k' _ hset => exact Kanban.plainTasks_setStatus hset
  | reset taskId =>
    cases hreset : b.state.reset b.kanban taskId with
    | error => simp only [after, hreset]
    | ok r =>
      obtain ⟨t, -, -, hset, -⟩ := State.reset_eq_ok hreset
      simp only [after, hreset]
      exact Kanban.plainTasks_setStatus hset
  | restart alive =>
    simp only [after, State.restoreLiveness_tasks, Kanban.plainTasks, List.map_map]
    exact List.map_congr_left fun t _ => State.returned_plain _ t

end Books

/-- Reachable documents have the tasks of the backlog they come from. -/
theorem Reachable.plainTasks_eq {k : Kanban} {b : Books} (h : Reachable k b) :
    b.kanban.plainTasks = k.plainTasks :=
  h.invariant (P := fun b => b.kanban.plainTasks = k.plainTasks)
    (fun _ => Books.plainTasks_after ⟨{}, k⟩ _)
    (fun c m ih _ => (c.plainTasks_after m).trans ih)

end Foreman
