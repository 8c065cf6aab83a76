/-
# Moves that change nothing of weight

Whether a task may start, and what is claimed for whom, is decided by the statuses, the claims, the
cooldowns and four things of every worker record, its `Worker.profile`.  The opening of a pass, a
deferral and the messages of workers touch none of these, and `Books.unmoved_after` says so once
for all of them.

A profile has the name and the task of a record, and whether it is active or closed.  Between
the two states of an active worker, one that was started and one that is known to run, nothing
distinguishes here; so `mark_running` is quiet, although it changes a status.

* `Unmoved`: what two documents have in common that decide alike.
* `Move.Quiet`: the moves that start no task and end no attempt.
-/
import Foreman.Proofs.Footprint.Claims
import Foreman.Proofs.History.Basic
import Foreman.Proofs.State.Records

namespace Foreman

/-! ## 1. What matters of a record

Facts that are decided by the profiles are shown to be so, once for each. -/

/-- What matters of a record for its task and its claims. -/
def Worker.profile (w : Worker) : String × String × Bool × Bool :=
  (w.id, w.taskId, w.status.isActive, w.status.isTerminal)

theorem Worker.profile_eq_iff {v w : Worker} : v.profile = w.profile ↔
    v.id = w.id ∧ v.taskId = w.taskId ∧ v.status.isActive = w.status.isActive ∧
      v.status.isTerminal = w.status.isTerminal := by
  simp [profile]

namespace State

theorem map_profile_workersOf (s : State) (taskId : String) :
    (s.workersOf taskId).map Worker.profile =
      (s.workers.map Worker.profile).filter fun p => p.2.1 = taskId := by
  rw [List.filter_map, workersOf]
  rfl

/-- Whether a task has an active worker is decided by the profiles of its workers. -/
theorem hasActiveWorker_eq_of_profiles {s s' : State} {taskId : String}
    (h : (s'.workersOf taskId).map Worker.profile = (s.workersOf taskId).map Worker.profile) :
    s'.hasActiveWorker taskId = s.hasActiveWorker taskId := by
  have hany : ∀ ws : List Worker, (ws.any fun w => w.status.isActive) =
      (ws.map Worker.profile).any fun p => p.2.2.1 := fun ws => by
    rw [List.any_map]
    rfl
  rw [hasActiveWorker_eq_any_workersOf, hasActiveWorker_eq_any_workersOf, hany, hany, h]

end State

/-! ## 2. Messages of workers

A message may be that of a worker that is not known, or closed by now; then it changes nothing. -/

namespace Desk

/-- A process that starts makes no worker active that was not. -/
theorem started_profile (pid : Nat) (w : Worker) : (started pid w).profile = w.profile := by
  rw [Worker.profile_eq_iff]
  refine ⟨rfl, rfl, ?_⟩
  rw [started]
  dsimp only
  split
  · rename_i hspawned
    rw [hspawned]
    exact ⟨rfl, rfl⟩
  · exact ⟨rfl, rfl⟩

@[simp] theorem noteSession_workers (s : State) (workerId sessionId : String) :
    (noteSession s workerId sessionId).workers = s.workers := by
  unfold noteSession
  split <;> rfl

@[simp] theorem noteSession_registry (s : State) (workerId sessionId : String) :
    (noteSession s workerId sessionId).registry = s.registry := by
  unfold noteSession
  split <;> rfl

/-- Noting a session leaves everything else that is remembered of a task alone. -/
theorem noteSession_resumeOf {α : Type} (g : Resume → α)
    (hg : ∀ r sessionId, g { r with sessionId := sessionId } = g r) (s : State)
    (workerId sessionId taskId : String) :
    g ((noteSession s workerId sessionId).resumeOf taskId) = g (s.resumeOf taskId) := by
  unfold noteSession
  split
  · rfl
  · rename_i w _
    rw [State.resumeOf, Table.get?_insert]
    split
    · rename_i hw
      rw [hw, Option.getD_some, hg]
    · rfl

/-- Noting a session leaves the cooldown of every task alone. -/
theorem noteSession_earliestRetry (s : State) (workerId sessionId taskId : String) :
    ((noteSession s workerId sessionId).resumeOf taskId).earliestRetry =
      (s.resumeOf taskId).earliestRetry :=
  noteSession_resumeOf Resume.earliestRetry (fun _ _ => rfl) s workerId sessionId taskId

end Desk

/-! ## 3. Quiet moves

One lemma for all of them. -/

/-- What decides whether a task may start is the same in both documents. -/
structure Unmoved (b c : Books) : Prop where
  kanban : c.kanban = b.kanban
  claims : c.state.registry.claims = b.state.registry.claims
  profiles : c.state.workers.map Worker.profile = b.state.workers.map Worker.profile
  cooldown : ∀ id, (c.state.resumeOf id).earliestRetry = (b.state.resumeOf id).earliestRetry

/-- A move that starts no task and ends no attempt. -/
def Move.Quiet : Move → Prop
  | .beginPass _ | .defer _ _ _ _ | .markRunning _ _ | .recordSession _ _ => True
  | _ => False

/-- **A quiet move changes nothing of weight.** -/
theorem Books.unmoved_after (b : Books) {m : Move} (hm : m.Quiet) : Unmoved b (b.after m) := by
  cases m with
  | dispatch | settle | reset | restart => exact hm.elim
  | beginPass now =>
    have hnote := State.noteTasks_eq { b.state with tick := b.state.tick + 1 } b.kanban.tasks now
    simp only [after]
    rw [hnote]
    exact ⟨rfl, rfl, rfl, fun _ => rfl⟩
  | defer taskId footprint blocking now =>
    exact ⟨rfl, Registry.enqueue_claims .., rfl, fun _ => rfl⟩
  | markRunning workerId pid =>
    exact ⟨rfl, rfl, State.map_updateFirst Worker.profile (Desk.started_profile pid) _,
      fun _ => rfl⟩
  | recordSession workerId sessionId =>
    refine ⟨rfl, ?_, ?_, Desk.noteSession_earliestRetry b.state workerId sessionId⟩
    · exact congrArg Registry.claims (Desk.noteSession_registry ..)
    · simp only [after, State.updateWorker, Desk.noteSession_workers]
      exact State.map_updateFirst Worker.profile
        (f := fun w => { w with sessionId := some sessionId }) (fun _ => rfl) _

end Foreman
