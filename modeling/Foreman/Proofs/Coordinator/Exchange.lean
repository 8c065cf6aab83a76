/-
# Two outcomes in either order

Workers of different tasks finish in an order nobody chooses.  Where workers and tasks have
distinct names, an outcome reads and writes its own worker's record and its own task's entries,
and what two outcomes share is the registry.

* `settled_comm`: the state after two outcomes does not depend on their order.
* `outcomes_in_either_order`: so both documents and both effects are the same in either order,
  and the same tasks are freed between the two outcomes.

The records, the remembered attempts and the metrics are tables by worker or by task, and two
outcomes write under different keys; there the proof is that two such changes may be exchanged.
The registry is different.  Releases of two workers meet in the queue: an entry that waits for
the one may be pointed at a claim of the other, and is freed by whichever comes last.  That the
queue is the same in the end is `Registry.release_comm` in `Foreman.Proofs.Footprint.Queue`.
-/
import Foreman.Proofs.Coordinator.Settle
import Foreman.Proofs.Footprint.Queue
import Foreman.Proofs.History.Frame

namespace Foreman
namespace State

/-! ## 1. One outcome

What an outcome does not read. -/

/-- A record keeps its name. -/
theorem ended_id (status : WorkerStatus) (session : Option String) (w : Worker) :
    (ended status session w).id = w.id := rfl

/-- The branch to merge depends on the footprints of the backlog alone. -/
theorem candidate?_congr {k k' : Kanban} (h : k'.plainTasks = k.plainTasks) (w : Worker)
    (workerId : String) (outcome : Outcome) (now : Instant) :
    candidate? k' w workerId outcome now = candidate? k w workerId outcome now := by
  have hfoot := Kanban.footprintOf_congr h w.taskId
  unfold candidate?
  split
  · exact congrArg (fun footprint => some (Candidate.mk _ _ _ _ footprint _)) hfoot
  · rfl

/-! ## 2. Two outcomes

Each part of the state after two outcomes, for workers of different tasks. -/

section Two

variable {s : State} {v w : Worker}

/-- Workers of different tasks have different names. -/
theorem id_ne_of_taskId_ne (hworkers : (s.workers.map Worker.id).Nodup) (hv : v ∈ s.workers)
    (hw : w ∈ s.workers) (hne : v.taskId ≠ w.taskId) : v.id ≠ w.id :=
  fun e => hne (congrArg Worker.taskId (List.inj_on_of_nodup_map hworkers hv hw e))

/-- An outcome does not change what is remembered of another task. -/
theorem resumeAfter_settled (htask : v.taskId ≠ w.taskId) (workerId : String)
    (o₁ o₂ : Outcome) (retry : Config.Retry) (t₁ t₂ : Instant) :
    (s.settled workerId v o₁ retry t₁).resumeAfter w o₂ retry t₂ = s.resumeAfter w o₂ retry t₂ := by
  rw [resumeAfter, resumeAfter, settled_resumeOf, if_neg htask.symm]

/-- Nor does it change the verdict on another task. -/
theorem verdictOn_settled (htask : v.taskId ≠ w.taskId) (workerId : String)
    (o₁ o₂ : Outcome) (retry : Config.Retry) (t₁ t₂ : Instant) :
    (s.settled workerId v o₁ retry t₁).verdictOn w o₂ retry t₂ = s.verdictOn w o₂ retry t₂ := by
  rw [verdictOn, verdictOn, resumeAfter_settled htask]

/-- An outcome does not change the metrics of another task. -/
theorem metricsAfter_get?_of_ne (htask : v.taskId ≠ w.taskId) (o : Outcome)
    (retry : Config.Retry) (now : Instant) :
    (s.metricsAfter v o retry now).get? w.taskId = s.metrics.get? w.taskId := by
  unfold metricsAfter
  split
  · rw [Table.get?_insert, if_neg htask.symm]
  · rfl

/-- Metrics are counted task by task. -/
theorem metricsAfter_settled_comm (htask : v.taskId ≠ w.taskId) (o₁ o₂ : Outcome)
    (retry : Config.Retry) (t₁ t₂ : Instant) :
    (s.settled v.id v o₁ retry t₁).metricsAfter w o₂ retry t₂ =
      (s.settled w.id w o₂ retry t₂).metricsAfter v o₁ retry t₁ := by
  have hv := metricsAfter_get?_of_ne (s := s) htask o₁ retry t₁
  have hw := metricsAfter_get?_of_ne (s := s) htask.symm o₂ retry t₂
  rw [metricsAfter, metricsAfter, verdictOn_settled htask, verdictOn_settled htask.symm]
  simp only [settled, hv, hw]
  rw [metricsAfter, metricsAfter]
  cases attemptMillis o₁ v.startedAt t₁ <;> cases attemptMillis o₂ w.startedAt t₂ <;>
    simp only [Table.insert_comm _ htask]

/-- The state after two outcomes, field by field. -/
theorem settled_settled (htask : v.taskId ≠ w.taskId) (o₁ o₂ : Outcome) (retry : Config.Retry)
    (t₁ t₂ : Instant) :
    (s.settled v.id v o₁ retry t₁).settled w.id w o₂ retry t₂ =
      { s with
        resume := (s.resume.insert v.taskId (s.resumeAfter v o₁ retry t₁)).insert w.taskId
          (s.resumeAfter w o₂ retry t₂)
        metrics := (s.settled v.id v o₁ retry t₁).metricsAfter w o₂ retry t₂
        workers :=
          updateFirst w.id (ended (s.verdictOn w o₂ retry t₂).2 (sessionAfter w o₂))
            (updateFirst v.id (ended (s.verdictOn v o₁ retry t₁).2 (sessionAfter v o₁)) s.workers)
        registry := ((s.registry.release v.id).1.release w.id).1 } := by
  conv_lhs => rw [settled, resumeAfter_settled htask, verdictOn_settled htask]
  rfl

/-- **The state after two outcomes does not depend on their order.** -/
theorem settled_comm (hid : v.id ≠ w.id) (htask : v.taskId ≠ w.taskId) (o₁ o₂ : Outcome)
    (retry : Config.Retry) (t₁ t₂ : Instant) :
    (s.settled v.id v o₁ retry t₁).settled w.id w o₂ retry t₂ =
      (s.settled w.id w o₂ retry t₂).settled v.id v o₁ retry t₁ := by
  rw [settled_settled htask, settled_settled htask.symm, metricsAfter_settled_comm htask,
    Table.insert_comm _ htask, Registry.release_comm _ hid,
    updateFirst_comm hid (ended_id _ _) (ended_id _ _)]

end Two
end State

/-- An outcome that is brought, and when. -/
structure Finish where
  workerId : String
  outcome : Outcome
  now : Instant

namespace Books

/-- Two outcomes brought one after the other: the answers, and the documents after them. -/
def settleTwo (b : Books) (retry : Config.Retry) (x y : Finish) :
    Except Failure Effect × Except Failure Effect × Books :=
  let (first, s, k) := b.state.settle b.kanban x.workerId x.outcome retry x.now
  let (second, s, k) := s.settle k y.workerId y.outcome retry y.now
  (first, second, ⟨s, k⟩)

/-- What two outcomes give, from the documents before both. -/
theorem settleTwo_eq {b : Books} (hworkers : (b.state.workers.map Worker.id).Nodup)
    (htasks : b.kanban.HasDistinctIds) {v w : Worker} (hv : v ∈ b.state.workers)
    (hw : w ∈ b.state.workers) (hvt : ∃ t ∈ b.kanban.tasks, t.id = v.taskId)
    (hwt : ∃ t ∈ b.kanban.tasks, t.id = w.taskId) (hne : v.taskId ≠ w.taskId)
    (retry : Config.Retry) (o₁ o₂ : Outcome) (t₁ t₂ : Instant) :
    b.settleTwo retry ⟨v.id, o₁, t₁⟩ ⟨w.id, o₂, t₂⟩ =
      (.ok ⟨(b.state.verdictOn v o₁ retry t₁).1, (b.state.registry.release v.id).2,
          State.candidate? b.kanban v v.id o₁ t₁⟩,
        .ok ⟨(b.state.verdictOn w o₂ retry t₂).1,
          ((b.state.registry.release v.id).1.release w.id).2,
          State.candidate? b.kanban w w.id o₂ t₂⟩,
        ⟨(b.state.settled v.id v o₁ retry t₁).settled w.id w o₂ retry t₂,
          { b.kanban with
            tasks := (b.kanban.tasks.map
              (Kanban.restatus v.taskId (b.state.verdictOn v o₁ retry t₁).1)).map
              (Kanban.restatus w.taskId (b.state.verdictOn w o₂ retry t₂).1) }⟩) := by
  have hid := State.id_ne_of_taskId_ne hworkers hv hw hne
  have hfindv : b.state.worker? v.id = some v := (State.worker?_eq_some_iff hworkers).mpr ⟨hv, rfl⟩
  have hfindw : (b.state.settled v.id v o₁ retry t₁).worker? w.id = some w :=
    (State.find?_updateFirst_of_ne hid (State.ended_id _ _) b.state.workers).trans
      ((State.worker?_eq_some_iff hworkers).mpr ⟨hw, rfl⟩)
  -- the backlog after the first outcome differs from the one before it in one status
  have hplain := b.kanban.plainTasks_restatus v.taskId (b.state.verdictOn v o₁ retry t₁).1
  have htasks' := htasks.of_plainTasks_eq hplain
  have hwt' : ∃ t ∈ b.kanban.tasks.map
      (Kanban.restatus v.taskId (b.state.verdictOn v o₁ retry t₁).1), t.id = w.taskId := by
    obtain ⟨t, ht, htw⟩ := hwt
    exact ⟨_, List.mem_map_of_mem ht, (Kanban.restatus_id ..).trans htw⟩
  simp only [settleTwo, State.settle_eq hfindv htasks hvt, State.settle_eq hfindw htasks' hwt',
    State.verdictOn_settled hne]
  rw [State.candidate?_congr hplain,
    State.candidate?_congr ((Kanban.plainTasks_restatus _ _ _).trans hplain)]
  rfl

end Books

/-- **The order in which two workers finish does not matter.**  Take two workers of different tasks
of the backlog and any outcomes of theirs, each with its own time.  Brought in either order they
give the same documents, the same task status and the same branch to merge for each of the two, and
free the same tasks between them. -/
theorem outcomes_in_either_order {b : Books} (hworkers : (b.state.workers.map Worker.id).Nodup)
    (htasks : b.kanban.HasDistinctIds) {v w : Worker} (hv : v ∈ b.state.workers)
    (hw : w ∈ b.state.workers) (hvt : ∃ t ∈ b.kanban.tasks, t.id = v.taskId)
    (hwt : ∃ t ∈ b.kanban.tasks, t.id = w.taskId) (hne : v.taskId ≠ w.taskId)
    (retry : Config.Retry) (o₁ o₂ : Outcome) (t₁ t₂ : Instant) :
    ∃ e₁ e₂ f₁ f₂ : Effect, ∃ after : Books,
      b.settleTwo retry ⟨v.id, o₁, t₁⟩ ⟨w.id, o₂, t₂⟩ = (.ok e₁, .ok e₂, after) ∧
      b.settleTwo retry ⟨w.id, o₂, t₂⟩ ⟨v.id, o₁, t₁⟩ = (.ok f₂, .ok f₁, after) ∧
      (e₁.taskStatus = f₁.taskStatus ∧ e₁.merge = f₁.merge) ∧
      (e₂.taskStatus = f₂.taskStatus ∧ e₂.merge = f₂.merge) ∧
      (e₁.freed ++ e₂.freed).Perm (f₂.freed ++ f₁.freed) := by
  have hid := State.id_ne_of_taskId_ne hworkers hv hw hne
  have hfirst := Books.settleTwo_eq hworkers htasks hv hw hvt hwt hne retry o₁ o₂ t₁ t₂
  have hsecond := Books.settleTwo_eq hworkers htasks hw hv hwt hvt hne.symm retry o₂ o₁ t₂ t₁
  rw [← State.settled_comm hid hne, ← Kanban.map_restatus_comm hne] at hsecond
  exact ⟨_, _, _, _, _, hfirst, hsecond, ⟨rfl, rfl⟩, ⟨rfl, rfl⟩,
    b.state.registry.release_freed_perm hid⟩

namespace Sample

/-- Two tasks are in progress, and the third one waits for the first while the second is in its way
as well. -/
def contended : Books :=
  busy.after (.defer "T-3" ["src/lib", "docs/guide"]
    ⟨"worker-T-1-1728043200", "T-1", "src"⟩ noon)

/-- The worker of the first task. -/
def first : Worker := contended.state.workers.headD default

/-- The worker of the second task. -/
def second : Worker := (contended.state.workers.drop 1).headD default

/-- The first task is done, and then the attempt at the second one is cancelled. -/
def firstThenSecond : Except Failure Effect × Except Failure Effect × Books :=
  contended.settleTwo {} ⟨first.id, .succeeded "" none true ⟨0⟩, noon⟩
    ⟨second.id, .cancelled none, noon⟩

/-- The same the other way round. -/
def secondThenFirst : Except Failure Effect × Except Failure Effect × Books :=
  contended.settleTwo {} ⟨second.id, .cancelled none, noon⟩
    ⟨first.id, .succeeded "" none true ⟨0⟩, noon⟩

end Sample

/-- The task that waits is pointed at whoever of the two is still at work, and comes free with the
second outcome in either order. -/
theorem contended_in_either_order :
    Sample.firstThenSecond.2.2 = Sample.secondThenFirst.2.2 ∧
      (Sample.firstThenSecond.1.map Effect.freed = .ok [] ∧
        Sample.firstThenSecond.2.1.map Effect.freed = .ok ["T-3"]) ∧
      (Sample.secondThenFirst.1.map Effect.freed = .ok [] ∧
        Sample.secondThenFirst.2.1.map Effect.freed = .ok ["T-3"]) := by
  obtain ⟨e₁, e₂, f₁, f₂, after, hfirst, hsecond, -⟩ :=
    outcomes_in_either_order (b := Sample.contended) (v := Sample.first) (w := Sample.second)
      (by decide +kernel) (by decide +kernel) (by decide +kernel) (by decide +kernel)
      (by decide +kernel) (by decide +kernel) (by decide +kernel) {}
      (.succeeded "" none true ⟨0⟩) (.cancelled none) Sample.noon Sample.noon
  have hsame : Sample.firstThenSecond.2.2 = Sample.secondThenFirst.2.2 := by
    rw [Sample.firstThenSecond, Sample.secondThenFirst, hfirst, hsecond]
  exact ⟨hsame, by decide +kernel, by decide +kernel⟩

end Foreman
