/-
# What becomes of done and failed tasks

Done and failed are meant to be final, and the coordinator has no command that resets a task.
But it sets statuses in two places, and neither looks at the status that was there:
`apply_dispatch` checks an order against the task's workers and the claims, and `apply_outcome`
takes an outcome from any worker that is known.

* `status_changes_iff`: a command changes the status of a done or failed task exactly if it is
  an order that starts the task again, or an outcome of one of its workers with another verdict.
* `final_status_kept_iff`: so the task keeps its status through any commands exactly if none of
  them is of that kind when its turn comes.
* `second_outcome_reopens`: an outcome that is brought twice, the second time as a cancellation,
  puts a done task back to pending.

Nothing is asked of the coordinator's documents here; they need not be reachable.  The verdict
of an attempt that is worth another one depends on how many were made, which is a number without
bound.  It is what the word of 32 bits in the documents says as long as that has not run over;
`Foreman.Proofs.History.Counters` tells how many commands that takes.
-/
import Foreman.Proofs.Coordinator.Cabinet
import Foreman.Proofs.History.Desk
import Foreman.Proofs.History.Standing

namespace Foreman

/-! ## 1. Commands that put a task in another status

`Desk.reopens` is decided on the documents before the command, so it can be asked of each
command in turn. -/

namespace Desk

/-- The request puts a task with that final status in another one: it is an order for the task,
which has no active worker and whose footprint is free, and it can be written; or it is an outcome
of one of the task's workers, and the verdict is another one. -/
def reopens (c : DeskSettings) (d : Desk) (taskId : String) (status : TaskStatus) (r : Request) :
    Bool :=
  match r.command with
  | .dispatch o =>
    o.taskId = taskId && !d.state.hasActiveWorker taskId &&
      (d.state.registry.findConflict (d.kanban.footprintOf taskId)).isNone && r.faults = {}
  | .settle workerId outcome =>
    match d.state.worker? workerId with
    | some w => w.taskId = taskId && (d.state.verdictOn w outcome c.retry r.now).1 ≠ status
    | none => false
  | _ => false

variable {c : DeskSettings} {d : Desk} {taskId : String} {status : TaskStatus}

/-- What is dirty is written exactly if nothing keeps the documents from being written. -/
theorem flush_eq_none_iff (hdirty : d.dirty = true) (now : Instant) (f : Faults) :
    (d.flush now f).1 = none ↔ f = {} := by
  obtain ⟨directory, stage, board, commit⟩ := f
  constructor
  · intro h
    cases directory <;> cases stage <;> cases board <;> cases commit <;>
      simp_all [flush, stamp]
  · intro h
    rw [h]
    exact d.flush_ok now

/-- A flush leaves the backlog in memory as it is. -/
theorem flushThen_kanban (d : Desk) (now : Instant) (f : Faults) (reply : Reply) :
    (d.flushThen now f reply).desk.kanban = d.kanban := (d.flushThen_agrees now f reply).1

/-- A dispatch is kept exactly if nothing keeps the documents from being written. -/
theorem flushDispatch_kanban {before after : Desk} (hdirty : after.dirty = true) (now : Instant)
    (f : Faults) (reply : Reply) :
    (flushDispatch before after now f reply).desk.kanban =
      if f = {} then after.kanban else before.kanban := by
  have hflush := after.flush_agrees now f
  have hnone := flush_eq_none_iff hdirty now f
  unfold flushDispatch
  generalize after.flush now f = r at hflush hnone
  obtain ⟨failure?, d', writes⟩ := r
  cases failure? with
  | none =>
    rw [if_pos (hnone.mp rfl)]
    exact hflush.1
  | some failure => rw [if_neg fun h => by cases hnone.mpr h]

/-! ## 2. One command

An order and an outcome, one lemma each; no other command touches the backlog. -/

/-- An order changes the status of a task exactly if it starts the task and is written. -/
theorem dispatch_changes_iff (hstatus : d.kanban.statusOf? taskId = some status)
    (hfinal : status.isTerminal = true) (o : Order) (now : Instant) (f : Faults) :
    (d.handle c now f (.dispatch o)).desk.kanban.statusOf? taskId ≠ some status ↔
      d.reopens c taskId status ⟨.dispatch o, now, f⟩ = true := by
  have hend := State.dispatch_end d.state d.kanban o c.backend c.worktreeDir now
  have hprogress : status ≠ .inProgress := by
    rintro rfl
    cases hfinal
  simp only [handle, dispatch, reopens, Bool.and_eq_true, decide_eq_true_eq,
    Bool.not_eq_true', Option.isNone_iff_eq_none]
  generalize d.state.dispatch d.kanban o c.backend c.worktreeDir now = r at hend
  cases hend with
  | unknown hnone =>
    have hother : o.taskId ≠ taskId := by
      rintro rfl
      rw [Kanban.statusOf?, hnone] at hstatus
      cases hstatus
    simp [hstatus, hother]
  | busy task hfind hbusy =>
    rw [(Kanban.find?_mem hfind).2] at hbusy
    refine iff_of_false (by simp [hstatus]) ?_
    rintro ⟨⟨⟨rfl, hidle⟩, -⟩, -⟩
    cases hidle.symm.trans hbusy
  | blocked task held hfind hidle hheld =>
    refine iff_of_false ?_ ?_
    · -- neither the waiting task nor its being taken back touches the backlog
      dsimp only
      rcases flushDispatch_agrees d { d with state := _ } now f _ with hagrees | ⟨-, hsame⟩
      · exact fun h => h ((congrArg (Kanban.statusOf? · taskId) hagrees.1).trans hstatus)
      · exact fun h => h ((congrArg (fun b : Books => b.kanban.statusOf? taskId) hsame).trans
          hstatus)
    · rintro ⟨⟨⟨rfl, -⟩, hfree⟩, -⟩
      rw [Kanban.footprintOf_eq hfind, hheld] at hfree
      cases hfree
  | started task k' hfind hidle hfree hset =>
    obtain ⟨-, htaskId⟩ := Kanban.find?_mem hfind
    rw [flushDispatch_kanban rfl, apply_ite (Kanban.statusOf? · taskId),
      Kanban.statusOf?_setStatus hset, hstatus, htaskId]
    rw [htaskId] at hidle
    -- the task is in progress now, if the documents could be written and the order is for it
    by_cases hf : f = {}
    · by_cases htask : o.taskId = taskId
      · subst htask
        rw [← Kanban.footprintOf_eq hfind] at hfree
        simp [hf, hidle, hfree, Ne.symm hprogress]
      · simp [hf, htask, Ne.symm htask]
    · simp [hf]

/-- An outcome changes it exactly if it is that of one of the task's workers and the verdict is
another status, whether or not it can be written. -/
theorem settle_changes_iff (hstatus : d.kanban.statusOf? taskId = some status)
    (workerId : String) (outcome : Outcome) (now : Instant) (f : Faults) :
    (d.handle c now f (.settle workerId outcome)).desk.kanban.statusOf? taskId ≠ some status ↔
      d.reopens c taskId status ⟨.settle workerId outcome, now, f⟩ = true := by
  have hend := State.settle_end d.state d.kanban workerId outcome c.retry now
  simp only [handle, reopens]
  generalize d.state.settle d.kanban workerId outcome c.retry now = r at hend
  cases hend with
  | unknown hnone => simp [hstatus, hnone]
  | homeless w reason hw hfail =>
    have hother : w.taskId ≠ taskId := by
      rintro rfl
      obtain ⟨t, ht, -⟩ := Option.map_eq_some_iff.mp hstatus
      obtain ⟨k', hk'⟩ := Kanban.exists_setStatus (Kanban.find?_mem ht)
        (d.state.verdictOn w outcome c.retry now).1
      cases hfail.symm.trans hk'
    simp [hstatus, hw, hother]
  | settled w k' hw hset =>
    dsimp only
    rw [flushThen_kanban, Kanban.statusOf?_setStatus hset, hw]
    by_cases htask : w.taskId = taskId
    · simp [htask]
    · simp [htask, Ne.symm htask, hstatus]

/-- **A command changes the status of a done or failed task exactly if it reopens it.** -/
theorem status_changes_iff (hstatus : d.kanban.statusOf? taskId = some status)
    (hfinal : status.isTerminal = true) (r : Request) :
    (d.handle c r.now r.faults r.command).desk.kanban.statusOf? taskId ≠ some status ↔
      d.reopens c taskId status r = true := by
  obtain ⟨command, now, f⟩ := r
  -- the other commands leave the backlog alone, and none of them reopens a task
  have hstill : (d.handle c now f command).desk.kanban = d.kanban →
      d.reopens c taskId status ⟨command, now, f⟩ = false →
      ((d.handle c now f command).desk.kanban.statusOf? taskId ≠ some status ↔
        d.reopens c taskId status ⟨command, now, f⟩ = true) := by
    intro hkanban hnot
    rw [hkanban, hstatus, hnot]
    simp
  cases command with
  | dispatch o => exact dispatch_changes_iff hstatus hfinal o now f
  | settle workerId outcome => exact settle_changes_iff hstatus workerId outcome now f
  | snapshot => exact hstill rfl rfl
  | flush | beginPass | defer => exact hstill (flushThen_kanban _ now f _) rfl
  | markRunning workerId pid =>
    exact hstill (d.updateWorker_agrees workerId (started pid) now f).1 rfl
  | recordSession workerId sessionId => exact hstill (updateWorker_agrees _ workerId _ now f).1 rfl

end Desk

/-! ## 3. All commands

If every command keeps the status, none reopens the task; and the first one that changes it is
one that does. -/

namespace Office

theorem serveAll_take_succ (c : DeskSettings) (o : Office) (rs : List Desk.Request) {n : Nat}
    (hn : n < rs.length) :
    o.serveAll c (rs.take (n + 1)) = ((o.serveAll c (rs.take n)).serve c rs[n]).2 := by
  rw [serveAll, List.take_add_one, List.getElem?_eq_getElem hn, Option.toList_some,
    List.foldl_append]
  rfl

end Office

/-- **A done or failed task stays so exactly as long as nothing reopens it.**  Take any coordinator,
any files, any commands with what keeps the documents from being written meanwhile, and a task that
is done or failed at the start.  It has the same status after every command exactly if no command
reopens it: no order starts it again, and no outcome of one of its workers, first or repeated,
brings another verdict. -/
theorem final_status_kept_iff (c : DeskSettings) (o : Office) (rs : List Desk.Request)
    {taskId : String} {status : TaskStatus} (hstatus : o.desk.kanban.statusOf? taskId = some status)
    (hfinal : status.isTerminal = true) :
    (∀ n ≤ rs.length, (o.serveAll c (rs.take n)).desk.kanban.statusOf? taskId = some status) ↔
      ∀ n (hn : n < rs.length),
        (o.serveAll c (rs.take n)).desk.reopens c taskId status rs[n] = false := by
  constructor
  · intro hkept n hn
    by_contra hreopens
    rw [Bool.not_eq_false, ← Desk.status_changes_iff (hkept n (Nat.le_of_lt hn)) hfinal] at hreopens
    refine hreopens ?_
    have hnext := hkept (n + 1) hn
    rwa [Office.serveAll_take_succ c o rs hn] at hnext
  · intro hnever n
    induction n with
    | zero => exact fun _ => hstatus
    | succ n ih =>
      intro hn
      have hkept := ih (Nat.le_of_lt hn)
      rw [Office.serveAll_take_succ c o rs hn]
      by_contra hchanged
      have hreopens := (Desk.status_changes_iff hkept hfinal rs[n]).mp hchanged
      rw [hnever n hn] at hreopens
      cases hreopens

namespace Sample

/-- The first task was dispatched and is done. -/
def finished : Office := (Office.opened board {} none).serveAll settings [hire, report {}]

/-- The worker of the first task is said to have been cancelled. -/
def giveUp : Desk.Request where
  command := .settle firstOrder.workerId (.cancelled none)
  now := noon

/-- A second order for the first task, which cannot be written. -/
def hireStuck : Desk.Request := { hire with faults := stuck }

end Sample

/-- The task stays done when its success is reported again and when an order for it is taken
back. -/
theorem repeated_success_keeps_status :
    Sample.finished.desk.kanban.statusOf? "T-1" = some .done ∧
      (Sample.finished.serveAll Sample.settings
          [Sample.report {}, Sample.hireStuck]).desk.kanban.statusOf? "T-1" = some .done := by
  have hdone : Sample.finished.desk.kanban.statusOf? "T-1" = some .done := by decide +kernel
  have hkept := (final_status_kept_iff Sample.settings Sample.finished
    [Sample.report {}, Sample.hireStuck] hdone rfl).mpr (by decide +kernel)
  exact ⟨hdone, hkept 2 (by decide)⟩

/-- **A second outcome reopens a done task**: its worker has succeeded, and is then said to have
been cancelled.  So does a second order, which the coordinator accepts as well. -/
theorem second_outcome_reopens :
    Sample.finished.desk.kanban.statusOf? "T-1" = some .done ∧
      (Sample.finished.serve Sample.settings Sample.giveUp).2.desk.kanban.statusOf? "T-1" =
        some .pending ∧
      (Sample.finished.serve Sample.settings Sample.hire).2.desk.kanban.statusOf? "T-1" =
        some .inProgress := by
  decide +kernel

end Foreman
