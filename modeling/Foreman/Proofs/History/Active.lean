/-
# Which workers a command leaves active

The documented limit is one on active records, and this module follows their names through the
commands of the coordinator.  Where names are distinct, a command does one of three things to them:

* a dispatch that is accepted adds the name of its ticket, and one that is refused or taken back
  leaves them as they are (`Desk.dispatch_activeIds`);
* an outcome of an active worker takes that worker's name away (`Desk.settle_activeIds`);
* every other command leaves them as they are (`Desk.quiet_activeIds`).

Up to order, that is: a woken worker has its name in the place of its record, a new one at the end.

The limit is checked by the run loop against its own workers and not against the records.  So
what is said here of names, and not only of their number, is what connects the two: a worker
that the loop waits for is one whose name stands among the active ones
(`Foreman.Proofs.Run.Flights`).
-/
import Foreman.Proofs.History.Desk
import Foreman.Proofs.History.Quiet

namespace Foreman

/-! ## 1. The names of the active workers

A list of records is followed through the change of one of them.  The change is made to the
first record of its name, which is why the names have to be distinct in what follows. -/

/-- The names of the active workers of a list. -/
def activeNames (ws : List Worker) : List String :=
  (ws.filter fun w => w.status.isActive).map Worker.id

section Lists

variable {ws : List Worker} {w : Worker}

/-- A name stands among them if some record of that name is active. -/
theorem mem_activeNames {workerId : String} :
    workerId ∈ activeNames ws ↔ ∃ w ∈ ws, w.id = workerId ∧ w.status.isActive = true := by
  simp only [activeNames, List.mem_map, List.mem_filter]
  exact ⟨fun ⟨w, ⟨hw, hactive⟩, hid⟩ => ⟨w, hw, hid, hactive⟩,
    fun ⟨w, hw, hid, hactive⟩ => ⟨w, ⟨hw, hactive⟩, hid⟩⟩

/-- An active worker stands somewhere among the names. -/
theorem activeNames_middle (hactive : w.status.isActive = true) (before after : List Worker) :
    (activeNames (before ++ w :: after)).Perm (w.id :: activeNames (before ++ after)) := by
  have hrest : activeNames (w :: (before ++ after)) = w.id :: activeNames (before ++ after) := by
    simp [activeNames, hactive]
  rw [← hrest]
  exact (List.perm_middle.filter _).map Worker.id

/-- Any other worker does not. -/
theorem activeNames_skip (hinactive : w.status.isActive = false) (before after : List Worker) :
    activeNames (before ++ w :: after) = activeNames (before ++ after) := by
  simp [activeNames, hinactive]

/-- The names of the active workers are decided by the profiles. -/
theorem activeNames_of_profiles {ws' : List Worker}
    (h : ws'.map Worker.profile = ws.map Worker.profile) : activeNames ws' = activeNames ws := by
  have hprofiles : ∀ ws : List Worker, activeNames ws =
      ((ws.map Worker.profile).filter fun p => p.2.2.1).map Prod.fst := by
    intro ws
    rw [activeNames, List.filter_map, List.map_map]
    rfl
  rw [hprofiles, hprofiles, h]

end Lists

namespace State

/-- The names of the active workers. -/
def activeIds (s : State) : List String := activeNames s.workers

/-- The number that the documented limit is one on (`active_worker_count`). -/
theorem activeCount_eq (s : State) : s.activeCount = s.activeIds.length := by
  rw [activeCount, activeIds, activeNames, List.length_map, List.countP_eq_length_filter]

variable {s : State} {workerId : String} {w : Worker} {f : Worker → Worker}

/-- A record that becomes active adds its name. -/
theorem activeNames_rise (hw : s.worker? workerId = some w) (hid : (f w).id = w.id)
    (hbefore : w.status.isActive = false) (hafter : (f w).status.isActive = true) :
    (activeNames (updateFirst workerId f s.workers)).Perm (w.id :: s.activeIds) := by
  obtain ⟨before, after, hws, -, hupdate⟩ := exists_updateFirst hw f
  rw [activeIds, hupdate, hws, activeNames_skip hbefore, ← hid]
  exact activeNames_middle hafter before after

/-- A record that ceases to be active takes its name away. -/
theorem activeNames_fall (hw : s.worker? workerId = some w)
    (hbefore : w.status.isActive = true) (hafter : (f w).status.isActive = false) :
    s.activeIds.Perm (w.id :: activeNames (updateFirst workerId f s.workers)) := by
  obtain ⟨before, after, hws, -, hupdate⟩ := exists_updateFirst hw f
  rw [activeIds, hupdate, hws, activeNames_skip hafter]
  exact activeNames_middle hbefore before after

/-- **A started task adds the name of its worker.** -/
theorem launched_activeIds (hdistinct : (s.workers.map Worker.id).Nodup) (task : Task) (o : Order)
    (backend worktreeDir : String) (now : Instant) :
    (s.launched task o backend worktreeDir now).2.activeIds.Perm
      ((s.launched task o backend worktreeDir now).1.id :: s.activeIds) := by
  rw [launched_id, workerFor, activeIds]
  cases hretry : s.retryWorker? task.id with
  | none =>
    rw [launched_workers_of_none hretry, activeIds]
    have hnew : (recruit o.workerId task.id backend worktreeDir now).status.isActive = true := rfl
    have hlast := activeNames_middle hnew s.workers []
    rw [List.append_nil] at hlast
    exact hlast
  | some waiting =>
    obtain ⟨hmem, -, hstatus⟩ := retryWorker?_mem hretry
    have hfirst : s.worker? waiting.id = some waiting :=
      (worker?_eq_some_iff hdistinct).mpr ⟨hmem, rfl⟩
    rw [launched_workers_of_some hretry]
    exact activeNames_rise hfirst rfl (by rw [hstatus]; rfl) rfl

/-- **An outcome of an active worker takes its name away.** -/
theorem settled_activeIds (hw : s.worker? workerId = some w)
    (hactive : w.status.isActive = true) (outcome : Outcome) (retry : Config.Retry)
    (now : Instant) :
    s.activeIds.Perm (workerId :: (s.settled workerId w outcome retry now).activeIds) := by
  have hfall := activeNames_fall hw hactive (f := ended (s.verdictOn w outcome retry now).2
    (sessionAfter w outcome)) (verdict_worker_inactive outcome _ retry)
  rw [(worker?_mem hw).2] at hfall
  exact hfall

end State

/-! ## 2. Commands

A command is followed from its move to its writing.  What is written does not matter for the
names, unless a dispatch is taken back because it could not be. -/

namespace Desk

variable {d : Desk} {c : DeskSettings} {now : Instant} {f : Faults}

theorem Agrees.activeIds {b b' : Books} (h : Agrees b b') :
    b'.state.activeIds = b.state.activeIds := by
  rcases h.2 with heq | ⟨moment, heq⟩
  · rw [heq]
  · rw [heq]
    rfl

/-- A command that neither dispatches nor settles leaves the active workers as they are. -/
theorem quiet_activeIds {command : Command} (hquiet : ∀ m ∈ command.move? c now, m.Quiet) :
    (d.handle c now f command).desk.state.activeIds = d.state.activeIds := by
  have hmove := d.handle_makes_move c now f command
  cases hm : command.move? c now with
  | none =>
    rw [hm] at hmove
    exact hmove.activeIds
  | some m =>
    rw [hm] at hmove
    rcases hmove with hagrees | ⟨-, -, hsame⟩
    · have hstill := (d.books.unmoved_after (hquiet m hm)).profiles
      exact hagrees.activeIds.trans (activeNames_of_profiles hstill)
    · exact congrArg (fun b : Books => b.state.activeIds) hsame

/-- A dispatch is written and answered, or it is taken back and refused. -/
theorem flushDispatch_end (before after : Desk) (now : Instant) (f : Faults) (reply : Reply) :
    (flushDispatch before after now f reply).reply = reply ∧
        Agrees after.books (flushDispatch before after now f reply).desk.books ∨
      (∃ failure, (flushDispatch before after now f reply).reply = .refused failure) ∧
        (flushDispatch before after now f reply).desk.books = before.books := by
  have hflush := after.flush_agrees now f
  unfold flushDispatch
  generalize after.flush now f = r at hflush
  obtain ⟨failure?, d', writes⟩ := r
  cases failure? with
  | none => exact Or.inl ⟨rfl, hflush⟩
  | some failure => exact Or.inr ⟨⟨_, rfl⟩, rfl⟩

/-- **A dispatch that is accepted adds the name of its ticket**, and no other changes anything. -/
theorem dispatch_activeIds (hdistinct : (d.state.workers.map Worker.id).Nodup) (c : DeskSettings)
    (now : Instant) (f : Faults) (o : Order) :
    (∃ ticket, (d.handle c now f (.dispatch o)).reply = .ticket ticket ∧
        (d.handle c now f (.dispatch o)).desk.state.activeIds.Perm
          (ticket.worker.id :: d.state.activeIds)) ∨
      (∀ ticket, (d.handle c now f (.dispatch o)).reply ≠ .ticket ticket) ∧
        (d.handle c now f (.dispatch o)).desk.state.activeIds = d.state.activeIds := by
  have hend := State.dispatch_end d.state d.kanban o c.backend c.worktreeDir now
  simp only [handle, dispatch]
  generalize d.state.dispatch d.kanban o c.backend c.worktreeDir now = r at hend
  cases hend with
  | unknown | busy => exact Or.inr ⟨by simp, rfl⟩
  | blocked task held hfind hidle hheld =>
    right
    rcases flushDispatch_end d _ now f _ with ⟨hreply, hagrees⟩ | ⟨⟨failure, hreply⟩, hsame⟩
    · exact ⟨by simp [hreply], hagrees.activeIds⟩
    · exact ⟨by simp [hreply], congrArg (fun b : Books => b.state.activeIds) hsame⟩
  | started task k' hfind hidle hfree hset =>
    rcases flushDispatch_end d _ now f _ with ⟨hreply, hagrees⟩ | ⟨⟨failure, hreply⟩, hsame⟩
    · have hstarted := State.launched_activeIds hdistinct task o c.backend c.worktreeDir now
      exact Or.inl ⟨_, hreply, (List.Perm.of_eq hagrees.activeIds).trans hstarted⟩
    · right
      exact ⟨by simp [hreply], congrArg (fun b : Books => b.state.activeIds) hsame⟩

/-- **An outcome of an active worker takes its name away**, whether or not it is refused. -/
theorem settle_activeIds (hdistinct : (d.state.workers.map Worker.id).Nodup) (c : DeskSettings)
    (now : Instant) (f : Faults) {workerId : String} (hactive : workerId ∈ d.state.activeIds)
    (outcome : Outcome) :
    d.state.activeIds.Perm
      (workerId :: (d.handle c now f (.settle workerId outcome)).desk.state.activeIds) := by
  obtain ⟨w, hw, hid, hactive⟩ := mem_activeNames.mp hactive
  have hfirst : d.state.worker? workerId = some w :=
    (State.worker?_eq_some_iff hdistinct).mpr ⟨hw, hid⟩
  have hsettled := State.settled_activeIds hfirst hactive outcome c.retry now
  have hagrees : Agrees (d.books.after (.settle workerId outcome c.retry now))
      (d.handle c now f (.settle workerId outcome)).desk.books :=
    (d.handle_makes_move c now f (.settle workerId outcome)).resolve_right
      (fun ⟨⟨o, ho⟩, _⟩ => by cases ho)
  have hsame : (d.handle c now f (.settle workerId outcome)).desk.state.activeIds =
      (d.state.settle d.kanban workerId outcome c.retry now).2.1.activeIds := hagrees.activeIds
  have hend := State.settle_end d.state d.kanban workerId outcome c.retry now
  rw [hsame]
  generalize d.state.settle d.kanban workerId outcome c.retry now = r at hend
  cases hend with
  | unknown hnone => cases hfirst.symm.trans hnone
  | homeless v reason hv | settled v k' hv =>
    cases hfirst.symm.trans hv
    exact hsettled

end Desk
end Foreman
