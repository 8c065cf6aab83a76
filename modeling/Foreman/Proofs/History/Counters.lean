/-
# How far the counters go

A few numbers of the state are counted up by one and never checked.  The tick stands in a word of
64 bits; the attempts that are remembered of a task, the iteration of a worker's record, and the
attempts and successes in a task's metrics stand in words of 32 bits.  Here all of them are
natural numbers, so what is proved of them holds of the words as long as no word has run over.
This module says how long that is.

A move counts each of them up by one at most (`Books.countsTo_after`):

* the tick, in the opening of a pass;
* the attempts of one task, in an outcome that is worth another attempt;
* the metrics of one task, in an outcome that is no cancellation;
* the iteration of one record, in a dispatch that wakes a parked worker.

A reset takes attempts away, and nothing else changes a counter.  So after `n` moves on the
documents of a first start none of them is above `n` (`Books.countsTo_play`), and a history of
fewer than `2 ^ 32` moves stays within the words (`History.withinWords`).

A state that is read from a file brings counters of its own; from there the bound is what they are
at the beginning and one for every move.  That is how `Office.countsTo_serveAll` says it of the
coordinator's commands, and `Office.withinWords` how many of them can be given before a word may
run over.  The sum of the durations in the metrics is not among the counters: it stops at the
largest word by itself.
-/
import Foreman.Proofs.Coordinator.Cabinet
import Foreman.Proofs.History.Desk
import Foreman.Proofs.History.Standing
import Foreman.Proofs.State.Liveness
import Foreman.Proofs.State.Restart

namespace Foreman

/-! ## 1. Counters of a state

A bound on all counters at once, and how each call of the coordinator moves it. -/

/-- No counter of the state is above `n`. -/
structure State.CountsTo (n : Nat) (s : State) : Prop where
  tick : s.tick ≤ n
  attempts : ∀ taskId, (s.resumeOf taskId).attempts ≤ n
  iterations : ∀ i ∈ s.workers.map Worker.iteration, i ≤ n
  metrics : ∀ taskId, ∀ m ∈ s.metrics.get? taskId, m.attempts ≤ n ∧ m.successes ≤ n

/-- Every counter of the state fits the word it stands in. -/
structure State.WithinWords (s : State) : Prop where
  tick : s.tick < Text.bound64
  attempts : ∀ taskId, (s.resumeOf taskId).attempts < Text.bound32
  iterations : ∀ w ∈ s.workers, w.iteration < Text.bound32
  metrics : ∀ taskId, ∀ m ∈ s.metrics.get? taskId,
    m.attempts < Text.bound32 ∧ m.successes < Text.bound32

namespace State.CountsTo

variable {n : Nat} {s s' : State}

/-- A bound may be taken larger. -/
theorem succ (h : s.CountsTo n) : s.CountsTo (n + 1) where
  tick := Nat.le_succ_of_le h.tick
  attempts taskId := Nat.le_succ_of_le (h.attempts taskId)
  iterations i hi := Nat.le_succ_of_le (h.iterations i hi)
  metrics taskId m hm :=
    ⟨Nat.le_succ_of_le (h.metrics taskId m hm).1, Nat.le_succ_of_le (h.metrics taskId m hm).2⟩

/-- Counters that go no further than a small number fit their words. -/
theorem withinWords (h : s.CountsTo n) (hn : n < Text.bound32) : s.WithinWords where
  tick := h.tick.trans_lt (hn.trans (by decide))
  attempts taskId := (h.attempts taskId).trans_lt hn
  iterations _ hw := (h.iterations _ (List.mem_map_of_mem hw)).trans_lt hn
  metrics taskId m hm :=
    ⟨(h.metrics taskId m hm).1.trans_lt hn, (h.metrics taskId m hm).2.trans_lt hn⟩

/-- Where the counters are the same, or attempts were taken away. -/
theorem of_le (h : s.CountsTo n) (htick : s'.tick = s.tick)
    (hattempts : ∀ taskId, (s'.resumeOf taskId).attempts ≤ (s.resumeOf taskId).attempts)
    (hworkers : s'.workers.map Worker.iteration = s.workers.map Worker.iteration)
    (hmetrics : s'.metrics = s.metrics) : s'.CountsTo n where
  tick := htick.trans_le h.tick
  attempts taskId := (hattempts taskId).trans (h.attempts taskId)
  iterations := hworkers ▸ h.iterations
  metrics := hmetrics ▸ h.metrics

/-- Workers that are given up keep their iterations. -/
theorem abandonAll (h : s.CountsTo n) (ws : List Worker) : (s.abandonAll ws).CountsTo n := by
  induction ws generalizing s with
  | nil => exact h
  | cons w ws ih =>
    refine ih (h.of_le rfl (fun _ => Nat.le_refl _) ?_ rfl)
    exact map_updateFirst Worker.iteration (f := abandoned) (fun _ => rfl) s.workers

/-- **A dispatch counts one iteration up**: that of the parked worker it wakes, or of the
new one. -/
theorem launched (h : s.CountsTo n) (task : Task) (o : Order) (backend worktreeDir : String)
    (now : Instant) : (s.launched task o backend worktreeDir now).2.CountsTo (n + 1) := by
  have hrest : (s.launched task o backend worktreeDir now).2.tick = s.tick ∧
      (s.launched task o backend worktreeDir now).2.metrics = s.metrics := by
    unfold State.launched
    dsimp only
    split <;> exact ⟨rfl, rfl⟩
  refine ⟨hrest.1.trans_le (Nat.le_succ_of_le h.tick), fun taskId => ?_, fun i hi => ?_,
    hrest.2 ▸ h.succ.metrics⟩
  · rw [resumeOf, launched_resume]
    exact Nat.le_succ_of_le (h.attempts taskId)
  · obtain ⟨w, hw, rfl⟩ := List.mem_map.mp hi
    have hkept : ∀ v ∈ s.workers, v.iteration ≤ n := fun v hv =>
      h.iterations _ (List.mem_map_of_mem hv)
    cases hretry : s.retryWorker? task.id with
    | some parked =>
      rw [launched_workers_of_some hretry] at hw
      rcases mem_of_mem_updateFirst hw with hw | ⟨v, hv, rfl⟩
      · exact Nat.le_succ_of_le (hkept w hw)
      · exact Nat.succ_le_succ (hkept v hv)
    | none =>
      rw [launched_workers_of_none hretry] at hw
      rcases List.mem_append.mp hw with hw | hw
      · exact Nat.le_succ_of_le (hkept w hw)
      · rw [List.mem_singleton.mp hw]
        exact Nat.succ_le_succ (Nat.zero_le n)

/-- The metrics of one task count one attempt more, and those of all others stay. -/
theorem metricsAfter (h : s.CountsTo n) (w : Worker) (outcome : Outcome) (retry : Config.Retry)
    (now : Instant) (taskId : String) :
    ∀ m ∈ (s.metricsAfter w outcome retry now).get? taskId,
      m.attempts ≤ n + 1 ∧ m.successes ≤ n + 1 := by
  unfold State.metricsAfter
  split
  · rw [Table.get?_insert]
    split
    · rintro m ⟨rfl⟩
      -- a task without metrics starts from zero
      have hknown : ((s.metrics.get? w.taskId).getD {}).attempts ≤ n ∧
          ((s.metrics.get? w.taskId).getD {}).successes ≤ n := by
        cases hget : s.metrics.get? w.taskId with
        | none => exact ⟨Nat.zero_le n, Nat.zero_le n⟩
        | some m => exact h.metrics _ m hget
      refine ⟨Nat.succ_le_succ hknown.1, ?_⟩
      simp only [Metrics.record]
      split
      · exact Nat.succ_le_succ hknown.2
      · exact Nat.le_succ_of_le hknown.2
    · exact h.succ.metrics taskId
  · exact h.succ.metrics taskId

/-- **An outcome counts one attempt up** at most, and that of one task. -/
theorem settled (h : s.CountsTo n) (workerId : String) (w : Worker) (outcome : Outcome)
    (retry : Config.Retry) (now : Instant) :
    (s.settled workerId w outcome retry now).CountsTo (n + 1) := by
  refine ⟨Nat.le_succ_of_le h.tick, fun taskId => ?_, fun i hi => ?_,
    h.metricsAfter w outcome retry now⟩
  · rw [settled_resumeOf]
    split
    · have hcost : outcome.cost ≤ 1 := by cases outcome <;> simp [Outcome.cost]
      rw [resumeAfter, remember_attempts]
      exact Nat.add_le_add (h.attempts w.taskId) hcost
    · exact Nat.le_succ_of_le (h.attempts taskId)
  · have hsame : (s.settled workerId w outcome retry now).workers.map Worker.iteration =
        s.workers.map Worker.iteration :=
      map_updateFirst Worker.iteration
        (f := ended (s.verdictOn w outcome retry now).2 (sessionAfter w outcome))
        (fun _ => rfl) s.workers
    exact Nat.le_succ_of_le (h.iterations i (hsame ▸ hi))

/-- A reset takes the attempts of its task away. -/
theorem forget (h : s.CountsTo n) (taskId : String) : (s.forget taskId).CountsTo n := by
  have herased : State.CountsTo n
      { s with resume := s.resume.erase taskId, registry := s.registry.dequeue taskId } := by
    refine h.of_le rfl (fun id => ?_) rfl rfl
    rw [resumeOf, Table.get?_erase]
    split
    · exact Nat.zero_le _
    · exact Nat.le_refl _
  rw [forget_eq]
  exact herased.abandonAll _

/-- A restart counts nothing. -/
theorem restoreLiveness (h : s.CountsTo n) (tasks : List Task) (alive : Nat → Bool) :
    (s.restoreLiveness tasks alive).1.CountsTo n := by
  rw [restoreLiveness_fst]
  exact h.abandonAll _

end State.CountsTo

/-! ## 2. One move, and all of a history

From one move to a history by induction over the moves. -/

namespace Books

variable {n : Nat} {b : Books}

/-- **A move counts every counter up by one at most.** -/
theorem countsTo_after (h : b.state.CountsTo n) (m : Move) :
    (b.after m).state.CountsTo (n + 1) := by
  cases m with
  | beginPass now =>
    have hnote := State.noteTasks_eq { b.state with tick := b.state.tick + 1 } b.kanban.tasks now
    simp only [after]
    rw [hnote]
    exact ⟨Nat.succ_le_succ h.tick, h.succ.attempts, h.succ.iterations, h.succ.metrics⟩
  | dispatch o backend worktreeDir now =>
    have hend := State.dispatch_end b.state b.kanban o backend worktreeDir now
    simp only [after]
    generalize b.state.dispatch b.kanban o backend worktreeDir now = r at hend
    cases hend with
    | unknown | busy => exact h.succ
    | blocked => exact h.succ.of_le rfl (fun _ => Nat.le_refl _) rfl rfl
    | started task => exact h.launched task o backend worktreeDir now
  | defer => exact h.succ.of_le rfl (fun _ => Nat.le_refl _) rfl rfl
  | markRunning workerId pid =>
    refine h.succ.of_le rfl (fun _ => Nat.le_refl _) ?_ rfl
    exact State.map_updateFirst Worker.iteration (f := Desk.started pid) (fun _ => rfl) _
  | recordSession workerId sessionId =>
    have hrest : (Desk.noteSession b.state workerId sessionId).tick = b.state.tick ∧
        (Desk.noteSession b.state workerId sessionId).metrics = b.state.metrics := by
      unfold Desk.noteSession
      split <;> exact ⟨rfl, rfl⟩
    have hattempts := Desk.noteSession_resumeOf Resume.attempts (fun _ _ => rfl) b.state workerId
      sessionId
    refine h.succ.of_le hrest.1 (fun taskId => (hattempts taskId).le) ?_ hrest.2
    simp only [after, State.updateWorker, Desk.noteSession_workers]
    exact State.map_updateFirst Worker.iteration
      (f := fun w => { w with sessionId := some sessionId }) (fun _ => rfl) _
  | settle workerId outcome retry now =>
    have hend := State.settle_end b.state b.kanban workerId outcome retry now
    simp only [after]
    generalize b.state.settle b.kanban workerId outcome retry now = r at hend
    cases hend with
    | unknown => exact h.succ
    | homeless w | settled w => exact h.settled workerId w outcome retry now
  | reset taskId =>
    cases hreset : b.state.reset b.kanban taskId with
    | error =>
      simp only [after, hreset]
      exact h.succ
    | ok r =>
      obtain ⟨t, -, -, -, hforget⟩ := State.reset_eq_ok hreset
      simp only [after, hreset, hforget]
      exact h.succ.forget taskId
  | restart alive => exact h.succ.restoreLiveness b.kanban.tasks alive

/-- **After as many moves as there were, no counter is further on than by as many.** -/
theorem countsTo_play (h : b.state.CountsTo n) (moves : List Move) :
    (b.play moves).state.CountsTo (n + moves.length) := by
  induction moves generalizing b n with
  | nil => exact h
  | cons m moves ih =>
    have hrest := ih (countsTo_after h m)
    rwa [Nat.succ_add_eq_add_succ] at hrest

/-- On a first start nothing has been counted. -/
theorem countsTo_opened (k : Kanban) (alive : Nat → Bool) :
    (opened k alive).state.CountsTo 0 := by
  have hempty : State.CountsTo 0 {} :=
    ⟨Nat.le_refl 0, fun _ => Nat.le_refl 0, fun _ hi => absurd hi List.not_mem_nil,
      fun _ _ hm => by cases hm⟩
  exact hempty.restoreLiveness k.tasks alive

end Books

/-- The documents of a history are those after its moves. -/
theorem History.play {b c : Books} {moves : List Move} (h : History b moves c) :
    c = b.play moves := by
  induction h with
  | nil => rfl
  | snoc _ _ ih =>
    rw [Books.play, List.foldl_append, ih]
    rfl

/-- **The counters stay within their words** in every history of fewer than `2 ^ 32` moves. -/
theorem History.withinWords {k : Kanban} {alive : Nat → Bool} {moves : List Move} {b : Books}
    (h : History (Books.opened k alive) moves b) (hshort : moves.length < Text.bound32) :
    b.state.WithinWords := by
  have hcounts := Books.countsTo_play (Books.countsTo_opened k alive) moves
  rw [← h.play, Nat.zero_add] at hcounts
  exact hcounts.withinWords hshort

/-! ## 3. Commands of the coordinator

A command counts like its move, also if it is taken back. -/

/-- **A command counts every counter up by one at most**, written or not. -/
theorem Desk.countsTo_handle {n : Nat} {d : Desk} (h : d.state.CountsTo n) (c : DeskSettings)
    (now : Instant) (f : Faults) (command : Command) :
    (d.handle c now f command).desk.state.CountsTo (n + 1) := by
  have hagrees : ∀ {m : Nat} {b b' : Books}, b.state.CountsTo m → Agrees b b' →
      b'.state.CountsTo m := by
    rintro m b ⟨s, k⟩ hb ⟨-, rfl | ⟨stamp, rfl⟩⟩
    · exact hb
    · exact hb.of_le rfl (fun _ => Nat.le_refl _) rfl rfl
  have hmove := d.handle_makes_move c now f command
  split at hmove
  · exact (hagrees h hmove).succ
  · rcases hmove with hmade | ⟨-, -, hback⟩
    · exact hagrees (Books.countsTo_after h _) hmade
    · have hsame : (d.handle c now f command).desk.state = d.state := congrArg Books.state hback
      exact hsame ▸ h.succ

namespace Office

/-- From what the counters are at the beginning, one for every command. -/
theorem countsTo_serveAll {n : Nat} {o : Office} (h : o.desk.state.CountsTo n) (c : DeskSettings)
    (rs : List Desk.Request) : (o.serveAll c rs).desk.state.CountsTo (n + rs.length) := by
  induction rs generalizing o n with
  | nil => exact h
  | cons r rs ih =>
    have hnext : (o.serve c r).2.desk.state.CountsTo (n + 1) :=
      Desk.countsTo_handle h c r.now r.faults r.command
    have hrest := ih hnext
    rwa [Nat.succ_add_eq_add_succ] at hrest

/-- **The counters stay within their words** as long as there are fewer commands than the largest
counter is away from `2 ^ 32`. -/
theorem withinWords {n : Nat} {o : Office} (h : o.desk.state.CountsTo n) (c : DeskSettings)
    {rs : List Desk.Request} (hshort : n + rs.length < Text.bound32) :
    (o.serveAll c rs).desk.state.WithinWords :=
  (countsTo_serveAll h c rs).withinWords hshort

end Office
end Foreman
