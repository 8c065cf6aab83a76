/-
# The coordinator makes the moves of a history

Histories speak of what happens to the documents; the coordinator also writes them, marks the
state with the time of its writing, and takes a dispatch back that could not be written.  None
of this leads out of a history: but for the marks, the memory of the coordinator after a command
is that after the command's move, and only a dispatch that could not be written leaves it as it
was.

So an invariant of histories is one of the coordinator.  It is enough that it does not look at
the marks, which is what `Agrees` leaves open: two states agree if they differ in `saved_at` and
in the version at most.

* `Command.move?`: the move of a command; a look at the documents and a flush are none.
* `handle_makes_move`: a command makes its move, unless it is a dispatch that is taken back.
* `Accord.handle`: so the accord holds in the memory of the coordinator.
-/
import Foreman.Proofs.History.Accord

namespace Foreman

/-- The move of a command. -/
def Command.move? (c : DeskSettings) (now : Instant) : Command → Option Move
  | .snapshot | .flush => none
  | .beginPass => some (.beginPass now)
  | .dispatch order => some (.dispatch order c.backend c.worktreeDir now)
  | .defer taskId footprint blocking => some (.defer taskId footprint blocking now)
  | .markRunning workerId pid => some (.markRunning workerId pid)
  | .recordSession workerId sessionId => some (.recordSession workerId sessionId)
  | .settle workerId outcome => some (.settle workerId outcome c.retry now)

namespace Desk

/-- What the coordinator holds in memory. -/
def books (d : Desk) : Books := ⟨d.state, d.kanban⟩

/-- The documents differ in nothing but the marks of their writing. -/
def Agrees (b c : Books) : Prop :=
  c.kanban = b.kanban ∧ (c.state = b.state ∨ ∃ now, c.state = b.state.stamped now)

/-- Nothing differs. -/
theorem Agrees.refl (b : Books) : Agrees b b := ⟨rfl, Or.inl rfl⟩

/-! ## 1. Writing

Writing changes the marks and nothing else, also if it fails half way. -/

/-- A flush changes nothing but the marks, whether or not it succeeds. -/
theorem flush_agrees (d : Desk) (now : Instant) (f : Faults) :
    Agrees d.books (d.flush now f).2.1.books := by
  have hstamp : ∀ dirty, Agrees d.books ({ d.stamp now with dirty := dirty } : Desk).books :=
    fun _ => ⟨rfl, Or.inr ⟨now, rfl⟩⟩
  unfold flush
  split
  · exact Agrees.refl _
  · exact hstamp d.dirty
  · dsimp only
    split
    · exact hstamp d.dirty
    · split <;> exact hstamp false

theorem flushThen_agrees (d : Desk) (now : Instant) (f : Faults) (reply : Reply) :
    Agrees d.books (d.flushThen now f reply).desk.books := by
  have hflush := d.flush_agrees now f
  unfold flushThen
  generalize d.flush now f = r at hflush
  obtain ⟨failure?, d', writes⟩ := r
  cases failure? <;> exact hflush

/-- Without faults both documents are written. -/
theorem flush_ok (d : Desk) (now : Instant) : (d.flush now {}).1 = none := by
  cases hdirty : d.dirty <;> simp [flush, stamp, hdirty]

/-- A dispatch is kept, or it is taken back because it could not be written. -/
theorem flushDispatch_agrees (before after : Desk) (now : Instant) (f : Faults) (reply : Reply) :
    Agrees after.books (flushDispatch before after now f reply).desk.books ∨
      f ≠ {} ∧ (flushDispatch before after now f reply).desk.books = before.books := by
  have hflush := after.flush_agrees now f
  have hok := after.flush_ok now
  unfold flushDispatch
  cases hfault : after.flush now f with
  | mk failure? r =>
    rw [hfault] at hflush
    cases failure? with
    | none => exact Or.inl hflush
    | some failure =>
      refine Or.inr ⟨fun hnone => ?_, rfl⟩
      rw [hnone] at hfault
      rw [hfault] at hok
      exact absurd hok (by simp)

/-! ## 2. Commands

The commands by their kinds.  Those that change one record are one lemma, with the change as a
parameter. -/

/-- A change of a worker's record, or a refusal that changes nothing. -/
theorem updateWorker_agrees (d : Desk) (workerId : String) (change : Worker → Worker)
    (now : Instant) (f : Faults) :
    Agrees ⟨d.state.updateWorker workerId change, d.kanban⟩
      (d.updateWorker workerId change now f).desk.books := by
  unfold Desk.updateWorker
  split
  · rename_i hnone
    have hother : ∀ w ∈ d.state.workers, w.id ≠ workerId := fun w hw => by
      simpa using List.find?_eq_none.mp hnone w hw
    have hsame : d.state.updateWorker workerId change = d.state := by
      rw [State.updateWorker, State.updateFirst_eq_self hother]
    rw [hsame]
    exact Agrees.refl _
  · exact flushThen_agrees _ now f .done

/-- **A command makes its move.**  Only a dispatch is ever taken back, and only if something keeps
the documents from being written. -/
theorem handle_makes_move (d : Desk) (c : DeskSettings) (now : Instant) (f : Faults)
    (command : Command) :
    match command.move? c now with
    | none => Agrees d.books (d.handle c now f command).desk.books
    | some m =>
      Agrees (d.books.after m) (d.handle c now f command).desk.books ∨
        (∃ order, command = .dispatch order) ∧ f ≠ {} ∧
          (d.handle c now f command).desk.books = d.books := by
  cases command with
  | snapshot => exact Agrees.refl _
  | flush => exact flushThen_agrees d now f .done
  | beginPass => exact Or.inl (flushThen_agrees _ now f _)
  | defer => exact Or.inl (flushThen_agrees _ now f _)
  | markRunning workerId pid => exact Or.inl (d.updateWorker_agrees workerId (started pid) now f)
  | recordSession workerId sessionId => exact Or.inl (updateWorker_agrees _ workerId _ now f)
  | settle workerId outcome =>
    left
    simp only [handle, books, Books.after]
    generalize d.state.settle d.kanban workerId outcome c.retry now = r
    obtain ⟨result, s, k⟩ := r
    cases result with
    | error failure => exact Agrees.refl _
    | ok effect => exact flushThen_agrees ⟨k, s, true⟩ now f _
  | dispatch o =>
    have hmove : d.books.after (.dispatch o c.backend c.worktreeDir now) =
        ⟨(d.state.dispatch d.kanban o c.backend c.worktreeDir now).2.1,
          (d.state.dispatch d.kanban o c.backend c.worktreeDir now).2.2⟩ := rfl
    simp only [Command.move?, handle, Desk.dispatch, hmove]
    generalize d.state.dispatch d.kanban o c.backend c.worktreeDir now = r
    obtain ⟨result, s, k⟩ := r
    -- started and written, put in the queue and written, or refused without a change
    split
    · rename_i hr
      cases hr
      exact (flushDispatch_agrees d ⟨k, s, true⟩ now f _).imp_right fun h => ⟨⟨o, rfl⟩, h⟩
    · rename_i hr
      cases hr
      exact (flushDispatch_agrees d ⟨k, s, d.dirty⟩ now f _).imp_right fun h => ⟨⟨o, rfl⟩, h⟩
    · rename_i hr
      cases hr
      exact Or.inl (Agrees.refl _)

end Desk

/-! ## 3. The accord in the memory of the coordinator

A command makes its move or takes it back, and the accord is kept by both. -/

/-- The accord does not look at the marks. -/
theorem Accord.of_agrees {b c : Books} (h : Accord b) (hagrees : Desk.Agrees b c) : Accord c := by
  obtain ⟨s, k⟩ := c
  obtain ⟨hk, hs⟩ := hagrees
  dsimp only at hk hs
  subst hk
  rcases hs with rfl | ⟨now, rfl⟩
  · exact h
  · exact h.of_profiles rfl rfl

/-- **Every command whose move is allowed keeps the accord**, whatever keeps the documents from
being written. -/
theorem Accord.handle {d : Desk} (h : Accord d.books) (c : DeskSettings) (now : Instant)
    (f : Faults) {command : Command}
    (hallowed : ∀ m ∈ command.move? c now, d.books.Allowed m) :
    Accord (d.handle c now f command).desk.books := by
  have hmove := d.handle_makes_move c now f command
  cases hm : command.move? c now with
  | none =>
    rw [hm] at hmove
    exact h.of_agrees hmove
  | some m =>
    rw [hm] at hmove
    rcases hmove with hagrees | ⟨-, -, hsame⟩
    · exact (h.after (hallowed m hm)).of_agrees hagrees
    · exact hsame ▸ h

end Foreman
