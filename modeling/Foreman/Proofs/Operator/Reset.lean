/-
# A reset that fails half-way

The operator's reset writes the state, and then the backlog.  The coordinator stages the state first
and puts it in place only after the backlog was written; here the state is in place before the
backlog is tried.  A backlog that cannot be written then keeps the task as failed or blocked, beside
a state that has forgotten it.

* `resetAndWrite_end`: the four ends of a reset, for any documents and any faults.
* `resetHeld_eq`: the command comes to such an end, with the faults of the tree it works on.
* `failed_reset_keeps_files_iff`: a reset that fails leaves the files as they were, unless it ends
  between the two writes; one that succeeds has written both.

The documents are those of a cabinet, and the faults are any that the writes may meet; which of
them a tree of files has is `Documents.faults`.
-/
import Foreman.Operator.Reset
import Foreman.Proofs.History.Recovery

namespace Foreman

/-! ## 1. What a reset needs

The task may be reset, and the state can be written. -/

/-- The task has failed or is blocked. -/
def Kanban.MayReset (k : Kanban) (taskId : String) : Prop :=
  ∃ t, k.find? taskId = some t ∧ (t.status = .failed ∨ t.status = .blocked)

/-- Nothing keeps the state from being written. -/
def Faults.SpareState (f : Faults) : Prop :=
  f.directory = none ∧ f.stage = none ∧ f.commit = none

theorem State.reset_eq_ok_of_mayReset {k : Kanban} {taskId : String} (h : k.MayReset taskId)
    (s : State) : ∃ k', s.reset k taskId = .ok (s.forget taskId, k') := by
  obtain ⟨t, hfind, hstatus⟩ := h
  obtain ⟨k', hset⟩ := Kanban.exists_setStatus (Kanban.find?_mem hfind) .pending
  refine ⟨k', ?_⟩
  simp only [reset, hfind, Bool.or_eq_true, decide_eq_true_eq, if_pos hstatus, hset]
  rfl

theorem State.mayReset_of_reset_eq_ok {s : State} {k : Kanban} {taskId : String}
    {r : State × Kanban} (h : s.reset k taskId = .ok r) : k.MayReset taskId := by
  obtain ⟨t, hfind, hstatus, -⟩ := reset_eq_ok h
  exact ⟨t, hfind, hstatus⟩

section Writes

variable {f : Faults} {s : State} {k : Kanban}

theorem writeBoth_of_not_spareState (h : ¬ f.SpareState) :
    ∃ reason, writeBoth f s k = (some (.statePersistence reason), []) := by
  unfold writeBoth
  split
  · exact ⟨_, rfl⟩
  · rename_i hnone
    simp only [Option.orElse_eq_orElse, Option.orElse_eq_or, Option.or_eq_none_iff] at hnone
    exact absurd hnone h

theorem writeBoth_of_spareState (h : f.SpareState) :
    writeBoth f s k =
      match f.board with
      | some reason => (some (.kanban reason), [.state s])
      | none => (none, [.state s, .board k]) := by
  obtain ⟨hdirectory, hstage, hcommit⟩ := h
  simp only [writeBoth, hdirectory, hstage, hcommit]
  rfl

end Writes

/-! ## 2. The ends of a reset

By the two tests and the two writes, in their order. -/

namespace Cabinet

variable (x : Cabinet) (taskId : String) (now : Instant) (f : Faults)

/-- The documents that a reset is to write. -/
def resetBooks : Books :=
  let b := x.books.after (.reset taskId)
  ⟨b.state.stamped now, b.kanban⟩

/-- The operator's reset: its answer, and the files after it. -/
def resetTask : Except String Unit × Cabinet :=
  ((x.books.state.resetAndWrite x.board taskId now f).1, x.putAll (x.resetWrites taskId now f))

/-- The ends of a reset: the answer, and what was written. -/
inductive ResetEnd : Except String Unit × List Write → Prop
  /-- The backlog does not allow it. -/
  | refused (reason : String) : ¬ x.board.MayReset taskId → ResetEnd (.error reason, [])
  /-- The state was not written, and the backlog was not tried. -/
  | unwritten (reason : String) : ¬ f.SpareState → ResetEnd (.error reason, [])
  /-- The state was written, and the backlog was not. -/
  | halfway (reason : String) : x.board.MayReset taskId → f.SpareState → f.board = some reason →
      ResetEnd (.error reason, [.state (x.resetBooks taskId now).state])
  /-- Both are written. -/
  | written : x.board.MayReset taskId → f.SpareState → f.board = none →
      ResetEnd (.ok (),
        [.state (x.resetBooks taskId now).state, .board (x.resetBooks taskId now).kanban])

/-- **There is no other end.** -/
theorem resetAndWrite_end :
    x.ResetEnd taskId now f (x.books.state.resetAndWrite x.board taskId now f) := by
  unfold State.resetAndWrite
  cases hreset : x.books.state.reset x.board taskId with
  | error reason =>
    refine .refused reason fun hmay => ?_
    obtain ⟨k', hok⟩ := State.reset_eq_ok_of_mayReset hmay x.books.state
    cases hok.symm.trans hreset
  | ok r =>
    obtain ⟨s, k⟩ := r
    have hmay := State.mayReset_of_reset_eq_ok hreset
    have hbooks : x.resetBooks taskId now = ⟨s.stamped now, k⟩ := by
      simp only [resetBooks, Books.after, books] at hreset ⊢
      rw [hreset]
    by_cases hspare : f.SpareState
    · simp only [writeBoth_of_spareState hspare]
      cases hboard : f.board with
      | some reason =>
        have hend : x.ResetEnd taskId now f _ := .halfway reason hmay hspare hboard
        rwa [hbooks] at hend
      | none =>
        have hend : x.ResetEnd taskId now f _ := .written hmay hspare hboard
        rwa [hbooks] at hend
    · obtain ⟨reason, hwrite⟩ := writeBoth_of_not_spareState (s := s.stamped now) (k := k) hspare
      simp only [hwrite]
      exact .unwritten _ hspare

end Cabinet

/-! ## 3. The command

The steps of the command come to one of the ends. -/

namespace Operator

theorem bind_eq {α β : Type} {m : Step α} {c c' : Console} {a : α} (h : m c = (.ok a, c'))
    (next : α → Step β) : (m >>= next) c = next a c' := by
  simp only [bind, ExceptT.bind, ExceptT.mk, StateT.bind, h]
  rfl

theorem inspect_eq {α : Type} {f : Tree → Except String α} {c : Console} {a : α}
    (h : f c.machine.files = .ok a) : inspect f c = (.ok a, c) :=
  congrArg (·, c) h

/-- Notes change nothing but the log. -/
theorem forM_note {α : Type} (level : LogLevel) (line : α → String) :
    ∀ (as : List α) (c : Console),
      ∃ log, (as.forM fun a => note level (line a)) c = (.ok (), { c with log := log })
  | [], c => ⟨c.log, rfl⟩
  | a :: as, c => forM_note level line as { c with log := c.log ++ [(level, line a)] }

theorem loadBacklog_eq {path : String} {c : Console} {k : Kanban}
    (h : Kanban.load c.machine.files path = .ok k) :
    ∃ log, loadBacklog path c = (.ok k, { c with log := log }) := by
  obtain ⟨log, hnotes⟩ := forM_note .warn strayNote k.strays c
  refine ⟨log, ?_⟩
  rw [loadBacklog, bind_eq (inspect_eq h), bind_eq hnotes]
  rfl

/-- The last steps of the command. -/
theorem setFiles_then_tell (t : Tree) (result : Except String Unit) (line : String) (c : Console) :
    let after := (do setFiles t; ExceptT.mk (pure result); note .info line : Step Unit) c
    after.1 = result ∧ after.2.machine.files = t := by
  cases result with
  | error reason => exact ⟨rfl, rfl⟩
  | ok => exact ⟨rfl, rfl⟩

/-- **The command**: it loads both documents, and answers and writes what becomes of them. -/
theorem resetHeld_eq {p : Documents} {taskId : String} {c : Console} {x : Cabinet}
    (hboard : Kanban.load c.machine.files p.board = .ok x.board)
    (hstate : State.load c.machine.files p.state = .ok x.books.state) :
    let f := p.faults c.machine.files
    (resetHeld p taskId c).1 = (x.resetTask taskId c.now f).1 ∧
      (resetHeld p taskId c).2.machine.files =
        (x.resetWrites taskId c.now f).foldl p.carryOut c.machine.files := by
  obtain ⟨log, hloaded⟩ := loadBacklog_eq hboard
  have hread : told (State.load c.machine.files p.state) = .ok x.books.state := by
    rw [hstate]
    rfl
  rw [resetHeld, bind_eq hloaded, bind_eq (inspect_eq hread)]
  have hfiles : files { c with log := log } = (.ok c.machine.files, { c with log := log }) := rfl
  have hget : (get : Step Console) { c with log := log } =
      (.ok { c with log := log }, { c with log := log }) := rfl
  rw [bind_eq hfiles, bind_eq hget]
  dsimp only
  split
  · obtain ⟨log', hnotes⟩ :=
      forM_note .debug releaseNote (x.books.state.resetReleases taskId) { c with log := log }
    rw [bind_eq hnotes]
    exact setFiles_then_tell _ _ _ _
  · exact setFiles_then_tell _ _ _ _

end Operator

/-! ## 4. Both files or neither

The ends compared with the files before. -/

/-- **When a reset that fails leaves both files as they were**, whatever the documents are and
whatever keeps them from being written.  It does so unless the task may be reset, the state can be
written, and its file did not already hold what is written to it.  Then the failure is that of the
backlog, whose file is as it was, and the state's file holds a state that has forgotten the task.  A
reset that succeeds has written both. -/
theorem failed_reset_keeps_files_iff (x : Cabinet) (taskId : String) (now : Instant) (f : Faults) :
    match x.resetTask taskId now f with
    | (.error reason, x') =>
      (x' = x ↔ ¬ (x.board.MayReset taskId ∧ f.SpareState ∧
        x.state ≠ some (x.resetBooks taskId now).state)) ∧
      (x' ≠ x → f.board = some reason ∧
        x' = { x with state := some (x.resetBooks taskId now).state })
    | (.ok (), x') =>
      x.board.MayReset taskId ∧ f.SpareState ∧ f.board = none ∧
        x' = ⟨(x.resetBooks taskId now).kanban, some (x.resetBooks taskId now).state⟩ := by
  have hend := x.resetAndWrite_end taskId now f
  unfold Cabinet.resetTask Cabinet.resetWrites
  generalize x.books.state.resetAndWrite x.board taskId now f = r at hend
  cases hend with
  | refused reason hmay =>
    exact ⟨⟨fun _ hall => hmay hall.1, fun _ => rfl⟩, fun hne => absurd rfl hne⟩
  | unwritten reason hspare =>
    exact ⟨⟨fun _ hall => hspare hall.2.1, fun _ => rfl⟩, fun hne => absurd rfl hne⟩
  | halfway reason hmay hspare hboard =>
    refine ⟨⟨?_, fun hnot => ?_⟩, fun _ => ⟨hboard, rfl⟩⟩
    · rintro hsame ⟨-, -, hnew⟩
      exact hnew (congrArg Cabinet.state hsame).symm
    · have hheld : x.state = some (x.resetBooks taskId now).state :=
        by_contra fun hnew => hnot ⟨hmay, hspare, hnew⟩
      exact congrArg (Cabinet.mk x.board) hheld.symm
  | written hmay hspare hboard => exact ⟨hmay, hspare, hboard, rfl⟩

namespace Sample

/-- The task has failed, and its attempts are remembered. -/
def failedFiles : Cabinet where
  board := ⟨1, [{ id := "T-1", status := .failed }]⟩
  state := some { resume := ⟨[("T-1", { attempts := 2 })]⟩ }

/-- There is room for the state, and none for the backlog. -/
def fullDisk : Faults := { board := some "No space left on device (os error 28)" }

end Sample

/-- **A reset that fails and changes a file**: the attempts of the task are forgotten, and it has
still failed. -/
theorem attempts_forgotten_without_reset :
    ¬ ∀ (x : Cabinet) (taskId : String) (now : Instant) (f : Faults) (reason : String),
      (x.resetTask taskId now f).1 = .error reason → (x.resetTask taskId now f).2 = x := by
  intro hkept
  have hsame := hkept Sample.failedFiles "T-1" Sample.noon Sample.fullDisk
    "No space left on device (os error 28)" (by decide +kernel)
  exact absurd hsame (by decide +kernel)

end Foreman
