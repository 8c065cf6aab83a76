/-
# Coming back after a crash

The process can die at any point: between two commands, between the two writes of a flush, while
it sets the documents against the processes that run, and while the operator resets a task.
Then the files hold the backlog of one moment and the state of an earlier or a later one, a pair
that need never have been in memory.

What saves the day is that a restart asks nothing of such a pair but what holds of either
document alone: the backlog differs from the first one in statuses only, and the records and
claims of the state belong together.  `WellKept` says so of two documents, and every write puts
one such document in its file.  That the two are written one after the other, and in which
order, does not matter for it; that each is written as a whole does (`Foreman.Files.Tree`,
`Tree.replace`).

A `Career` is what can happen to the files.  Its cases are the places in the program at which
they are written: the start of a run (`handle_run` with `restore_liveness`), the flush of the
coordinator after a command, and the reset by the operator (`handle_reset_task`).  In each of
them any number of the writes may have taken effect when the process dies.

* `handle_writes`: what is written while a command is carried out is a document after its move.
* `Career.sound`: so whatever happens, both files stay well-kept.
* `crash_recovery`: a restart that finds no process alive leaves no worker active, no claim and
  no task in progress, and gives up nothing that was settled.
-/
import Foreman.Operator.Reset
import Foreman.Proofs.Coordinator.Cabinet
import Foreman.Proofs.History.Desk

namespace Foreman

/-! ## 1. Well-kept documents

What holds of either document alone, and of each of them after every move. -/

/-- The backlog is the given one but for statuses, and records and claims belong together. -/
structure WellKept (k : Kanban) (b : Books) : Prop where
  board : b.kanban.plainTasks = k.plainTasks
  state : Tidy k b.state

/-- A well-kept document to write. -/
def Write.WellKept (k : Kanban) : Write → Prop
  | .board k' => k'.plainTasks = k.plainTasks
  | .state s => Tidy k s

/-- A document to write is one of the two, marked with the time of its writing. -/
def Write.IsOf (b : Books) (now : Instant) : Write → Prop
  | .board k => k = b.kanban
  | .state s => s = b.state.stamped now

/-- The time of the writing is of no weight. -/
theorem Tidy.stamped {k : Kanban} {s : State} (h : Tidy k s) (now : Instant) :
    Tidy k (s.stamped now) := h.of_profiles rfl rfl

namespace WellKept

variable {k : Kanban} {b : Books}

/-- An allowed move keeps documents well-kept.  Its orders may come from anywhere. -/
theorem after (h : WellKept k b) {m : Move} (hattended : b.Attended m) (hfresh : b.Fresh m) :
    WellKept k (b.after m) := by
  have hboard := (b.plainTasks_after m).trans h.board
  have hstate : Tidy b.kanban b.state := h.state.of_plainTasks h.board
  exact ⟨hboard, (hstate.after hattended hfresh).of_plainTasks hboard.symm⟩

/-- A restart adds no record, and brings no outcome. -/
theorem restart (h : WellKept k b) (alive : Nat → Bool) : WellKept k (b.after (.restart alive)) :=
  ⟨(b.plainTasks_after (.restart alive)).trans h.board, (h.state.restored alive).1⟩

/-- Nor does a reset. -/
theorem reset (h : WellKept k b) {taskId : String} {s : State} {k' : Kanban}
    (hreset : b.state.reset b.kanban taskId = .ok (s, k')) : WellKept k ⟨s, k'⟩ := by
  obtain ⟨-, -, -, hset, rfl⟩ := State.reset_eq_ok hreset
  exact ⟨(Kanban.plainTasks_setStatus hset).trans h.board, (h.state.forgotten taskId).1⟩

/-- The marks of the writing are of no weight. -/
theorem of_agrees (h : WellKept k b) {c : Books} (hagrees : Desk.Agrees b c) : WellKept k c := by
  obtain ⟨hk, hs⟩ := hagrees
  refine ⟨hk ▸ h.board, ?_⟩
  rcases hs with hs | ⟨now, hs⟩
  · exact hs ▸ h.state
  · exact hs ▸ h.state.stamped now

/-- Each of the two documents is well-kept by itself. -/
theorem write (h : WellKept k b) {now : Instant} {w : Write} (hw : w.IsOf b now) :
    w.WellKept k := by
  cases w with
  | board => exact hw ▸ h.board
  | state => exact hw ▸ h.state.stamped now

end WellKept

namespace Cabinet

/-- What is loaded from the files.  A state that was never written is empty. -/
def books (x : Cabinet) : Books := ⟨x.state.getD {}, x.board⟩

/-- Well-kept documents that are written into well-kept files. -/
theorem putAll_wellKept {k : Kanban} : ∀ (writes : List Write) {x : Cabinet}, WellKept k x.books →
    (∀ w ∈ writes, w.WellKept k) → WellKept k (x.putAll writes).books
  | [], _, h, _ => h
  | w :: writes, x, h, hwrites => by
    rw [List.forall_mem_cons] at hwrites
    have hput : WellKept k (x.put w).books := by
      cases w with
      | board => exact ⟨hwrites.1, h.state⟩
      | state => exact ⟨h.board, hwrites.1⟩
    exact putAll_wellKept writes hput hwrites.2

/-- Of writes made one after the other any number may have taken effect. -/
theorem putAll_take_wellKept {k : Kanban} {x : Cabinet} {writes : List Write}
    (h : WellKept k x.books) (hwrites : ∀ w ∈ writes, w.WellKept k) (n : Nat) :
    WellKept k (x.putAll (writes.take n)).books :=
  putAll_wellKept _ h fun w hw => hwrites w (List.mem_of_mem_take hw)

end Cabinet

/-! ## 2. What a command writes

A flush writes the state, the backlog, or both, and each as it is in memory.  A dispatch that is
taken back is the one command whose memory afterwards is not what it tried to write. -/

namespace Desk

/-- A flush writes the documents as they are in memory. -/
theorem flush_writes (d : Desk) (now : Instant) (f : Faults) :
    ∀ w ∈ (d.flush now f).2.2, w.IsOf d.books now := by
  have howed : ∀ w ∈ d.owed, w.IsOf d.books now := by
    intro w hw
    unfold owed at hw
    split at hw
    · rw [List.mem_singleton.mp hw]
      rfl
    · exact absurd hw List.not_mem_nil
  have hend := d.flush_end now f
  generalize d.flush now f = r at hend
  cases hend with
  | homeless | unstaged | unwritten => exact fun _ hw => absurd hw List.not_mem_nil
  | uncommitted => exact howed
  | written =>
    intro w hw
    rcases List.mem_append.mp hw with hw | hw
    · exact howed w hw
    · rw [List.mem_singleton.mp hw]
      rfl

theorem flushThen_writes (d : Desk) (now : Instant) (f : Faults) (reply : Reply) :
    ∀ w ∈ (d.flushThen now f reply).writes, w.IsOf d.books now := by
  have hwrites := d.flush_writes now f
  unfold flushThen
  generalize d.flush now f = r at hwrites
  obtain ⟨failure?, d', writes⟩ := r
  cases failure? <;> exact hwrites

/-- Also what was written before a dispatch is taken back is a document after it. -/
theorem flushDispatch_writes (before d : Desk) (now : Instant) (f : Faults) (reply : Reply) :
    ∀ w ∈ (flushDispatch before d now f reply).writes, w.IsOf d.books now := by
  have hwrites := d.flush_writes now f
  unfold flushDispatch
  generalize d.flush now f = r at hwrites
  obtain ⟨failure?, d', writes⟩ := r
  cases failure? <;> exact hwrites

theorem updateWorker_writes (d : Desk) (workerId : String) (change : Worker → Worker)
    (now : Instant) (f : Faults) :
    ∀ w ∈ (d.updateWorker workerId change now f).writes,
      w.IsOf ⟨d.state.updateWorker workerId change, d.kanban⟩ now := by
  unfold Desk.updateWorker
  split
  · exact fun _ hw => absurd hw List.not_mem_nil
  · exact flushThen_writes { d with state := d.state.updateWorker workerId change } now f .done

/-- **What is written while a command is carried out is a document after its move.** -/
theorem handle_writes (d : Desk) (c : DeskSettings) (now : Instant) (f : Faults)
    (command : Command) :
    ∀ w ∈ (d.handle c now f command).writes,
      w.IsOf (((command.move? c now).map d.books.after).getD d.books) now := by
  cases command with
  | snapshot => exact fun _ hw => absurd hw List.not_mem_nil
  | flush => exact d.flushThen_writes now f .done
  | beginPass | defer => exact flushThen_writes _ now f _
  | markRunning workerId pid => exact d.updateWorker_writes workerId (started pid) now f
  | recordSession workerId sessionId => exact updateWorker_writes _ workerId _ now f
  | settle workerId outcome =>
    simp only [handle, Command.move?, books, Books.after, Option.map_some, Option.getD_some]
    generalize d.state.settle d.kanban workerId outcome c.retry now = r
    obtain ⟨result, s, k⟩ := r
    cases result with
    | error failure => exact fun _ hw => absurd hw List.not_mem_nil
    | ok effect => exact flushThen_writes ⟨k, s, true⟩ now f _
  | dispatch o =>
    simp only [handle, Desk.dispatch, Command.move?, books, Books.after, Option.map_some,
      Option.getD_some]
    generalize d.state.dispatch d.kanban o c.backend c.worktreeDir now = r
    obtain ⟨result, s, k⟩ := r
    split
    · rename_i hr
      cases hr
      exact flushDispatch_writes d ⟨k, s, true⟩ now f _
    · rename_i hr
      cases hr
      exact flushDispatch_writes d ⟨k, s, d.dirty⟩ now f _
    · exact fun _ hw => absurd hw List.not_mem_nil

end Desk

/-! ## 3. Everything that happens to the files

The coordinator may be there or not.  While it is there, its memory is well-kept as well, since
that is what it writes from. -/

namespace Cabinet

/-- The coordinator at its start, and what is written before it starts: the documents are set
against the processes that run, the backlog is written if that changed it, and then the state. -/
def start (x : Cabinet) (alive : Nat → Bool) (now : Instant) : Desk × List Write :=
  let (s, tasks, reset) := x.books.state.restoreLiveness x.board.tasks alive
  let k := { x.board with tasks := tasks }
  (⟨k, s.stamped now, false⟩,
    (if reset = [] then [] else [.board k]) ++ [.state (s.stamped now)])

theorem start_agrees (x : Cabinet) (alive : Nat → Bool) (now : Instant) :
    Desk.Agrees (x.books.after (.restart alive)) (x.start alive now).1.books :=
  ⟨rfl, Or.inr ⟨now, rfl⟩⟩

/-- What is written before the coordinator starts are the documents it starts with. -/
theorem start_writes (x : Cabinet) (alive : Nat → Bool) (now : Instant) :
    ∀ w ∈ (x.start alive now).2, w.IsOf (x.books.after (.restart alive)) now := by
  intro w hw
  rcases List.mem_append.mp hw with hw | hw
  · split at hw
    · exact absurd hw List.not_mem_nil
    · rw [List.mem_singleton.mp hw]
      rfl
  · rw [List.mem_singleton.mp hw]
    rfl

/-- What the operator's reset writes. -/
def resetWrites (x : Cabinet) (taskId : String) (now : Instant) (f : Faults) : List Write :=
  (x.books.state.resetAndWrite x.board taskId now f).2

/-- The reset writes a state and a backlog that were reset together, or nothing. -/
theorem resetWrites_wellKept {k : Kanban} {x : Cabinet} (h : WellKept k x.books) (taskId : String)
    (now : Instant) (f : Faults) : ∀ w ∈ x.resetWrites taskId now f, w.WellKept k := by
  unfold resetWrites State.resetAndWrite
  split
  · exact fun _ hw => absurd hw List.not_mem_nil
  · rename_i s k' hreset
    have hafter : WellKept k ⟨s, k'⟩ := h.reset hreset
    have hboth : ∀ w ∈ (writeBoth f (s.stamped now) k').2, w.WellKept k := by
      unfold writeBoth
      split
      · exact fun _ hw => absurd hw List.not_mem_nil
      · split
        · exact List.forall_mem_singleton.mpr (hafter.state.stamped now)
        · exact List.forall_mem_cons.mpr
            ⟨hafter.state.stamped now, List.forall_mem_singleton.mpr hafter.board⟩
    generalize writeBoth f (s.stamped now) k' = r at hboth
    split <;> exact hboth

end Cabinet

/-- A request that may be made: an outcome is that of an active worker, and a record that is added
has a new name.  Its orders may come from anywhere. -/
def Office.Admits (c : DeskSettings) (o : Office) (r : Desk.Request) : Prop :=
  ∀ m ∈ r.command.move? c r.now, o.desk.books.Attended m ∧ o.desk.books.Fresh m

/-- **What happens to the files of a backlog** from its beginning: the coordinator, while there is
one, and the files.  Each of `died`, `stillborn` and `reset` stops after any number of its
writes. -/
inductive Career (k : Kanban) : Option Desk → Cabinet → Prop
  /-- Nobody has worked on the backlog. -/
  | begun : Career k none ⟨k, none⟩
  /-- A coordinator starts on what the files hold. -/
  | started {x : Cabinet} (alive : Nat → Bool) (now : Instant) : Career k none x →
      Career k (some (x.start alive now).1) (x.putAll (x.start alive now).2)
  /-- The process dies, or something keeps it from writing, before the coordinator starts. -/
  | stillborn {x : Cabinet} (alive : Nat → Bool) (now : Instant) (n : Nat) : Career k none x →
      Career k none (x.putAll ((x.start alive now).2.take n))
  /-- A request is made, whatever keeps its documents from being written. -/
  | served {o : Office} (c : DeskSettings) (r : Desk.Request) : Career k (some o.desk) o.cabinet →
      o.Admits c r → Career k (some (o.serve c r).2.desk) (o.serve c r).2.cabinet
  /-- The process dies in the middle of a request. -/
  | died {o : Office} (c : DeskSettings) (r : Desk.Request) (n : Nat) :
      Career k (some o.desk) o.cabinet → o.Admits c r →
        Career k none
          (o.cabinet.putAll ((o.desk.handle c r.now r.faults r.command).writes.take n))
  /-- The operator resets a task. -/
  | reset {x : Cabinet} (taskId : String) (now : Instant) (f : Faults) (n : Nat) :
      Career k none x → Career k none (x.putAll ((x.resetWrites taskId now f).take n))

namespace Career

variable {k : Kanban}

/-- The coordinator's memory and what it writes are well-kept after a request that may be made. -/
theorem handle_wellKept {o : Office} {c : DeskSettings} {r : Desk.Request}
    (h : WellKept k o.desk.books) (hadmits : o.Admits c r) :
    WellKept k (o.desk.handle c r.now r.faults r.command).desk.books ∧
      ∀ w ∈ (o.desk.handle c r.now r.faults r.command).writes, w.WellKept k := by
  have hmove := o.desk.handle_makes_move c r.now r.faults r.command
  have hwrites := o.desk.handle_writes c r.now r.faults r.command
  cases hm : r.command.move? c r.now with
  | none =>
    rw [hm] at hmove hwrites
    exact ⟨h.of_agrees hmove, fun w hw => h.write (hwrites w hw)⟩
  | some m =>
    have hafter := h.after (hadmits m hm).1 (hadmits m hm).2
    rw [hm] at hmove hwrites
    refine ⟨?_, fun w hw => hafter.write (hwrites w hw)⟩
    rcases hmove with hagrees | ⟨-, -, hback⟩
    · exact hafter.of_agrees hagrees
    · exact hback ▸ h

/-- **Whatever happens, the files stay well-kept**, and so does the coordinator's memory. -/
theorem sound {desk? : Option Desk} {x : Cabinet} (h : Career k desk? x) :
    WellKept k x.books ∧ ∀ d ∈ desk?, WellKept k d.books := by
  induction h with
  | begun => exact ⟨⟨rfl, Tidy.empty k⟩, fun _ hd => absurd hd (Option.not_mem_none _)⟩
  | @started x alive now _ ih =>
    have hafter := ih.1.restart alive
    refine ⟨Cabinet.putAll_wellKept _ ih.1 fun w hw => hafter.write (x.start_writes alive now w hw),
      fun d hd => ?_⟩
    rw [← Option.mem_some.mp hd]
    exact hafter.of_agrees (x.start_agrees alive now)
  | @stillborn x alive now n _ ih =>
    have hafter := ih.1.restart alive
    exact ⟨Cabinet.putAll_take_wellKept ih.1
      (fun w hw => hafter.write (x.start_writes alive now w hw)) n,
      fun _ hd => absurd hd (Option.not_mem_none _)⟩
  | served c r _ hadmits ih =>
    obtain ⟨hdesk, hwrites⟩ := handle_wellKept (ih.2 _ rfl) hadmits
    refine ⟨Cabinet.putAll_wellKept _ ih.1 hwrites, fun d hd => ?_⟩
    rw [← Option.mem_some.mp hd]
    exact hdesk
  | died c r n _ hadmits ih =>
    obtain ⟨-, hwrites⟩ := handle_wellKept (ih.2 _ rfl) hadmits
    exact ⟨Cabinet.putAll_take_wellKept ih.1 hwrites n,
      fun _ hd => absurd hd (Option.not_mem_none _)⟩
  | @reset x taskId now f n _ ih =>
    exact ⟨Cabinet.putAll_take_wellKept ih.1 (Cabinet.resetWrites_wellKept ih.1 taskId now f) n,
      fun _ hd => absurd hd (Option.not_mem_none _)⟩

end Career

/-! ## 4. Recovery

A restart on well-kept files, when all workers of the project are gone. -/

/-- The processes are all gone. -/
def nobody : Nat → Bool := fun _ => false

theorem State.isLost_nobody (w : Worker) : State.isLost nobody w = w.status.isActive := by
  unfold State.isLost nobody
  cases w.pid <;> simp

/-- Where no process is alive, a restart gives up all active workers, and with them all claims. -/
theorem Tidy.restored_nobody {k : Kanban} {s : State} (h : Tidy k s) :
    (∀ w ∈ (s.abandonAll (s.workers.filter (State.isLost nobody))).workers,
      w.status.isActive = false) ∧
    (s.abandonAll (s.workers.filter (State.isLost nobody))).registry.claims = [] := by
  obtain ⟨htidy, hact⟩ := h.restored nobody
  generalize s.abandonAll (s.workers.filter (State.isLost nobody)) = s' at htidy hact
  have hinactive : ∀ w ∈ s'.workers, w.status.isActive = false := by
    intro w hw
    rw [Bool.eq_false_iff]
    intro hactive
    -- a task that still has an active worker had one before, which was given up
    obtain ⟨hwas, hkept⟩ := (hact w.taskId).mp (State.hasActiveWorker_iff.mpr ⟨w, hw, rfl, hactive⟩)
    obtain ⟨v, hv, hvtask, hvactive⟩ := State.hasActiveWorker_iff.mp hwas
    exact hkept v (List.mem_filter.mpr ⟨hv, (State.isLost_nobody v).trans hvactive⟩) hvtask
  refine ⟨hinactive, List.eq_nil_iff_forall_not_mem.mpr fun c hc => ?_⟩
  obtain ⟨w, hw, hwc⟩ := htidy.owned c hc
  have hholds := htidy.holds w hw
  rw [hinactive w hw, if_neg (by simp), List.map_eq_nil_iff] at hholds
  exact absurd (Registry.mem_claimsOf.mpr ⟨hc, hwc.symm⟩) (hholds ▸ List.not_mem_nil)

/-- A crash has left nothing under way, and nothing that was settled is given up. -/
structure Cabinet.Recovered (x : Cabinet) (b : Books) : Prop where
  workers : ∀ w ∈ b.state.workers, w.status ≠ .spawned ∧ w.status ≠ .running
  claims : b.state.registry.claims = []
  tasks : ∀ t ∈ b.kanban.tasks, t.status ≠ .inProgress
  settled : ∀ t ∈ x.board.tasks, t.status = .done ∨ t.status = .failed → t ∈ b.kanban.tasks

/-- **Crash recovery.**  Whatever has happened to the files of a backlog, with nobody working on it
any more: load both as they are and set them against the processes that run, none of which is one
of ours.  Then no worker is active, there is no claim, no task is in progress, and every task that
the backlog's file had as done or failed stays so. -/
theorem crash_recovery {k : Kanban} {x : Cabinet} (h : Career k none x) :
    x.Recovered (x.books.after (.restart nobody)) := by
  obtain ⟨hinactive, hclaims⟩ := h.sound.1.state.restored_nobody
  refine ⟨fun w hw => ?_, hclaims, fun t ht => ?_, fun t ht hstatus => ?_⟩
  · have hw := hinactive w hw
    constructor <;> intro e <;> rw [e] at hw <;> cases hw
  · simp only [Books.after, State.restoreLiveness_tasks] at ht
    obtain ⟨u, -, rfl⟩ := List.mem_map.mp ht
    rw [Ne, State.returned_inProgress_iff]
    rintro ⟨-, hactive⟩
    obtain ⟨w, hw, -, hwactive⟩ := State.hasActiveWorker_iff.mp hactive
    exact absurd ((hinactive w hw).symm.trans hwactive) (by decide)
  · simp only [Books.after, State.restoreLiveness_tasks]
    refine List.mem_map.mpr ⟨t, ht, if_neg fun hboth => ?_⟩
    rcases hstatus with hs | hs <;> exact absurd (hs.symm.trans hboth.1) (by decide)

namespace Sample

/-- The files of a backlog nobody has worked on. -/
def untouched : Cabinet := ⟨board, none⟩

/-- The coordinator has started. -/
def office : Office :=
  ⟨(untouched.start nobody noon).1, untouched.putAll (untouched.start nobody noon).2⟩

/-- The task is in progress, and both files say so. -/
def hired : Office := (office.serve settings hire).2

/-- The process dies between the two writes of the report. -/
def torn : Cabinet :=
  hired.cabinet.putAll
    ((hired.desk.handle settings noon {} (report {}).command).writes.take 1)

theorem office_admits_hire : office.Admits settings hire := by
  intro m hm
  cases hm
  exact ⟨trivial, by decide +kernel⟩

theorem hired_admits_report : hired.Admits settings (report {}) := by
  intro m hm
  cases hm
  have hone : ∃ w ∈ hired.desk.state.workers,
      w.id = firstOrder.workerId ∧ w.status.isActive = true := by decide +kernel
  exact ⟨hone, by decide +kernel⟩

end Sample

/-- The backlog's file says that the task is done while the state's file has its worker active and
its claim held. -/
theorem torn_recovered :
    Career Sample.board none Sample.torn ∧
      (Sample.torn.board.tasks.map Task.status = [.done, .failed, .failed] ∧
        Sample.torn.books.state.workers.map Worker.status = [.spawned] ∧
        Sample.torn.books.state.registry.claims.map Claim.pattern = ["src"]) ∧
      Sample.torn.Recovered (Sample.torn.books.after (.restart nobody)) := by
  have hoffice : Career Sample.board (some Sample.office.desk) Sample.office.cabinet :=
    .started nobody Sample.noon .begun
  have hhired : Career Sample.board (some Sample.hired.desk) Sample.hired.cabinet :=
    .served Sample.settings Sample.hire hoffice Sample.office_admits_hire
  have htorn : Career Sample.board none Sample.torn :=
    .died Sample.settings (Sample.report {}) 1 hhired Sample.hired_admits_report
  exact ⟨htorn, by decide +kernel, crash_recovery htorn⟩

end Foreman
