/-
# A dispatch that cannot be written

A dispatch changes both documents in memory and then writes them, and the writing can fail at three
places: before anything is written, at the backlog, and at the state after the backlog was written.
In the last case the backlog's file already shows the task in progress.

* `flush_fails_iff`: which faults keep a flush from succeeding.
* `dispatch_unwritten_iff`: a dispatch is refused for want of a written state exactly if it started
  its task, or queued it, and a fault strikes.
* `failed_dispatch_rolled_back`: then memory is what it was, the state's file is untouched, and the
  mark on the backlog makes the next command that is written set both files right.

`handle_dispatch` keeps a copy of both documents from before the dispatch and puts it back when
the flush fails.  The copy does not know what has been written meanwhile, so the mark is set
whether or not the backlog was written; a later flush then writes it once more than needed, and
never once less.
-/
import Foreman.Proofs.Coordinator.Cabinet

namespace Foreman

/-! ## 1. Faults that strike

Of the three faults one is harmless where the backlog need not be written. -/

/-- Something keeps the documents from being written; a fault of the backlog counts only if the
backlog is written. -/
def Faults.Strikes (f : Faults) (dirty : Bool) : Prop :=
  f.directory ≠ none ∨ f.stage ≠ none ∨ (dirty = true ∧ f.board ≠ none) ∨ f.commit ≠ none

instance (f : Faults) (dirty : Bool) : Decidable (f.Strikes dirty) :=
  inferInstanceAs (Decidable (_ ∨ _ ∨ (_ ∧ _) ∨ _))

namespace Desk

variable {c : DeskSettings} {d e : Desk} {o : Order} {now : Instant} {f : Faults} {x : Cabinet}

/-- A flush fails exactly if a fault strikes. -/
theorem flush_fails_iff (d : Desk) (now : Instant) (f : Faults) :
    (d.flush now f).1 ≠ none ↔ f.Strikes d.dirty := by
  obtain ⟨directory, stage, board, commit⟩ := f
  obtain ⟨kanban, state, dirty⟩ := d
  cases directory <;> cases stage <;> cases board <;> cases commit <;> cases dirty <;>
    simp [flush, stamp, Faults.Strikes]

/-! ## 2. What a dispatch leaves to be written

A dispatch that starts its task changes both documents; one that meets a claim changes the
queue, and has the state written as well. -/

/-- The desk that a dispatch is going to write: with the task started, or with the task queued
behind the claim in its way. -/
def drafted? (d : Desk) (c : DeskSettings) (o : Order) (now : Instant) : Option Desk :=
  match d.state.dispatch d.kanban o c.backend c.worktreeDir now with
  | (.ok _, s, k) => some ⟨k, s, true⟩
  | (.error (.conflict _ _), s, k) => some { d with state := s, kanban := k }
  | (.error _, _, _) => none

/-- A dispatch has something to write, and a fault strikes. -/
def Unwritten (d : Desk) (c : DeskSettings) (o : Order) (now : Instant) (f : Faults) : Prop :=
  ∃ e, d.drafted? c o now = some e ∧ f.Strikes e.dirty

/-- The answer to a dispatch that was taken back. -/
structure TakenBack (d : Desk) (a : Answer) : Prop where
  reply : ∃ reason, a.reply = .refused (.statePersistence reason)
  desk : a.desk = { d with dirty := true }
  /-- At most the backlog was written. -/
  boards : ∀ w ∈ a.writes, ∃ k, w = .board k

/-- The answer to a dispatch that had nothing to write, or wrote it. -/
def Stands (a : Answer) : Prop := ∀ reason, a.reply ≠ .refused (.statePersistence reason)

/-- A flush fails before the state is in place, and its failure is one of keeping the state. -/
theorem flushDispatch_takenBack (h : f.Strikes e.dirty) (d : Desk) (now : Instant) (reply : Reply) :
    TakenBack d (flushDispatch d e now f reply) := by
  have hfails := (flush_fails_iff e now f).mpr h
  have hend := e.flush_end now f
  unfold flushDispatch
  generalize e.flush now f = r at hfails hend
  cases hend with
  | homeless reason | unstaged reason | unwritten reason =>
    exact ⟨⟨reason, rfl⟩, rfl, fun w hw => absurd hw List.not_mem_nil⟩
  | uncommitted reason =>
    refine ⟨⟨reason, rfl⟩, rfl, fun w hw => ?_⟩
    dsimp only [owed] at hw
    split at hw
    · exact ⟨e.kanban, List.mem_singleton.mp hw⟩
    · exact absurd hw List.not_mem_nil
  | written => exact absurd rfl hfails

/-- A dispatch that was written keeps its answer. -/
theorem flushDispatch_stands (h : ¬ f.Strikes e.dirty) (d : Desk) (now : Instant) {reply : Reply}
    (hreply : ∀ reason, reply ≠ .refused (.statePersistence reason)) :
    Stands (flushDispatch d e now f reply) := by
  have hwritten : (e.flush now f).1 = none :=
    Decidable.not_not.mp fun hne => h ((flush_fails_iff e now f).mp hne)
  unfold flushDispatch
  generalize e.flush now f = r at hwritten
  obtain ⟨failure?, d', writes⟩ := r
  cases hwritten
  exact hreply

/-- **A dispatch whose writing a fault strikes is taken back**, whether it started its task or only
queued it. -/
theorem dispatch_takenBack (h : d.Unwritten c o now f) : TakenBack d (d.dispatch c o now f) := by
  obtain ⟨e, he, hstrikes⟩ := h
  unfold drafted? at he
  unfold Desk.dispatch
  generalize d.state.dispatch d.kanban o c.backend c.worktreeDir now = r at he
  split at he
  · cases he
    exact flushDispatch_takenBack hstrikes d now _
  · cases he
    exact flushDispatch_takenBack hstrikes d now _
  · cases he

/-- Any other dispatch is answered on its own merits. -/
theorem dispatch_stands (h : ¬ d.Unwritten c o now f) : Stands (d.dispatch c o now f) := by
  have hend := State.dispatch_end d.state d.kanban o c.backend c.worktreeDir now
  have hclear : ∀ e, d.drafted? c o now = some e → ¬ f.Strikes e.dirty :=
    fun e he hstrikes => h ⟨e, he, hstrikes⟩
  unfold drafted? at hclear
  unfold Desk.dispatch
  generalize d.state.dispatch d.kanban o c.backend c.worktreeDir now = r at hend hclear
  cases hend with
  | unknown | busy => exact fun reason hreply => by cases hreply
  | blocked => exact flushDispatch_stands (hclear _ rfl) d now fun reason hreply => by cases hreply
  | started => exact flushDispatch_stands (hclear _ rfl) d now fun reason hreply => by cases hreply

/-- **Which dispatches are refused for want of a written state.** -/
theorem dispatch_unwritten_iff :
    d.Unwritten c o now f ↔
      ∃ reason, (d.dispatch c o now f).reply = .refused (.statePersistence reason) := by
  refine ⟨fun h => (dispatch_takenBack h).reply, fun ⟨reason, hreply⟩ => ?_⟩
  by_contra hother
  exact dispatch_stands hother reason hreply

/-- Where at most the backlog was written, the state's file is what it was. -/
theorem TakenBack.state_putAll {a : Answer} (h : TakenBack d a) (x : Cabinet) :
    (x.putAll a.writes).state = x.state := by
  have hboards := h.boards
  unfold Cabinet.putAll
  generalize a.writes = writes at hboards
  induction writes generalizing x with
  | nil => rfl
  | cons w writes ih =>
    rw [List.forall_mem_cons] at hboards
    obtain ⟨⟨k, rfl⟩, hrest⟩ := hboards
    exact ih (x.put (.board k)) hrest

end Desk

/-! ## 3. Taken back completely

What was taken back in memory, and what the files hold then and after the commands that follow. -/

/-- **A dispatch that cannot be written is taken back completely.**  Whatever the desk, the order,
the faults and the files:

* the dispatch is refused for want of a written state, which stops the run, exactly if it started
  its task or queued it behind a claim, and a fault strikes: the state cannot be staged, the backlog
  is to be written and cannot be, or the state cannot be put in place;
* then backlog and state in memory are those before the call, the backlog is marked, and the file of
  the state is what it was;
* after any commands that follow, with any faults, the first that is written leaves both files
  holding what is in memory, and a flush that follows at once puts the documents from before the
  call there. -/
theorem failed_dispatch_rolled_back (c : DeskSettings) (d : Desk) (o : Order) (now : Instant)
    (f : Faults) (x : Cabinet) :
    let a := d.dispatch c o now f
    (d.Unwritten c o now f ↔ ∃ reason, a.reply = .refused (.statePersistence reason)) ∧
      (∀ reason, (Failure.statePersistence reason).halts = true) ∧
      (d.Unwritten c o now f →
        a.desk.state = d.state ∧ a.desk.kanban = d.kanban ∧ a.desk.dirty = true ∧
          (x.putAll a.writes).state = x.state ∧
          (∀ (rs : List Desk.Request) (r : Desk.Request),
            let (reply, later) := ((a.office x).serveAll c rs).serve c r
            r.command ≠ .snapshot → (∀ failure, reply ≠ .refused failure) →
              later.cabinet.board = later.desk.kanban ∧
                later.cabinet.state = some later.desk.state) ∧
          ∀ next g, (a.desk.flush next g).1 = none →
            (x.putAll a.writes).putAll (a.desk.flush next g).2.2 =
              ⟨d.kanban, some (d.state.stamped next)⟩) := by
  intro a
  refine ⟨Desk.dispatch_unwritten_iff, fun reason => rfl, fun h => ?_⟩
  have hback : Desk.TakenBack d a := Desk.dispatch_takenBack h
  have hdesk : a.desk = { d with dirty := true } := hback.desk
  have hmarked : (a.office x).Marked := Office.marked_of_dirty (by rw [hdesk])
  refine ⟨by rw [hdesk], by rw [hdesk], by rw [hdesk], hback.state_putAll x, fun rs r => ?_,
    fun next g hflush => ?_⟩
  -- the mark stays until a command is written, whatever else comes
  · exact (Office.serve_kept (Office.serveAll_marked c rs hmarked) c r).2
  · -- the mark makes the flush write the backlog too
    have hend := a.desk.flush_end next g
    rw [hdesk] at hflush hend ⊢
    generalize Desk.flush _ next g = r at hflush hend
    cases hend with
    | written => rfl
    | homeless | unstaged | unwritten | uncommitted => cases hflush

namespace Sample

/-- The first task is in progress. -/
def manned : Desk := ⟨single.kanban, single.state, false⟩

/-- The third task wants files that the first one has. -/
def thirdOrder : Order :=
  { taskId := "T-3", workerId := "worker-T-3-1", footprint := [], score := 0 }

end Sample

/-- A start whose state is not put in place, after the backlog was written, and a task that is only
queued and whose state cannot be staged: both are taken back. -/
theorem unwritten_dispatches_rolled_back :
    let d : Desk := ⟨Sample.board, {}, false⟩
    let start := d.dispatch Sample.settings Sample.firstOrder Sample.noon Sample.stuck
    let queueing := Sample.manned.dispatch Sample.settings Sample.thirdOrder Sample.noon
      { stage := some "No space left on device (os error 28)" }
    d.Unwritten Sample.settings Sample.firstOrder Sample.noon Sample.stuck ∧
      start.writes ≠ [] ∧ start.desk.state = {} ∧ start.desk.kanban = Sample.board ∧
      Sample.manned.state.registry.queue = [] ∧
      (Sample.manned.drafted? Sample.settings Sample.thirdOrder Sample.noon).map
        (fun e => e.state.registry.queue.map QueueEntry.taskId) = some ["T-3"] ∧
      queueing.desk.state.registry.queue = [] ∧ queueing.desk.dirty = true := by
  intro d start queueing
  have hstart : d.Unwritten Sample.settings Sample.firstOrder Sample.noon Sample.stuck :=
    Desk.dispatch_unwritten_iff.mpr ⟨"Is a directory (os error 21)", by decide +kernel⟩
  have hqueueing : Sample.manned.Unwritten Sample.settings Sample.thirdOrder Sample.noon
      { stage := some "No space left on device (os error 28)" } :=
    Desk.dispatch_unwritten_iff.mpr ⟨"No space left on device (os error 28)", by decide +kernel⟩
  obtain ⟨hstate, hkanban, -⟩ := (failed_dispatch_rolled_back Sample.settings d Sample.firstOrder
    Sample.noon Sample.stuck ⟨Sample.board, none⟩).2.2 hstart
  obtain ⟨hqueue, -, hdirty, -⟩ := (failed_dispatch_rolled_back Sample.settings Sample.manned
    Sample.thirdOrder Sample.noon { stage := some "No space left on device (os error 28)" }
    ⟨Sample.board, none⟩).2.2 hqueueing
  have hempty : Sample.manned.state.registry.queue = [] := by decide +kernel
  refine ⟨hstart, by decide +kernel, hstate, hkanban, hempty, by decide +kernel, ?_, hdirty⟩
  rw [hqueue]
  exact hempty

end Foreman
