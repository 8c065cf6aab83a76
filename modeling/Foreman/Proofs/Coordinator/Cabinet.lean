/-
# What the files hold

The coordinator writes two documents, and either write can fail: the state cannot be staged, the
backlog cannot be replaced, or the staged state cannot be put in place.  A write that fails
leaves its file as it was.  Between the two the documents in the files can be one change apart,
and the desk's mark `dirty` has to remember that across commands.

A `Cabinet` is the two files as far as the documents in them go: `put` replaces one document as
a whole, which is what saving the backlog (`save`) and putting a staged state in its place
(`commit`) do when they succeed.  An `Office` is the coordinator with its cabinet.  One request
is one command of `run_coordinator` together with the faults that its flush meets, so any
pattern of failures is a list of requests.

The invariant is `Marked`: where the mark is missing, the backlog's file holds the backlog.  It
says nothing of the state's file, for which there is no mark, since a flush always writes the
state.

* `flush_end`: the five ends of a flush, with what was written before each.
* `flush_filed`: a flush keeps the mark honest, and leaves both documents filed if it succeeds.
* `handle_kept`: so does every command, with any arguments and any faults.
* `coordinator_writes_through`: so, after any commands, the backlog's file is behind only where
  the desk is marked, and a command that was not refused has both documents in their files.
-/
import Foreman.Proofs.Coordinator.Dispatch
import Foreman.Proofs.Coordinator.Settle
import Foreman.Proofs.History.Basic

namespace Foreman

/-! ## 1. Files

The cabinet, the requests, and what is to be shown of both. -/

/-- The two documents as their files hold them. -/
structure Cabinet where
  board : Kanban
  /-- There is no such file before the state is written for the first time. -/
  state : Option State
deriving DecidableEq, Repr, Inhabited

namespace Cabinet

/-- A write replaces its document as a whole. -/
def put (x : Cabinet) : Write → Cabinet
  | .board k => { x with board := k }
  | .state s => { x with state := some s }

/-- Writes that took effect one after the other. -/
def putAll (x : Cabinet) (writes : List Write) : Cabinet := writes.foldl put x

/-- Writes may be taken in two parts. -/
theorem putAll_append (x : Cabinet) (writes more : List Write) :
    x.putAll (writes ++ more) = (x.putAll writes).putAll more := List.foldl_append

end Cabinet

/-- A command, the time it is carried out at, and what keeps the documents from being written
meanwhile.  The faults are those of the one flush that the command ends with. -/
structure Desk.Request where
  command : Command
  now : Instant
  faults : Faults := {}

/-- The coordinator and its files. -/
structure Office where
  desk : Desk
  cabinet : Cabinet
deriving DecidableEq, Repr, Inhabited

namespace Office

/-- The coordinator at its start: the backlog is in its file, and nothing is marked. -/
def opened (k : Kanban) (s : State) (file : Option State) : Office := ⟨⟨k, s, false⟩, ⟨k, file⟩⟩

/-- The answer to a request, and the office after it. -/
def serve (c : DeskSettings) (o : Office) (r : Desk.Request) : Reply × Office :=
  let a := o.desk.handle c r.now r.faults r.command
  (a.reply, ⟨a.desk, o.cabinet.putAll a.writes⟩)

/-- The office after some requests. -/
def serveAll (c : DeskSettings) (o : Office) (rs : List Desk.Request) : Office :=
  rs.foldl (fun o r => (o.serve c r).2) o

/-- A backlog that may differ from its file is marked. -/
def Marked (o : Office) : Prop := o.desk.dirty = false → o.cabinet.board = o.desk.kanban

/-- Where the mark is set, nothing is claimed. -/
theorem marked_of_dirty {d : Desk} {x : Cabinet} (h : d.dirty = true) : Marked ⟨d, x⟩ :=
  fun hclean => by cases h.symm.trans hclean

/-- Both files hold what is in memory. -/
def Filed (o : Office) : Prop :=
  o.cabinet.board = o.desk.kanban ∧ o.cabinet.state = some o.desk.state

end Office

namespace Answer

/-- The coordinator after an answer, with what was written meanwhile put in its files. -/
def office (a : Answer) (x : Cabinet) : Office := ⟨a.desk, x.putAll a.writes⟩

/-- The mark is honest, and an answer that is no refusal has both documents in their files. -/
structure Kept (a : Answer) (x : Cabinet) : Prop where
  marked : (a.office x).Marked
  filed : (∀ failure, a.reply ≠ .refused failure) → (a.office x).Filed

/-- A refusal that wrote nothing, and changed nothing that is marked. -/
theorem Kept.refused {d e : Desk} {x : Cabinet} (h : Office.Marked ⟨d, x⟩)
    (hkanban : e.kanban = d.kanban) (hdirty : e.dirty = d.dirty) (failure : Failure) :
    Kept ⟨.refused failure, e, []⟩ x := by
  refine ⟨fun hclean => ?_, fun hreply => absurd rfl (hreply failure)⟩
  exact (h (hdirty.symm.trans hclean)).trans hkanban.symm

end Answer

/-! ## 2. Writing

A flush by its ends.  Where the state is not put in place, the mark is gone all the same, and
rightly so, since the backlog has been written by then. -/

namespace Desk

/-- What a flush writes before the state: the backlog, if it is marked. -/
def owed (d : Desk) : List Write := if d.dirty then [.board d.kanban] else []

/-- The ends of a flush: why it failed, if it did, the desk after it, and what was written. -/
inductive FlushEnd (d : Desk) (now : Instant) : Option Failure × Desk × List Write → Prop
  /-- There is no directory for the state. -/
  | homeless (reason : String) : FlushEnd d now (some (.statePersistence reason), d, [])
  /-- The state was not staged. -/
  | unstaged (reason : String) : FlushEnd d now (some (.statePersistence reason), d.stamp now, [])
  /-- The backlog was not written. -/
  | unwritten (reason : String) : d.dirty = true →
      FlushEnd d now (some (.kanban reason), d.stamp now, [])
  /-- The backlog was written if it was marked, and the state was not put in place. -/
  | uncommitted (reason : String) :
      FlushEnd d now
        (some (.statePersistence reason), { d.stamp now with dirty := false }, d.owed)
  /-- Both are written. -/
  | written :
      FlushEnd d now
        (none, { d.stamp now with dirty := false }, d.owed ++ [.state (d.stamp now).state])

/-- **There is no other end.** -/
theorem flush_end (d : Desk) (now : Instant) (f : Faults) : FlushEnd d now (d.flush now f) := by
  unfold flush
  split
  · exact .homeless _
  · exact .unstaged _
  · dsimp only
    split
    · rename_i hdirty _
      exact .unwritten _ hdirty
    · split
      · exact .uncommitted _
      · exact .written

variable {d d' : Desk} {x : Cabinet} {now : Instant} {f : Faults}

/-- With what a flush owes it written, the backlog is in its file. -/
theorem board_putAll_owed (h : Office.Marked ⟨d, x⟩) : (x.putAll d.owed).board = d.kanban := by
  unfold owed
  split
  · rfl
  · rename_i hclean
    exact h (by simpa using hclean)

/-- **A flush keeps the mark honest, and leaves both documents filed if it succeeds.**  The mark
goes with the writing of the backlog, whatever becomes of the state afterwards. -/
theorem flush_filed (h : Office.Marked ⟨d, x⟩) (now : Instant) (f : Faults) :
    Office.Marked ⟨(d.flush now f).2.1, x.putAll (d.flush now f).2.2⟩ ∧
      ((d.flush now f).1 = none →
        Office.Filed ⟨(d.flush now f).2.1, x.putAll (d.flush now f).2.2⟩) := by
  have hend := d.flush_end now f
  generalize d.flush now f = r at hend
  cases hend with
  | homeless | unstaged | unwritten => exact ⟨h, fun hnone => by cases hnone⟩
  | uncommitted => exact ⟨fun _ => board_putAll_owed h, fun hnone => by cases hnone⟩
  | written =>
    rw [Cabinet.putAll_append]
    exact ⟨fun _ => board_putAll_owed h, fun _ => ⟨board_putAll_owed h, rfl⟩⟩

theorem flushThen_kept (h : Office.Marked ⟨d, x⟩) (now : Instant) (f : Faults) (reply : Reply) :
    (d.flushThen now f reply).Kept x := by
  have hfiled := flush_filed h now f
  unfold flushThen
  generalize d.flush now f = r at hfiled
  obtain ⟨failure?, d', writes⟩ := r
  cases failure? with
  | none => exact ⟨hfiled.1, fun _ => hfiled.2 rfl⟩
  | some failure => exact ⟨hfiled.1, fun hreply => absurd rfl (hreply failure)⟩

/-- A dispatch that is taken back marks the backlog, which may have been written. -/
theorem flushDispatch_kept (before : Desk) (h : Office.Marked ⟨d, x⟩) (now : Instant) (f : Faults)
    (reply : Reply) : (flushDispatch before d now f reply).Kept x := by
  have hfiled := flush_filed h now f
  unfold flushDispatch
  generalize d.flush now f = r at hfiled
  obtain ⟨failure?, d', writes⟩ := r
  cases failure? with
  | none => exact ⟨hfiled.1, fun _ => hfiled.2 rfl⟩
  | some failure => exact ⟨Office.marked_of_dirty rfl, fun hreply => absurd rfl (hreply _)⟩

/-! ## 3. Commands

A command changes the memory and then flushes it; a look at the documents does neither. -/

/-- A change of a record is a change of the state alone. -/
theorem updateWorker_kept (h : Office.Marked ⟨d, x⟩) (workerId : String)
    (change : Worker → Worker) (now : Instant) (f : Faults) :
    (d.updateWorker workerId change now f).Kept x := by
  unfold Desk.updateWorker
  split
  · exact .refused h rfl rfl _
  · exact flushThen_kept (d := { d with state := d.state.updateWorker workerId change }) h now f
      .done

/-- A dispatch marks the backlog if it starts its task, and also if it is taken back. -/
theorem dispatch_kept (h : Office.Marked ⟨d, x⟩) (c : DeskSettings) (o : Order) (now : Instant)
    (f : Faults) : (d.dispatch c o now f).Kept x := by
  have hend := State.dispatch_end d.state d.kanban o c.backend c.worktreeDir now
  unfold Desk.dispatch
  generalize d.state.dispatch d.kanban o c.backend c.worktreeDir now = r at hend
  cases hend with
  | unknown | busy => exact .refused h rfl rfl _
  | blocked task held =>
    have hafter : ∀ s : State, Office.Marked ⟨{ d with state := s }, x⟩ := fun _ => h
    exact flushDispatch_kept d (hafter _) now f _
  | started task k' => exact flushDispatch_kept d (Office.marked_of_dirty rfl) now f _

/-- An outcome marks the backlog before it is flushed, unless it is refused. -/
theorem settle_kept (h : Office.Marked ⟨d, x⟩) (c : DeskSettings) (workerId : String)
    (outcome : Outcome) (now : Instant) (f : Faults) :
    (d.handle c now f (.settle workerId outcome)).Kept x := by
  have hend := State.settle_end d.state d.kanban workerId outcome c.retry now
  simp only [handle]
  generalize d.state.settle d.kanban workerId outcome c.retry now = r at hend
  cases hend with
  | unknown => exact .refused h rfl rfl _
  | homeless w reason =>
    exact .refused (e := { d with state := d.state.settled workerId w outcome c.retry now }) h rfl
      rfl _
  | settled w k' => exact flushThen_kept (Office.marked_of_dirty rfl) now f _

/-- **Every command that may write keeps the mark honest, and is refused or files both
documents.** -/
theorem handle_kept (h : Office.Marked ⟨d, x⟩) (c : DeskSettings) (now : Instant) (f : Faults)
    {command : Command} (hwrites : command ≠ .snapshot) : (d.handle c now f command).Kept x := by
  -- a change of the state alone leaves the mark as honest as it was
  have hstate : ∀ s : State, Office.Marked ⟨{ d with state := s }, x⟩ := fun _ => h
  cases command with
  | snapshot => exact absurd rfl hwrites
  | beginPass => exact flushThen_kept (hstate _) now f _
  | dispatch o => exact dispatch_kept h c o now f
  | defer => exact flushThen_kept (hstate _) now f .done
  | markRunning workerId pid => exact updateWorker_kept h workerId (started pid) now f
  | recordSession workerId sessionId =>
    exact updateWorker_kept (hstate (noteSession d.state workerId sessionId)) workerId _ now f
  | settle workerId outcome => exact settle_kept h c workerId outcome now f
  | flush => exact flushThen_kept h now f .done

end Desk

/-! ## 4. All requests

Marked at the start, and kept marked by every request. -/

namespace Office

variable {o : Office}

/-- A request keeps the mark honest, and what is not refused is filed. -/
theorem serve_kept (h : o.Marked) (c : DeskSettings) (r : Desk.Request) :
    (o.serve c r).2.Marked ∧
      (r.command ≠ .snapshot → (∀ failure, (o.serve c r).1 ≠ .refused failure) →
        (o.serve c r).2.Filed) := by
  obtain ⟨command, now, f⟩ := r
  by_cases hwrites : command = .snapshot
  · subst hwrites
    exact ⟨h, fun hne => absurd rfl hne⟩
  · have hkept := Desk.handle_kept h c now f hwrites
    exact ⟨hkept.marked, fun _ => hkept.filed⟩

/-- The mark stays honest through all requests. -/
theorem serveAll_marked (c : DeskSettings) :
    ∀ (rs : List Desk.Request) {o : Office}, o.Marked → (o.serveAll c rs).Marked
  | [], _, h => h
  | r :: rs, _, h => serveAll_marked c rs (serve_kept h c r).1

/-- At the start the backlog is in its file. -/
theorem opened_marked (k : Kanban) (s : State) (file : Option State) : (opened k s file).Marked :=
  fun _ => rfl

end Office

/-- **The coordinator writes through.**  Let it start with its backlog in the file, and take any
commands, each with what keeps the documents from being written at that time.  After each of them

* the backlog's file holds the backlog in memory, unless the desk is marked;
* if the command was neither refused nor only a look, both files hold what is in memory. -/
theorem coordinator_writes_through (c : DeskSettings) (k : Kanban) (s : State)
    (file : Option State) (rs : List Desk.Request) (r : Desk.Request) :
    let (reply, o) := ((Office.opened k s file).serveAll c rs).serve c r
    (o.desk.dirty = false → o.cabinet.board = o.desk.kanban) ∧
      (r.command ≠ .snapshot → (∀ failure, reply ≠ .refused failure) →
        o.cabinet.board = o.desk.kanban ∧ o.cabinet.state = some o.desk.state) :=
  Office.serve_kept (Office.serveAll_marked c rs (Office.opened_marked k s file)) c r

namespace Sample

def settings : DeskSettings := { worktreeDir := "/wt", backend := "mock", retry := {} }

/-- The first order that is planned on the backlog. -/
def firstOrder : Order := nextOrder ⟨{}, board⟩

/-- The first task is dispatched. -/
def hire : Desk.Request := { command := .dispatch firstOrder, now := noon }

/-- The first task is done. -/
def report (f : Faults) : Desk.Request where
  command := .settle firstOrder.workerId (.succeeded "" none true ⟨0⟩)
  now := noon
  faults := f

/-- The state cannot be put in place. -/
def stuck : Faults := { commit := some "Is a directory (os error 21)" }

/-- What comes of the report then. -/
def stuckReport : Reply × Office :=
  ((Office.opened board {} none).serveAll settings [hire]).serve settings (report stuck)

end Sample

/-- A report that is refused in the middle of its writing: the mark is gone, the backlog is in its
file, and the state's file is still the one of the dispatch. -/
theorem stuck_report_marked :
    Sample.stuckReport.2.desk.dirty = false ∧
      Sample.stuckReport.2.cabinet.board = Sample.stuckReport.2.desk.kanban ∧
      Sample.stuckReport.2.cabinet.state.map (fun s => s.workers.map Worker.status) =
        some [.spawned] ∧
      Sample.stuckReport.2.desk.state.workers.map Worker.status = [.succeeded] := by
  have hclean : Sample.stuckReport.2.desk.dirty = false := by decide +kernel
  have hboth := coordinator_writes_through Sample.settings Sample.board {} none [Sample.hire]
    (Sample.report Sample.stuck)
  exact ⟨hclean, hboth.1 hclean, by decide +kernel, by decide +kernel⟩

end Foreman
