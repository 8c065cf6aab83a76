/-
# The coordinator

One desk keeps backlog and state, takes commands one after the other, and writes both documents
before it answers.  A `Desk` is the `CoordinatorState` of the orchestrator, its settings are the
`CoordinatorConfig`, and `Desk.handle` is one turn of the loop in `run_coordinator`: one function
of the command, the clock and the faults, where the loop answers on a channel.

Three rules keep the two documents together.

* The state is staged first and put in place only after the backlog was written, so a failed
  backlog leaves both files as they were (`flush`).
* The backlog is written only if a status changed since it was last written (`kanban_dirty`, here
  `dirty`).
* A dispatch that cannot be written is taken back, and counts as a failure to keep the state
  (`handle_dispatch`, here `dispatch` and `flushDispatch`).

The desk does not see the files.  It sees the faults that keep a write from taking effect, one for
each step at which a flush can fail, and it leaves a list of the writes that took effect.  So
everything that is proved of the coordinator is proved for every way in which writing may fail,
and `Documents` reads the faults off a tree of files and carries the writes out on it.
-/
import Foreman.Coordinator.Dispatch
import Foreman.Coordinator.Settle

namespace Foreman

/-- What the coordinator holds in memory.  Between two commands this is all there is: the
documents on the disk are only ever written from it. -/
structure Desk where
  kanban : Kanban
  state : State
  /-- The backlog differs, or may differ, from its file.  A dispatch that was rolled back sets it
  too, since the status it takes back may already stand on the disk. -/
  dirty : Bool := false
deriving DecidableEq, Repr, Inhabited

/-- The fixed inputs of the coordinator.  The path of the backlog is not among them: where the
documents are concerns `Documents` alone. -/
structure DeskSettings where
  worktreeDir : String
  backend : String
  retry : Config.Retry
deriving DecidableEq, Repr, Inhabited

/-- What keeps the two documents from being written, with the reasons, in the order in which a
flush meets them. -/
structure Faults where
  /-- There is no directory for the state. -/
  directory : Option String := none
  /-- The state cannot be staged beside its file. -/
  stage : Option String := none
  /-- The backlog cannot be written. -/
  board : Option String := none
  /-- The staged state cannot be put in place. -/
  commit : Option String := none
deriving DecidableEq, Repr, Inhabited

/-- A document that was replaced as a whole.  There is no other kind of write: both documents
are put in place by renaming a complete file. -/
inductive Write where
  | board (kanban : Kanban)
  | state (state : State)
deriving DecidableEq, Repr

/-- What the coordinator is asked to do: the commands of `CoordinatorCommand`, and `snapshot`
for `GetSnapshot`. -/
inductive Command where
  | snapshot
  | beginPass
  | dispatch (order : Order)
  | defer (taskId : String) (footprint : List String) (blocking : ClaimRef)
  | markRunning (workerId : String) (pid : Nat)
  | recordSession (workerId sessionId : String)
  | settle (workerId : String) (outcome : Outcome)
  | flush
deriving Repr

/-- What the coordinator answers.  A command that can fail and has nothing to tell answers
`done`. -/
inductive Reply where
  | snapshot (snapshot : Snapshot)
  | tick (n : Nat)
  | ticket (ticket : Ticket)
  | effect (effect : Effect)
  | done
  | refused (failure : Failure)
deriving DecidableEq, Repr

/-- The answer, the memory after it, and what was written meanwhile. -/
structure Answer where
  reply : Reply
  desk : Desk
  writes : List Write
deriving DecidableEq, Repr

namespace Desk

/-- Marks the state with the time of its writing. -/
def stamp (d : Desk) (now : Instant) : Desk :=
  { d with state := d.state.stamped now }

/-- Writes the state, and the backlog if it changed.  Returns why that failed, if it did.

The time of writing is noted in memory as soon as the document is staged.  If the backlog cannot
be written, it stays there although no file has it. -/
def flush (d : Desk) (now : Instant) (f : Faults) : Option Failure × Desk × List Write :=
  match f.directory, f.stage with
  | some reason, _ => (some (.statePersistence reason), d, [])
  | none, some reason => (some (.statePersistence reason), d.stamp now, [])
  | none, none =>
    let d := d.stamp now
    -- the staged state is dropped here: its file is still the old one
    match d.dirty, f.board with
    | true, some reason => (some (.kanban reason), d, [])
    | dirty, _ =>
      let boards := if dirty then [Write.board d.kanban] else []
      let d := { d with dirty := false }
      match f.commit with
      | some reason => (some (.statePersistence reason), d, boards)
      | none => (none, d, boards ++ [.state d.state])

/-- Writes, and answers with `reply` if that succeeded. -/
def flushThen (d : Desk) (now : Instant) (f : Faults) (reply : Reply) : Answer :=
  match d.flush now f with
  | (none, d, writes) => ⟨reply, d, writes⟩
  | (some failure, d, writes) => ⟨.refused failure, d, writes⟩

/-- A write that fails during a dispatch is a failure to keep the state, whichever document it
was.  Such a failure ends the run, which one to write the backlog alone would not. -/
def asPersistence : Failure → Failure
  | .kanban reason => .statePersistence reason
  | failure => failure

/-- Writes what a dispatch changed; takes it back to `before` if that fails.  The backlog counts
as changed from then on. -/
def flushDispatch (before after : Desk) (now : Instant) (f : Faults) (reply : Reply) : Answer :=
  match after.flush now f with
  | (none, d, writes) => ⟨reply, d, writes⟩
  | (some failure, _, writes) =>
    ⟨.refused (asPersistence failure), { before with dirty := true }, writes⟩

/-- A dispatch and its writing, as one unit (`handle_dispatch`).  A conflict is written too,
because the task was put in the queue; every other refusal changed nothing that has to be kept. -/
def dispatch (d : Desk) (c : DeskSettings) (order : Order) (now : Instant) (f : Faults) :
    Answer :=
  match d.state.dispatch d.kanban order c.backend c.worktreeDir now with
  | (.ok ticket, s, k) => flushDispatch d ⟨k, s, true⟩ now f (.ticket ticket)
  | (.error (.conflict pattern holder), s, k) =>
    flushDispatch d { d with state := s, kanban := k } now f
      (.refused (.conflict pattern holder))
  | (.error failure, s, k) => ⟨.refused failure, { d with state := s, kanban := k }, []⟩

/-- A change of a worker's record and its writing (`handle_worker_update`). -/
def updateWorker (d : Desk) (workerId : String) (change : Worker → Worker) (now : Instant)
    (f : Faults) : Answer :=
  match d.state.worker? workerId with
  | none => ⟨.refused (.workspace ("Unknown worker " ++ workerId)), d, []⟩
  | some _ =>
    { d with state := d.state.updateWorker workerId change }.flushThen now f .done

/-- A worker's process has started.  A record that is past `spawned` keeps its status, and the
number of the process is noted in any case. -/
def started (pid : Nat) (w : Worker) : Worker :=
  { w with status := if w.status = .spawned then .running else w.status, pid := some pid }

/-- Notes the session of a worker for its task, so that a later attempt can resume it. -/
def noteSession (s : State) (workerId sessionId : String) : State :=
  match s.worker? workerId with
  | none => s
  | some w =>
    { s with
      resume := s.resume.insert w.taskId
        { s.resumeOf w.taskId with sessionId := some sessionId } }

/-- Carries out a command and answers it: one turn of `run_coordinator`.

A worker's outcome is applied by `handle_apply_outcome`.  If that refuses it, what was changed so
far stays in memory and nothing is written. -/
def handle (d : Desk) (c : DeskSettings) (now : Instant) (f : Faults) : Command → Answer
  | .snapshot => ⟨.snapshot (Snapshot.of d.state d.kanban), d, []⟩
  | .beginPass =>
    let s := { d.state with tick := d.state.tick + 1 }
    { d with state := (s.noteTasks d.kanban.tasks now).1 }.flushThen now f (.tick s.tick)
  | .dispatch order => d.dispatch c order now f
  | .defer taskId footprint blocking =>
    let registry := d.state.registry.enqueue taskId footprint blocking now
    { d with state := { d.state with registry := registry } }.flushThen now f .done
  | .markRunning workerId pid => d.updateWorker workerId (started pid) now f
  | .recordSession workerId sessionId =>
    { d with state := noteSession d.state workerId sessionId }.updateWorker workerId
      (fun w => { w with sessionId := some sessionId }) now f
  | .settle workerId outcome =>
    match d.state.settle d.kanban workerId outcome c.retry now with
    | (.ok effect, s, k) =>
      ({ kanban := k, state := s, dirty := true } : Desk).flushThen now f (.effect effect)
    | (.error failure, s, k) => ⟨.refused failure, { d with state := s, kanban := k }, []⟩
  | .flush => d.flushThen now f .done

/-- The last writing, when nobody is left to ask.  Nobody hears whether it succeeded. -/
def close (d : Desk) (now : Instant) (f : Faults) : Desk × List Write :=
  let (_, d, writes) := d.flush now f
  (d, writes)

end Desk
end Foreman
