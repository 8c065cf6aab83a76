/-
# Histories of the two documents

Backlog and state change together, by a handful of moves: the coordinator's commands, the
operator's reset, and a restart that sets the state against the processes that run.  `Books` are
the two documents as they are at a moment, whether they stand in the memory of the coordinator
or were just loaded; what is kept besides (the mark for what is not written yet, the settings)
is in `Foreman.Coordinator.Desk`.

Each move is one call: `begin_pass`, `apply_dispatch`, `enqueue` of a task that is put off,
`mark_running`, `record_session`, `apply_outcome`, `reset_task` and `restore_liveness`.  A move
that is refused leaves what the refusal leaves, which need not be nothing (`Books.after`).

A history is a list of moves each of which was allowed when it was made:

* an order comes from a plan for the documents as they are then;
* an outcome is brought only for a worker that is active then;
* a record that a move adds has a name no earlier record has.

The first two are what the run loop sees to.  Nothing sees to the third, and
`Foreman.Proofs.History.Names` says when it holds.

`Reachable k b` says that the documents `b` come about from the backlog `k` by some history that
begins with a restart on an empty state.  `History.invariant` is the one induction over
histories:  an invariant of reachable documents is proved by showing that a first start has it
and that every allowed move keeps it.
-/
import Foreman.Coordinator.Desk
import Foreman.Coordinator.Reset

namespace Foreman

/-- The two documents: the `OrchestratorState` and the backlog, as they stand at a moment. -/
structure Books where
  state : State
  kanban : Kanban
deriving DecidableEq, Repr, Inhabited

/-- What can happen to the documents. -/
inductive Move where
  | beginPass (now : Instant)
  | dispatch (order : Order) (backend worktreeDir : String) (now : Instant)
  | defer (taskId : String) (footprint : List String) (blocking : ClaimRef) (now : Instant)
  | markRunning (workerId : String) (pid : Nat)
  | recordSession (workerId sessionId : String)
  | settle (workerId : String) (outcome : Outcome) (retry : Config.Retry) (now : Instant)
  | reset (taskId : String)
  /-- The orchestrator starts again; `alive` tells which processes still run. -/
  | restart (alive : Nat → Bool)

namespace Books

/-! ## 1. Moves

What can happen, and the documents after it.  A move carries what its call is given, so the
documents after it are a function of it. -/

/-- The documents after a move.  A move that is refused leaves what the refusal leaves: a
dispatch and a reset leave everything, an outcome may have settled the state already. -/
def after (b : Books) : Move → Books
  | .beginPass now =>
    { b with
      state := (State.noteTasks { b.state with tick := b.state.tick + 1 } b.kanban.tasks now).1 }
  | .dispatch order backend worktreeDir now =>
    let (_, s, k) := b.state.dispatch b.kanban order backend worktreeDir now
    ⟨s, k⟩
  | .defer taskId footprint blocking now =>
    { b with
      state := { b.state with
        registry := b.state.registry.enqueue taskId footprint blocking now } }
  | .markRunning workerId pid =>
    { b with state := b.state.updateWorker workerId (Desk.started pid) }
  | .recordSession workerId sessionId =>
    { b with
      state := (Desk.noteSession b.state workerId sessionId).updateWorker workerId fun w =>
        { w with sessionId := some sessionId } }
  | .settle workerId outcome retry now =>
    let (_, s, k) := b.state.settle b.kanban workerId outcome retry now
    ⟨s, k⟩
  | .reset taskId =>
    match b.state.reset b.kanban taskId with
    | .ok (s, k) => ⟨s, k⟩
    | .error _ => b
  | .restart alive =>
    let (s, tasks, _) := b.state.restoreLiveness b.kanban.tasks alive
    ⟨s, { b.kanban with tasks := tasks }⟩

/-- The documents after moves made one after the other. -/
def play (b : Books) (moves : List Move) : Books := moves.foldl after b

/-- What the scheduler sees of the documents. -/
def snapshot (b : Books) : Snapshot := Snapshot.of b.state b.kanban

/-! ## 2. What a move may be

The three conditions, each decidable or read off the documents.  A plan may be made by any
routine that keeps to the contract of a `Sorter`, so an order may come first in one plan and
last in another. -/

/-- An order comes from a plan for the documents as they are, however its tasks were ranked. -/
def Planned (b : Books) : Move → Prop
  | .dispatch order _ _ _ => ∃ room moment weights plan,
    b.snapshot.Plans room moment weights plan ∧ order ∈ plan.dispatch
  | _ => True

/-- An outcome is that of an active worker. -/
def Attended (b : Books) : Move → Prop
  | .settle workerId _ _ _ => ∃ w ∈ b.state.workers, w.id = workerId ∧ w.status.isActive = true
  | _ => True

/-- A record that is added has a new name.  Records are only ever added at the end. -/
def Fresh (b : Books) (m : Move) : Prop :=
  ∀ w ∈ (b.after m).state.workers.drop b.state.workers.length, ∀ v ∈ b.state.workers, v.id ≠ w.id

instance (b : Books) (m : Move) : Decidable (b.Fresh m) :=
  inferInstanceAs (Decidable (∀ w ∈ _, ∀ v ∈ _, _))

/-- A move that may be made. -/
structure Allowed (b : Books) (m : Move) : Prop where
  planned : b.Planned m
  attended : b.Attended m
  fresh : b.Fresh m

end Books

/-! ## 3. Histories

The order of the moves is free: a restart may follow at any time, and so may a reset. -/

/-- Allowed moves made one after the other. -/
inductive History (b : Books) : List Move → Books → Prop
  | nil : History b [] b
  | snoc {moves : List Move} {c : Books} {m : Move} :
      History b moves c → c.Allowed m → History b (moves ++ [m]) (c.after m)

/-- What holds at the start and is kept by every allowed move holds at the end. -/
theorem History.invariant {P : Books → Prop}
    (hstep : ∀ c m, P c → c.Allowed m → P (c.after m)) {b c : Books} {moves : List Move}
    (h : History b moves c) (hb : P b) : P c := by
  induction h with
  | nil => exact hb
  | snoc _ hm ih => exact hstep _ _ ih hm

/-- The documents of a first start: an empty state, set against the processes that run. -/
def Books.opened (k : Kanban) (alive : Nat → Bool) : Books := Books.after ⟨{}, k⟩ (.restart alive)

/-- The documents come about from the backlog by some history. -/
def Reachable (k : Kanban) (b : Books) : Prop :=
  ∃ alive moves, History (Books.opened k alive) moves b

/-- A first start, on any backlog. -/
theorem Reachable.opened (k : Kanban) (alive : Nat → Bool) : Reachable k (Books.opened k alive) :=
  ⟨alive, [], .nil⟩

/-- A move more. -/
theorem Reachable.step {k : Kanban} {b : Books} (h : Reachable k b) {m : Move}
    (hm : b.Allowed m) : Reachable k (b.after m) := by
  obtain ⟨alive, moves, hist⟩ := h
  exact ⟨alive, moves ++ [m], hist.snoc hm⟩

/-- **An invariant of reachable documents**: every first start has it, and every allowed move
keeps it. -/
theorem Reachable.invariant {P : Books → Prop} {k : Kanban} {b : Books} (h : Reachable k b)
    (hopened : ∀ alive, P (Books.opened k alive))
    (hstep : ∀ c m, P c → c.Allowed m → P (c.after m)) : P b := by
  obtain ⟨alive, _, hist⟩ := h
  exact hist.invariant hstep (hopened alive)

/-! ## 4. A history

Three tasks, of which only one may start at a time: the other two have failed, and are reset while
the first one is in progress, which overlaps the third. -/

namespace Sample

def noon : Instant := ⟨20000, 43200, 0⟩

def board : Kanban where
  tasks :=
    [{ id := "T-1", footprint := ["./src/"] },
      { id := "T-2", status := .failed, footprint := ["docs/**", "README.md"] },
      { id := "T-3", status := .failed, footprint := ["src/lib/**"] }]

/-- The first order that is planned. -/
def nextOrder (b : Books) : Order := (b.snapshot.select none noon {}).dispatch.headD default

/-- The dispatch of the first order that is planned. -/
def startNext (b : Books) : Move := .dispatch (nextOrder b) "mock" "/wt" noon

/-- Nobody works. -/
def idle : Books := Books.opened board fun _ => false

/-- The first task is in progress. -/
def single : Books := idle.after (startNext idle)

/-- The second task may start as well, and the third one has to wait. -/
def waiting : Books := (single.after (.reset "T-2")).after (.reset "T-3")

/-- The second task may start as well. -/
def ready : Books := single.after (.reset "T-2")

/-- Both tasks are in progress. -/
def busy : Books := ready.after (startNext ready)

theorem allowed_startNext {b : Books}
    (hplan : (b.snapshot.select none noon {}).dispatch.isEmpty = false)
    (hfresh : b.Fresh (startNext b)) : b.Allowed (startNext b) := by
  refine ⟨⟨none, noon, {}, _, Snapshot.plans_select .., ?_⟩, trivial, hfresh⟩
  unfold nextOrder
  cases h : (b.snapshot.select none noon {}).dispatch with
  | nil => simp [h] at hplan
  | cons o os => exact List.mem_cons_self

theorem single_reachable : Reachable board single :=
  (Reachable.opened board _).step (allowed_startNext (by decide) (by decide))

theorem ready_reachable : Reachable board ready :=
  single_reachable.step ⟨trivial, trivial, by decide +kernel⟩

theorem waiting_reachable : Reachable board waiting :=
  ready_reachable.step ⟨trivial, trivial, by decide +kernel⟩

theorem busy_reachable : Reachable board busy :=
  ready_reachable.step (allowed_startNext (by decide +kernel) (by decide +kernel))

end Sample

end Foreman
