/-
# The run loop

The loop of `run_scheduler` dispatches eligible tasks to workers until nothing is left to do.
Here it is a machine that takes one small step at each event, so that what happens meanwhile can
come at any moment:

* `proceed` lets the loop take its own next step;
* `finished` brings the result of a worker, in whatever order workers finish;
* `message` is what a worker tells the coordinator while it works;
* `cancel` asks the run to end, and `graceOver` tells that its workers had time enough;
* `world` is any change of the world around the loop.

A step gives the loop after it and the acts it consisted of.  Each command to the coordinator is
one act with its reply, so the history of a run is the list of its acts.

The phases are the stretches of one round between two calls of the coordinator: `stepTop` is the
test for a shutdown and `run_merges`, `stepBeginning` is `begin_pass`, `stepLooking` is
`get_snapshot` with `select_tasks`, `stepDeferring` and `stepDispatching` are the two loops over
the plan, and `afterPass` chooses between the end, the idle sleep and the wait for a worker.
`shutdown_workers` and `abort_run` are the phase `draining`.

A command that is refused in opening a pass, looking, putting off or flushing ends the loop at once,
without waiting for the workers.  Only the dispatch and the result of a worker end it by way of
`abort`.
-/
import Foreman.Coordinator.Desk
import Foreman.Merge.Report
import Foreman.Run.Basic

namespace Foreman
namespace Run

/-! ## 1. What surrounds the loop

What a run is given (`Terms`, `Surroundings`), what it holds between two steps (`Loop`), and
what can come to it (`Event`).  The world is a parameter: the loop learns of it by the faults
that writing a document meets and by what the merger reports. -/

/-- The fixed inputs of a run: the `RunParams`, and what the loop reads of the configuration. -/
structure Terms where
  desk : DeskSettings
  /-- How many workers may work at a time. -/
  limit : Nat
  /-- How many dispatches there may be. -/
  cap : Option Nat := none
  scoring : Config.Scoring := {}

/-- How the loop acts on the world. -/
structure Surroundings (σ : Type) where
  /-- What keeps the coordinator's documents from being written. -/
  faults : σ → Faults
  /-- A document is written. -/
  carryOut : σ → Write → σ
  /-- Without a merger, finished branches are left alone. -/
  merger : Option (Merger σ)

/-- A worker whose result is still to come: an entry of the join set. -/
structure Flight where
  workerId : String
  taskId : String
deriving DecidableEq, Repr, Inhabited

/-- What one pass over the tasks works with. -/
structure Pass where
  now : Instant
  rateLimit : RateLimit
  capacity : Nat
  snapshot : Snapshot
deriving Repr, Inhabited

/-- What the loop does next. -/
inductive Phase where
  /-- Looks whether it shall end, and merges finished branches. -/
  | top
  /-- Opens a pass. -/
  | beginning
  /-- Takes a snapshot and makes a plan. -/
  | looking
  /-- Puts tasks off. -/
  | deferring (rest : List Deferral) (orders : List Order) (pass : Pass)
  /-- Starts tasks. -/
  | dispatching (rest : List Order) (pass : Pass)
  | sleeping (span : Span)
  /-- Waits for a worker. -/
  | waiting
  /-- Waits for all workers, in order to end; `first` is the first failure meanwhile, and `cause`
  the failure because of which the run ends. -/
  | draining (first cause : Option Failure)
  /-- Writes the documents a last time. -/
  | flushing (halt : Halt)
  | ended (result : Except Failure Summary)

/-- The loop at a moment: the `SchedulerState` with the join set, the coordinator, and the place
in the round that is reached. -/
structure Loop (σ : Type) where
  world : σ
  desk : Desk
  phase : Phase := .top
  flights : List Flight := []
  /-- The run was asked to end. -/
  cancelled : Bool := false
  /-- The workers were asked to end. -/
  stopping : Bool := false
  summary : Summary := {}
  /-- Finished branches that wait to be merged. -/
  pending : List Candidate := []

/-- What a worker tells the coordinator while it works. -/
inductive Message where
  | running (workerId : String) (pid : Nat)
  | session (workerId sessionId : String)
deriving DecidableEq, Repr, Inhabited

def Message.command : Message → Command
  | running workerId pid => .markRunning workerId pid
  | session workerId sessionId => .recordSession workerId sessionId

/-- What comes to the loop. -/
inductive Event (σ : Type) where
  | proceed (now : Instant) (rateLimit : RateLimit)
  | finished (workerId : String) (result : Except Failure Outcome) (now : Instant)
  | message (message : Message) (now : Instant)
  | cancel
  | graceOver
  | world (w : σ)

/-- What the loop does. -/
inductive Act where
  /-- Tells the coordinator something. -/
  | told (command : Command) (reply : Reply)
  /-- Offers branches to the merger. -/
  | offered (candidates : List Candidate) (report : MergeReport)
  /-- Asks the workers to end. -/
  | stopped

namespace Loop

variable {σ : Type}

/-- A step: the loop after it, and what it did. -/
abbrev Step (σ : Type) := Loop σ × List Act

/-! ## 2. Pieces of a step

What several steps share.  None of them looks at the phase but to set it. -/

/-- Tells the coordinator something; what it writes is carried out at once. -/
def tell (l : Loop σ) (t : Terms) (s : Surroundings σ) (command : Command) (now : Instant) :
    Reply × Loop σ :=
  let a := l.desk.handle t.desk now (s.faults l.world) command
  (a.reply, { l with desk := a.desk, world := a.writes.foldl s.carryOut l.world })

/-- Goes on with another phase. -/
def goTo (l : Loop σ) (phase : Phase) : Loop σ := { l with phase := phase }

/-- Ends with a failure, whoever still works. -/
def failWith (l : Loop σ) (failure : Failure) : Loop σ := l.goTo (.ended (.error failure))

/-- Asks all workers to end because of a failure, as `abort_run` does.  The failure is returned
when the last of them has ended. -/
def abort (l : Loop σ) (failure : Failure) : Loop σ :=
  { l with stopping := true, phase := .draining none (some failure) }

/-- Offers the finished branches to the merger, as `run_merges` does.  Whatever comes of it,
none of them is offered again. -/
def merge (l : Loop σ) (s : Surroundings σ) : Step σ :=
  match l.pending, s.merger with
  | [], _ => (l, [])
  | _, none => ({ l with pending := [] }, [])
  | pending, some m =>
    let (report, world) := m.mergeAll pending l.world
    ({ l with
        world := world
        pending := []
        summary := { l.summary with
          merged := l.summary.merged ++ report.merged
          skipped := l.summary.skipped ++ report.skipped } },
      [.offered pending report])

/-- The cap on dispatches is reached (`is_cap_reached`). -/
def isCapReached (l : Loop σ) (t : Terms) : Bool :=
  match t.cap with
  | some cap => cap ≤ l.summary.dispatched
  | none => false

/-- How many tasks may be started now.  The places that are free are counted from the workers of
this run alone; what is left of the cap is `remaining_cap`. -/
def capacity (l : Loop σ) (t : Terms) (r : RateLimit) : Nat :=
  if r.isLimited then 0
  else
    let free := t.limit - l.flights.length
    match t.cap with
    | some cap => min free (cap - l.summary.dispatched)
    | none => free

/-- How long to sleep when no worker works, unless the run is over.  A rate limit is waited for;
else the next cooldown is; else the loop looks again after a second, if a task could have been
started. -/
def idleSpan? (p : Pass) : Option Span :=
  match p.rateLimit with
  | .limited (some until_) =>
    let nanos := until_.nanosSince p.now
    some (if 0 ≤ nanos then ⟨nanos.toNat⟩ else .ofSeconds 1)
  | .limited none => some longestSleep
  | _ =>
    match p.snapshot.nextCooldown? p.now with
    | some span => some span
    | none =>
      if 0 < p.capacity && (p.snapshot.eligibleTasks p.now).isEmpty then none
      else some (.ofSeconds 1)

/-- What follows a pass.  No sleep is longer than `longestSleep`, so a cancellation is soon
seen. -/
def afterPass (l : Loop σ) (t : Terms) (p : Pass) : Phase :=
  if l.flights ≠ [] then .waiting
  else if l.isCapReached t then .flushing .capReached
  else
    match idleSpan? p with
    | none => .flushing .idle
    | some span => .sleeping (if longestSleep.nanos < span.nanos then longestSleep else span)

/-- The account after an outcome that was settled.  The branch of a success waits for the next
round. -/
def account (l : Loop σ) (taskId : String) (outcome : Outcome) (effect : Effect) : Loop σ :=
  let s := l.summary
  match outcome with
  | .succeeded .. =>
    { l with
      summary := { s with completed := s.completed ++ [taskId] }
      pending := l.pending ++ effect.merge.toList }
  | .retryable .. =>
    if effect.taskStatus = .failed then
      { l with summary := { s with failed := s.failed ++ [taskId] } }
    else { l with summary := { s with retries := s.retries + 1 } }
  | .fatal .. => { l with summary := { s with failed := s.failed ++ [taskId] } }
  | .cancelled _ => l

/-- The outcome that stands for a result: an attempt that stops the run counts as cancelled. -/
def outcomeOf : Except Failure Outcome → Outcome
  | .ok outcome => outcome
  | .error _ => .cancelled none

/-- The failure of a result. -/
def failureOf? : Except Failure Outcome → Option Failure
  | .ok _ => none
  | .error f => some f

/-- Settles the result of a worker, as `handle_worker_result` does.  Gives the failure that came
of it, if one did: that of the coordinator, or else that of the attempt. -/
def settle (l : Loop σ) (t : Terms) (s : Surroundings σ) (f : Flight)
    (result : Except Failure Outcome) (now : Instant) : Option Failure × Step σ :=
  let outcome := outcomeOf result
  let command : Command := .settle f.workerId outcome
  let (reply, l) := { l with flights := l.flights.erase f }.tell t s command now
  let acts : List Act := [.told command reply]
  match reply with
  | .effect effect => (failureOf? result, l.account f.taskId outcome effect, acts)
  | .refused failure => (some failure, l, acts)
  | _ => (failureOf? result, l, acts)

/-! ## 3. The loop's own steps

One definition for each phase, in the order of a round. -/

/-- The loop looks whether it shall end.  If so, branches that wait are not merged any more. -/
def stepTop (l : Loop σ) (s : Surroundings σ) : Step σ :=
  if l.cancelled then (l.goTo (.draining none none), [])
  else
    let (l, acts) := l.merge s
    (l.goTo .beginning, acts)

/-- A pass is opened. -/
def stepBeginning (l : Loop σ) (t : Terms) (s : Surroundings σ) (now : Instant) : Step σ :=
  let (reply, l) := l.tell t s .beginPass now
  match reply with
  | .refused f => (l.failWith f, [.told .beginPass reply])
  | _ => (l.goTo .looking, [.told .beginPass reply])

/-- The snapshot is taken, and the plan is made on it. -/
def stepLooking (l : Loop σ) (t : Terms) (s : Surroundings σ) (now : Instant) (r : RateLimit) :
    Step σ :=
  let (reply, l) := l.tell t s .snapshot now
  match reply with
  | .snapshot snapshot =>
    let room := l.capacity t r
    let plan := snapshot.select (some room) now t.scoring
    (l.goTo (.deferring plan.deferred plan.dispatch ⟨now, r, room, snapshot⟩),
      [.told .snapshot reply])
  | .refused f => (l.failWith f, [.told .snapshot reply])
  | _ => (l, [.told .snapshot reply])

/-- One task is put off. -/
def stepDeferring (l : Loop σ) (t : Terms) (s : Surroundings σ) (now : Instant) :
    List Deferral → List Order → Pass → Step σ
  | [], orders, p => (l.goTo (.dispatching orders p), [])
  | d :: rest, orders, p =>
    let command : Command := .defer d.taskId d.footprint d.blocking
    let (reply, l) := l.tell t s command now
    match reply with
    | .refused f => (l.failWith f, [.told command reply])
    | _ => (l.goTo (.deferring rest orders p), [.told command reply])

/-- One task is started.  A task that is busy or in conflict is passed over, as is every failure
that does not halt a run. -/
def stepDispatching (l : Loop σ) (t : Terms) (s : Surroundings σ) (now : Instant) :
    List Order → Pass → Step σ
  | [], p => (l.goTo (l.afterPass t p), [])
  | o :: rest, p =>
    let (reply, l) := l.tell t s (.dispatch o) now
    let acts : List Act := [.told (.dispatch o) reply]
    match reply with
    | .ticket ticket =>
      ({ l with
          flights := l.flights ++ [⟨ticket.worker.id, ticket.task.id⟩]
          summary := { l.summary with dispatched := l.summary.dispatched + 1 }
          phase := .dispatching rest p },
        acts)
    | .refused f =>
      if f.halts then (l.abort f, acts ++ [.stopped]) else (l.goTo (.dispatching rest p), acts)
    | _ => (l.goTo (.dispatching rest p), acts)

/-- The loop ends when no worker is left.  A failure that the run ends for is returned; of those
that came up meanwhile, the first is, if it is one that halts a run. -/
def stepDraining (l : Loop σ) (first cause : Option Failure) : Step σ :=
  if l.flights ≠ [] then (l, [])
  else
    match cause, first with
    | some f, _ => (l.failWith f, [])
    | none, some f => (if f.halts then l.failWith f else l.goTo (.flushing .shutdownRequested), [])
    | none, none => (l.goTo (.flushing .shutdownRequested), [])

/-- The documents are written a last time, and the account is closed. -/
def stepFlushing (l : Loop σ) (t : Terms) (s : Surroundings σ) (now : Instant) (halt : Halt) :
    Step σ :=
  let (reply, l) := l.tell t s .flush now
  match reply with
  | .refused f => (l.failWith f, [.told .flush reply])
  | _ => (l.goTo (.ended (.ok (l.summary.close halt))), [.told .flush reply])

/-- The loop's own next step. -/
def proceed (l : Loop σ) (t : Terms) (s : Surroundings σ) (now : Instant) (r : RateLimit) :
    Step σ :=
  match l.phase with
  | .top => l.stepTop s
  | .beginning => l.stepBeginning t s now
  | .looking => l.stepLooking t s now r
  | .deferring rest orders p => l.stepDeferring t s now rest orders p
  | .dispatching rest p => l.stepDispatching t s now rest p
  | .sleeping _ => (l.goTo .top, [])
  | .waiting => (if l.cancelled then l.goTo .top else l, [])
  | .draining first cause => l.stepDraining first cause
  | .flushing halt => l.stepFlushing t s now halt
  | .ended _ => (l, [])

/-! ## 4. What comes from outside

A result is taken while the loop waits for one, which is where `join_next` is called.  A message
and a change of the world are taken in every phase, since workers run beside the loop. -/

/-- The result of a worker, which only a loop that waits takes. -/
def finished (l : Loop σ) (t : Terms) (s : Surroundings σ) (workerId : String)
    (result : Except Failure Outcome) (now : Instant) : Step σ :=
  match l.phase, l.flights.find? fun f => f.workerId = workerId with
  | .waiting, some f =>
    match l.settle t s f result now with
    | (none, l, acts) => (l.goTo .top, acts)
    | (some failure, l, acts) => (l.abort failure, acts ++ [.stopped])
  | .draining first cause, some f =>
    let (failure, l, acts) := l.settle t s f result now
    (l.goTo (.draining (first.or failure) cause), acts)
  | _, _ => (l, [])

/-- The loop takes a step. -/
def step (l : Loop σ) (t : Terms) (s : Surroundings σ) : Event σ → Step σ
  | .proceed now r => l.proceed t s now r
  | .finished workerId result now => l.finished t s workerId result now
  | .message m now =>
    let (reply, l) := l.tell t s m.command now
    (l, [.told m.command reply])
  | .cancel => ({ l with cancelled := true }, [])
  | .graceOver =>
    match l.phase with
    | .draining .. => ({ l with stopping := true }, if l.stopping then [] else [.stopped])
    | _ => (l, [])
  | .world w => ({ l with world := w }, [])

/-- The steps for events that come one after the other. -/
def run (l : Loop σ) (t : Terms) (s : Surroundings σ) (events : List (Event σ)) : Step σ :=
  events.foldl
    (fun acc e => let (l, acts) := acc.1.step t s e; (l, acc.2 ++ acts)) (l, [])

/-- The result of a loop that has ended. -/
def result? (l : Loop σ) : Option (Except Failure Summary) :=
  match l.phase with
  | .ended r => some r
  | _ => none

end Loop
end Run
end Foreman
