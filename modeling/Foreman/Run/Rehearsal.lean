/-
# Runs on a clock of their own

The run loop with everything around it: attempts that last their time, a clock that goes from
one event to the next, and a moment at which the run is cancelled.  Of attempts that end at one
moment, the one that was started first is told first.

An attempt goes through `run_attempt` in stages, since the loop may act between them: the agent
is asked for (`beginAttempt`), runs until its time has come (`Rest.running`), may have to let a
rate limit pass (`Rest.cooling`), and then has a result that waits for the loop (`Rest.over`).

The clock never has two things to do at once.  It goes to whichever comes first of the loop's
own sleep, the next attempt that is due, the end of the grace and the cancellation, and then
lets the loop take the one step that belongs to it.  So a rehearsal is one run of the machine of
`Foreman.Run.Loop`, on a list of events that the clock makes up as it goes; what is proved of
all lists of events holds of it.
-/
import Foreman.Agent.Plan
import Foreman.Agent.Stream
import Foreman.Config.Document
import Foreman.Coordinator.Documents
import Foreman.Run.Attempt
import Foreman.Run.Link
import Foreman.Run.Loop

namespace Foreman
namespace Run

/-! ## 1. What is fixed

What a run is set up with, read off a configuration. -/

/-- The fixed inputs of a run and of all that surrounds it. -/
structure Setting (σ : Type) where
  terms : Terms
  link : Link σ
  machine : σ → Machine
  withMachine : σ → Machine → σ
  merger : Option (Merger σ)
  documents : Documents
  workspaces : Workspaces
  runtimeDir : String
  timeout : Span
  cooldown : Span
  grace : Span
  maxTurns : Nat
  /-- The time at which the clock starts. -/
  start : Instant
  /-- When the run is cancelled, on the clock. -/
  cancelAt : Option Span := none
  /-- The identifiers for new sessions. -/
  newId : Nat → String
  /-- The process that stands for an agent. -/
  pid : Nat

/-- The directories and bounds of a configuration. -/
def Setting.ofConfig {σ : Type} (c : Config) (root : String) (cap : Option Nat) (link : Link σ)
    (machine : σ → Machine) (withMachine : σ → Machine → σ) (merger : Option (Merger σ))
    (start : Instant) (newId : Nat → String) (pid : Nat) (backend : String) : Setting σ where
  terms :=
    { desk := ⟨c.worktreeDir root, backend, c.retry⟩
      limit := c.workers.limit
      cap := cap
      scoring := c.scoring }
  link := link
  machine := machine
  withMachine := withMachine
  merger := merger
  documents := ⟨c.kanbanPath root, c.statePath root⟩
  workspaces := ⟨root, c.worktreeDir root, c.project.trunk⟩
  runtimeDir := c.runtimeDir root
  timeout := c.invocationTimeout
  cooldown := c.rateLimitCooldown
  grace := c.shutdownGrace
  maxTurns := c.workers.maxTurns
  start := start
  newId := newId
  pid := pid

namespace Setting

variable {σ : Type}

/-- How the loop acts on the world. -/
def surroundings (g : Setting σ) : Surroundings σ where
  faults w := g.documents.faults (g.machine w).files
  carryOut w write :=
    let m := g.machine w
    g.withMachine w { m with files := g.documents.carryOut m.files write }
  merger := g.merger

end Setting

/-! ## 2. Attempts on their way

The beginning of an attempt up to the agent's start, with the messages it sends on its way, and
what follows from the acts of the loop: a ticket begins an attempt, and a stop cancels those
that run. -/

/-- What is still to come of an attempt. -/
inductive Rest where
  /-- The agent runs. -/
  | running (r : Running)
  /-- A rate limit passes. -/
  | cooling (outcome : Outcome)
  | over (result : Except Failure Outcome)

structure Attempt where
  ticket : Ticket
  workspace : Workspace := ⟨"", "", false⟩
  session : Session := .fresh
  paths : CapturePaths := ⟨"", ""⟩
  /-- When it goes on, on the clock. -/
  due : Span
  rest : Rest

/-- A run on its way. -/
structure Rehearsal (σ : Type) where
  loop : Loop σ
  clock : Span := ⟨0⟩
  attempts : List Attempt := []
  /-- When the grace of the workers is over. -/
  graceEnd : Option Span := none
  /-- How many identifiers were given to sessions. -/
  drawn : Nat := 0
  /-- What agents were asked for. -/
  requests : List Request := []

namespace Rehearsal

variable {σ : Type}

def now (r : Rehearsal σ) (g : Setting σ) : Instant := (g.start.add? r.clock).getD g.start

/-- Work with git on the machine of the world. -/
def work {α : Type} (r : Rehearsal σ) (g : Setting σ) (w : Git.Work α) :
    Except String α × Rehearsal σ :=
  let (result, m) := w (g.machine r.loop.world)
  (result, { r with loop := { r.loop with world := g.withMachine r.loop.world m } })

/-- A message of a worker; gives why it was refused, if it was. -/
def send (r : Rehearsal σ) (g : Setting σ) (m : Message) : Option Failure × Rehearsal σ :=
  let (l, acts) := r.loop.step g.terms g.surroundings (.message m (r.now g))
  let r := { r with loop := l }
  match acts with
  | [.told _ (.refused f)] => (some f, r)
  | _ => (none, r)

/-- An attempt that is over before the agent was started. -/
def overAtOnce (r : Rehearsal σ) (t : Ticket) (result : Except Failure Outcome) : Rehearsal σ :=
  { r with attempts := r.attempts ++ [{ ticket := t, due := r.clock, rest := .over result }] }

/-- Asks the agent for the attempt. -/
def invoke (r : Rehearsal σ) (g : Setting σ) (t : Ticket) (w : Workspace) (session : Session) :
    Rehearsal σ :=
  let files := (g.machine r.loop.world).files
  let plan := Agent.readPlan? files g.workspaces.root t.task
  let request := t.request w g.workspaces.trunk plan g.maxTurns session
  let paths := CapturePaths.ofAttempt g.runtimeDir t.worker.id t.worker.iteration
  let (started, world) := g.link.invoke request paths g.timeout r.loop.world
  let r := { r with requests := r.requests ++ [request], loop := { r.loop with world := world } }
  match started with
  | .error f => r.overAtOnce t (f.ofStart session)
  | .ok running =>
    let (_, r) := r.send g (.running t.worker.id g.pid)
    { r with attempts := r.attempts ++
        [{ ticket := t, workspace := w, session := session, paths := paths,
           due := ⟨r.clock.nanos + running.lasts.nanos⟩, rest := .running running }] }

/-- Begins the attempt of a ticket: the workspace, the session, the prompts and the agent, in
this order.  If one of them fails, the attempt is over at once. -/
def beginAttempt (r : Rehearsal σ) (g : Setting σ) (t : Ticket) : Rehearsal σ :=
  match r.work g (g.workspaces.acquire t.worker.id) with
  | (.error e, r) => r.overAtOnce t (.ok (.fatal (Failure.workspace e).message t.worker.sessionId))
  | (.ok w, r) =>
    let session := t.session g.link.sessions g.link.named (g.newId r.drawn)
    match session with
    | .create id =>
      match { r with drawn := r.drawn + 1 }.send g (.session t.worker.id id) with
      | (some f, r) => r.overAtOnce t (.error f)
      | (none, r) => r.invoke g t w session
    | _ => r.invoke g t w session

/-- The session that is known when the agent has ended. -/
def sessionOf (r : Rehearsal σ) (g : Setting σ) (a : Attempt) : Option String :=
  let stdout := (g.machine r.loop.world).readCapture a.paths.stdout
  a.session.learned (Agent.sessionId stdout g.link.sessionKeys)

/-- All attempts that still run are cancelled. -/
def stopAll (r : Rehearsal σ) (g : Setting σ) : Rehearsal σ :=
  let stop (a : Attempt) : Attempt :=
    let ended : Attempt :=
      { a with due := r.clock, rest := .over (.ok (.cancelled (r.sessionOf g a))) }
    match a.rest with
    | .over _ => a
    | _ => ended
  { r with attempts := r.attempts.map stop }

/-- What follows from the acts of the loop. -/
def react (r : Rehearsal σ) (g : Setting σ) (acts : List Act) : Rehearsal σ :=
  acts.foldl
    (fun r act =>
      match act with
      | .told _ (.ticket t) => r.beginAttempt g t
      | .stopped => r.stopAll g
      | _ => r)
    r

/-- The loop takes a step. -/
def feed (r : Rehearsal σ) (g : Setting σ) (e : Event σ) : Rehearsal σ :=
  let (l, acts) := r.loop.step g.terms g.surroundings e
  { r with loop := l }.react g acts

/-! ## 3. The end of an attempt

What is made of an agent that has ended.  An attempt that was cancelled is told as cancelled,
however it ended. -/

/-- Writes what an attempt leaves in its workspace. -/
def leave (t : Tree) (dir : String) (files : List (String × String)) : Except Failure Tree :=
  files.foldlM
    (fun (t : Tree) f =>
      let path := Path.join dir f.1
      let written : Except FileError Tree := do
        (← t.mkdirAll ((Path.parent? path).getD "/")).writeText path f.2
      match written with
      | .ok t => .ok t
      | .error e => .error (.spawn e.message))
    t

/-- The outcome of an agent that has ended.  A success is committed first, so that it is known
whether there is anything to merge (`finalize_workspace`). -/
def judge (r : Rehearsal σ) (g : Setting σ) (a : Attempt) (f : Finished) : Outcome × Rehearsal σ :=
  let m := g.machine r.loop.world
  let stdout := m.readCapture a.paths.stdout
  let session := r.sessionOf g a
  if f.exitCode = 0 then
    let (mergeable, r) := r.work g (g.workspaces.finalize a.workspace a.ticket.commitMessage)
    (.succeeded (Agent.finalText stdout) session (mergeable.toOption.getD false) f.elapsed, r)
  else (f.failure g.timeout (m.readCapture a.paths.stderr) session, r)

/-- Tells the loop the result of an attempt. -/
def deliver (r : Rehearsal σ) (g : Setting σ) (a : Attempt) (result : Except Failure Outcome) :
    Rehearsal σ :=
  let attempts := r.attempts.filter fun b => b.ticket.worker.id ≠ a.ticket.worker.id
  { r with attempts := attempts }.feed g (.finished a.ticket.worker.id result (r.now g))

/-- An attempt whose time has come goes on. -/
def goOn (r : Rehearsal σ) (g : Setting σ) (a : Attempt) : Rehearsal σ :=
  let r := { r with clock := if r.clock.nanos < a.due.nanos then a.due else r.clock }
  match a.rest with
  | .over result => r.deliver g a result
  | .cooling outcome => r.deliver g a (.ok outcome)
  | .running running =>
    let m := g.machine r.loop.world
    match leave m.files a.workspace.path running.leaves with
    | .error f => r.deliver g a (f.ofStart a.session)
    | .ok files =>
      let world := g.withMachine r.loop.world { m with files := files }
      let r := { r with loop := { r.loop with world := world } }
      let (outcome, r) := r.judge g a running.finished
      match outcome with
      -- a limited agent is let rest before the outcome is told, so its slot is taken meanwhile
      | .retryable .rateLimited .. =>
        let (span, world) := g.link.cool g.cooldown r.loop.world
        let r := { r with loop := { r.loop with world := world } }
        if span.nanos = 0 then r.deliver g a (.ok outcome)
        else
          let cooling : Attempt :=
            { a with due := ⟨r.clock.nanos + span.nanos⟩, rest := .cooling outcome }
          { r with attempts := r.attempts.map fun b =>
              if b.ticket.worker.id = a.ticket.worker.id then cooling else b }
      | outcome => r.deliver g a (.ok outcome)

/-- The attempt that goes on first. -/
def earliest? (attempts : List Attempt) : Option Attempt :=
  attempts.foldl
    (fun best a =>
      match best with
      | some b => if a.due.nanos < b.due.nanos then some a else some b
      | none => some a)
    none

/-! ## 4. The clock

The next event is the one that is due first.  `depth` bounds how many of them are played, and a
run that needs more is left where it is. -/

/-- The clock goes on to a time, or to the moment of cancellation if that comes before it; then
`there` tells what happens. -/
def goTo (r : Rehearsal σ) (g : Setting σ) (time : Span) (there : Rehearsal σ → Rehearsal σ) :
    Rehearsal σ :=
  match g.cancelAt with
  | some c =>
    if !r.loop.cancelled && c.nanos ≤ time.nanos then
      { r with clock := if r.clock.nanos < c.nanos then c else r.clock }.feed g .cancel
    else there { r with clock := time }
  | none => there { r with clock := time }

def proceed (r : Rehearsal σ) (g : Setting σ) : Rehearsal σ :=
  r.feed g (.proceed (r.now g) g.link.rateLimit)

/-- The next event. -/
def advance (r : Rehearsal σ) (g : Setting σ) : Rehearsal σ :=
  match r.loop.phase with
  | .ended _ => r
  | .sleeping span =>
    if r.loop.cancelled then r.proceed g
    else r.goTo g ⟨r.clock.nanos + span.nanos⟩ fun r => r.proceed g
  | .waiting =>
    if r.loop.cancelled then r.proceed g
    else
      match earliest? r.attempts with
      | some a => r.goTo g a.due fun r => r.goOn g a
      | none => r.goTo g r.clock fun r => r.proceed g
  | .draining .. =>
    -- the grace counts from the first moment of draining and ends before what is due then
    match earliest? r.attempts with
    | none => { r with graceEnd := none }.proceed g
    | some a =>
      if r.loop.flights = [] then r.proceed g
      else
        let limit := r.graceEnd.getD ⟨r.clock.nanos + g.grace.nanos⟩
        if !r.loop.stopping && limit.nanos ≤ a.due.nanos then
          { r with clock := limit, graceEnd := some limit }.feed g .graceOver
        else { r with graceEnd := some limit }.goOn g a
  | _ => r.goTo g r.clock fun r => r.proceed g

/-- Goes on until the run has ended. -/
def play (g : Setting σ) : Nat → Rehearsal σ → Rehearsal σ
  | 0, r => r
  | fuel + 1, r =>
    match r.loop.phase with
    | .ended _ => r
    | _ => play g fuel (r.advance g)

/-- How many events a run may have. -/
def depth : Nat := 200000

/-- A whole run, with the last writing of the documents. -/
def perform (g : Setting σ) (r : Rehearsal σ) (board : Kanban) (state : State) (world : σ) :
    Except Failure Summary × Rehearsal σ :=
  let loop : Loop σ := { world := world, desk := { kanban := board, state := state } }
  let r := play g depth { r with loop := loop, attempts := [], graceEnd := none }
  let m := g.machine r.loop.world
  let (_, files) := g.documents.close r.loop.desk m.files (r.now g)
  let world := g.withMachine r.loop.world { m with files := files }
  let r := { r with loop := { r.loop with world := world } }
  (r.loop.result?.getD (.error .shutdown), r)

end Rehearsal
end Run
end Foreman
