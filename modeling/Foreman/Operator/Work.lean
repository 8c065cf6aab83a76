/-
# Working through the backlog

Under the run lock the project is checked, the agent is looked for, and the documents are
brought in step with the processes that run (`restore_liveness`).  Then the run loop goes on
until nothing is left to do, and its account is logged.  This is `handle_run`.

Everything before the loop may fail and leave the project as it was, but for what is written in
bringing the documents in step: the backlog first, if a task was reset, and then the state.  A
run that fails leaves what the coordinator wrote last.
-/
import Foreman.Agent.Check
import Foreman.Merge.Trunk
import Foreman.Operator.Console
import Foreman.Run.Rehearsal
import Foreman.State.Liveness

namespace Foreman
namespace Operator

/-! ## 1. The account

A line for each part that has something to say. -/

/-- A line with names, if there are any. -/
def namesLine (title : String) (names : List String) : List (LogLevel × String) :=
  if names = [] then [] else [(.info, title ++ ": " ++ Text.joinWith ", " names)]

/-- The lines of an account. -/
def accountLines (s : Run.Summary) : List (LogLevel × String) :=
  [(.info, "\n--- Run Summary ---"), (.info, "Dispatched: " ++ toString s.dispatched)] ++
    namesLine "Completed" s.completed ++ namesLine "Failed" s.failed ++
    (if 0 < s.retries then [(.info, "Retries scheduled: " ++ toString s.retries)] else []) ++
    namesLine "Merged" s.merged ++
    s.skipped.map (fun e => (.warn, "Merge skipped for " ++ e.1 ++ ": " ++ e.2)) ++
    [(.info, "Halt reason: " ++ s.halt.name)]

/-! ## 2. The preparation

What has to hold before the loop can start. -/

/-- The valid configuration, with what the operator wants instead (`load_with_overrides`). -/
def configured (configPath : String) (workers : Option Nat) (backend : Option String)
    (t : Tree) : Except String Config := do
  let c ← Config.load t configPath
  let c :=
    { c with
      workers := { c.workers with limit := workers.getD c.workers.limit }
      backend := { c.backend with name := backend.getD c.backend.name } }
  c.validate
  return c

/-- The agent, if it can be used. -/
def findAgent (c : Config) : Step Agent.Backend := do
  let b ← ExceptT.mk (pure (told (Agent.Backend.ofConfig c)))
  note .info ("[pre] Verifying " ++ b.kind.name ++ " CLI...")
  onMachine fun m => let (result, m) := b.check m "."; (told result, m)
  return b

/-- Both documents in step with the processes that run; what changed is written. -/
def restoreDocuments (p : OwnProcess) (documents : Documents) : Step (Kanban × State) := do
  let k ← loadBacklog documents.board
  let s ← inspect fun t => told (State.load t documents.state)
  note .debug ("[state] Loaded " ++ documents.state ++ " (tick " ++ toString s.tick ++ ")")
  let (s, tasks, reset) := s.restoreLiveness k.tasks p.alive
  let k := { k with tasks := tasks }
  if reset ≠ [] then change fun t => k.save t documents.board
  let now := (← get).now
  let (s, t) ← inspect fun t => told (s.save t documents.state now)
  setFiles t
  return (k, s)

/-! ## 3. The run

The loop is played on the machine with the clock of `Foreman.Run.Rehearsal`. -/

/-- How a configuration has the run loop act on the machine. -/
def setting (p : OwnProcess) (root : String) (c : Config) (cap : Option Nat) (b : Agent.Backend)
    (now : Instant) : Run.Setting Machine :=
  let ws : Workspaces := ⟨root, c.worktreeDir root, c.project.trunk⟩
  let merger :=
    if c.merge.enabled then some (TrunkMerge.ofCommand ws c.merge.validateCommand).merger
    else none
  Run.Setting.ofConfig c root cap (Run.Link.ofBackend b) id (fun _ m => m) merger now p.newId p.pid
    c.backend.name

/-- Plays the run, and lets the clock go on. -/
def play (g : Run.Setting Machine) (k : Kanban) (s : State) : Step Run.Summary := fun c =>
  let idle : Run.Rehearsal Machine := { loop := { world := c.machine, desk := ⟨k, s, false⟩ } }
  let (result, r) := idle.perform g k s c.machine
  let c := { c with machine := r.loop.world, now := r.now g }
  match result with
  | .ok summary => (.ok summary, c)
  | .error f =>
    (.error f.message, { c with log := c.log ++ [(.error, "[sched] Halted: " ++ f.message)] })

/-- The work under the lock. -/
def workHeld (p : OwnProcess) (root : String) (c : Config) (cap : Option Nat) : Step Unit := do
  note .info "[pre] Checking git preconditions..."
  onMachine (Git.requireFit root)
  let b ← findAgent c
  let (k, s) ← restoreDocuments p ⟨c.kanbanPath root, c.statePath root⟩
  note .info ("[pre] " ++ toString k.tasks.length ++ " task(s) loaded, " ++
    toString c.workers.limit ++ " worker(s), backend " ++ c.backend.name)
  let summary ← play (setting p root c cap b (← get).now) k s
  (accountLines summary).forM fun line => note line.1 line.2

/-- The errand `run`. -/
def work (p : OwnProcess) (root configPath : String) (workers : Option Nat)
    (backend : Option String) (cap : Option Nat) : Step Unit := do
  note .info "--- wiggum ---"
  let c ← inspect (configured configPath workers backend)
  note .info "[pre] Acquiring lock..."
  holding p (c.runtimeDir root) (workHeld p root c cap)

end Operator
end Foreman
