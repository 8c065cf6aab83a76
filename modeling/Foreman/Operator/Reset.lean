/-
# Resetting a task by hand

Under the run lock both documents are loaded, the task is reset, and both are written, the state
first (`handle_reset_task`).  Each of the two writes takes effect as a whole or not at all, but
the two together do not: if the backlog cannot be written, the state is written all the same.
The coordinator stages one document before it commits the other; here nothing is staged.

* `State.resetAndWrite` is the reset with its writes, apart from the machine.
* `Operator.resetHeld` carries them out, and tells of the claims that were released.
-/
import Foreman.Config.Document
import Foreman.Coordinator.Documents
import Foreman.Coordinator.Reset
import Foreman.Operator.Console
import Foreman.Text.Quoted

namespace Foreman

/-! ## 1. The writes

Which writes are made, for the faults that are met.  The reset itself is `State.reset`. -/

/-- Writes the state and then the backlog, as far as nothing keeps them from being written.
Gives the reason of a failure, and what was written. -/
def writeBoth (f : Faults) (s : State) (k : Kanban) : Option Failure × List Write :=
  match f.directory <|> f.stage <|> f.commit with
  | some reason => (some (.statePersistence reason), [])
  | none =>
    match f.board with
    | some reason => (some (.kanban reason), [.state s])
    | none => (none, [.state s, .board k])

/-- The reset of a task and the writes of both documents. -/
def State.resetAndWrite (s : State) (k : Kanban) (taskId : String) (now : Instant) (f : Faults) :
    Except String Unit × List Write :=
  match s.reset k taskId with
  | .error e => (.error e, [])
  | .ok (s, k) =>
    match writeBoth f (s.stamped now) k with
    | (some (.kanban reason), writes) => (.error reason, writes)
    | (some failure, writes) => (.error failure.message, writes)
    | (none, writes) => (.ok (), writes)

/-! ## 2. What is told of the claims

A release is told only if it gave claims back or let a task go on. -/

/-- The releases of a reset, each with the number of claims and the tasks that are free now. -/
def Registry.releases (r : Registry) : List String → List (String × Nat × List String)
  | [] => []
  | id :: rest =>
    let (after, freed) := r.release id
    let count := r.claims.length - after.claims.length
    let told := if 0 < count || freed ≠ [] then [(id, count, freed)] else []
    told ++ releases after rest

/-- The releases that go with the reset of a task. -/
def State.resetReleases (s : State) (taskId : String) : List (String × Nat × List String) :=
  let open_ := s.workers.filter fun w => w.taskId = taskId && !w.status.isTerminal
  (s.registry.dequeue taskId).releases (open_.map Worker.id)

namespace Operator

def releaseNote (r : String × Nat × List String) : String :=
  "[conflict] " ++ r.1 ++ " released " ++ toString r.2.1 ++ " claim(s); dequeued [" ++
    Text.joinWith ", " (r.2.2.map Text.quoted) ++ "]"

/-! ## 3. The command

The lock is given back whatever happens. -/

/-- The work under the lock. -/
def resetHeld (documents : Documents) (taskId : String) : Step Unit := do
  let k ← loadBacklog documents.board
  let s ← inspect fun t => told (State.load t documents.state)
  let t ← files
  let (result, writes) := s.resetAndWrite k taskId (← get).now (documents.faults t)
  if (s.reset k taskId).isOk then
    (s.resetReleases taskId).forM fun r => note .debug (releaseNote r)
  setFiles (writes.foldl documents.carryOut t)
  ExceptT.mk (pure result)
  note .info (taskId ++ " reset to pending")

def reset (p : OwnProcess) (root configPath taskId : String) : Step Unit := do
  let c ← inspect fun t => Config.load t configPath
  holding p (c.runtimeDir root) (resetHeld ⟨c.kanbanPath root, c.statePath root⟩ taskId)

end Operator
end Foreman
