/-
# What a command works on

A command changes the machine, prints, and logs.  What it did stays done if it fails later: a
step (`Step`) is a state with failures in it, and a failure keeps the state that was reached.
So the order of the steps of a command is the order in which its effects happen, and what a
command that failed half way leaves behind can be read off its definition.

Some commands work under the run lock, and most load the backlog: how they do is said here too.
-/
import Foreman.Failure
import Foreman.Git.Client
import Foreman.Kanban.Document
import Foreman.Lock.Basic
import Foreman.LogLevel
import Foreman.Time.Instant

namespace Foreman
namespace Operator

/-! ## 1. Steps of a command

The small steps that commands are made of. -/

/-- The machine, the clock, and what a command has said so far. -/
structure Console where
  machine : Machine
  now : Instant
  out : String := ""
  log : List (LogLevel × String) := []

/-- A step of a command.  A failure is told as an error of the command. -/
abbrev Step (α : Type) := ExceptT String (StateM Console) α

/-- Prints a line. -/
def printLine (line : String) : Step Unit :=
  modify fun c => { c with out := c.out ++ line ++ "\n" }

/-- Prints lines. -/
def printLines (lines : List String) : Step Unit := lines.forM printLine

/-- Logs a line. -/
def note (level : LogLevel) (line : String) : Step Unit :=
  modify fun c => { c with log := c.log ++ [(level, line)] }

/-- The files as they are. -/
def files : Step Tree := do
  return (← get).machine.files

/-- Puts other files in their place. -/
def setFiles (t : Tree) : Step Unit :=
  modify fun c => { c with machine := { c.machine with files := t } }

/-- Changes the files. -/
def change (f : Tree → Except String Tree) : Step Unit := do
  setFiles (← ExceptT.mk (pure (f (← files))))

/-- Reads something of the files. -/
def inspect {α : Type} (f : Tree → Except String α) : Step α := do
  ExceptT.mk (pure (f (← files)))

/-- A step on the machine. -/
def onMachine {α : Type} (w : Git.Work α) : Step α := fun c =>
  let (result, m) := w c.machine
  (result, { c with machine := m })

/-- A failure is told by its text. -/
def told {α : Type} : Except Failure α → Except String α
  | .ok a => .ok a
  | .error f => .error f.message

/-! ## 2. Work under the run lock

The lock is taken before the work and given back after it, whether the work succeeds or not. -/

/-- The process that carries a command out. -/
structure OwnProcess where
  pid : Nat
  /-- The processes that run. -/
  alive : Nat → Bool
  /-- The identifiers it makes. -/
  newId : Nat → String

/-- Takes the lock of a directory (`try_acquire`). -/
def takeLock (p : OwnProcess) (dir : String) : Step Unit :=
  onMachine fun m => RunLock.acquire dir p.pid p.alive m

/-- Gives the lock back.  The file with the number may be gone already, which is only noted. -/
def giveLock (dir : String) : Step Unit := do
  let number := RunLock.pidPath dir
  let t ← files
  onMachine fun m => (.ok (), RunLock.release dir m)
  match t.removeFile number with
  | .ok _ => return ()
  | .error e => note .warn ("Warning: Failed to remove PID file " ++ number ++ ": " ++ e.message)

/-- The work with the lock held. -/
def holding (p : OwnProcess) (dir : String) (work : Step Unit) : Step Unit := do
  takeLock p dir
  fun c =>
    match work c with
    | (result, c) =>
      match giveLock dir c with
      | (_, c) => (result, c)

end Operator

/-! ## 3. The backlog, with a look at its dependencies

A task that depends on one the backlog does not have can never start.  That is no error, as the
other task may be added later, but it is said whenever the backlog is loaded. -/

/-- The dependencies that lead nowhere, each with the task that has it. -/
def Kanban.strays (k : Kanban) : List (String × String) :=
  k.tasks.flatMap fun t =>
    (t.dependencies.filter fun d => (k.find? d).isNone).map fun d => (t.id, d)

namespace Operator

def strayNote (stray : String × String) : String :=
  "[kanban] " ++ stray.1 ++ " depends on unknown task " ++ stray.2 ++ "; it stays ineligible"

/-- Loads the backlog, and says which dependencies lead nowhere. -/
def loadBacklog (path : String) : Step Kanban := do
  let k ← inspect fun t => Kanban.load t path
  k.strays.forM fun stray => note .warn (strayNote stray)
  return k

end Operator
end Foreman
