/-
# The run lock

Only one orchestrator may work on a state at a time.  The lock on a file excludes the others; a
second file tells who holds it, for the message that the next one sees.

Taking the lock (`try_acquire`) and giving it back, which happens when it is dropped, are
sequences of small steps, so that the steps of several processes can be mixed:

* `outside` → `prepared`: the directory is made;
* `prepared` → `owning`: the file is locked, or the process is told who is in the way;
* `owning` → `holding`: the process writes its number;
* `holding` → `leaving`: the file is unlocked;
* `leaving` → `outside`: the number is removed.

The order of the last two is that of the program: the file is free before the number is gone,
and in between another process may take the lock and write its own.  What that costs is proved
in `Proofs.Lock.Contest`.  The lock itself is one of the machine, and a file has one however it
is reached.
-/
import Foreman.Machine.Basic
import Foreman.Text.Blank
import Foreman.Text.Integer

namespace Foreman
namespace RunLock

/-! ## 1. The steps of a process

One function for each step, and `advance` to take the one that is next.  A step that fails leads
back to the outside, with what the process is told. -/

/-- How far a process has come in taking the lock and giving it back. -/
inductive Stage where
  | outside
  | prepared
  | owning
  | holding
  | leaving
deriving DecidableEq, Repr, Inhabited

/-- The file that is locked. -/
def lockPath (dir : String) : String := Path.join dir "wiggum.lock"

/-- The file with the number of the holder. -/
def pidPath (dir : String) : String := Path.join dir "wiggum.pid"

/-- The name under which the machine keeps the lock: one file has one, however it is reached. -/
def lockKey (m : Machine) (dir : String) : String :=
  Machine.absolute (m.files.fullPath (lockPath dir)) ""

/-- The process that the file names. -/
def recordedHolder? (m : Machine) (dir : String) : Option Nat :=
  match m.files.readText (pidPath dir) with
  | .ok text => Text.unsigned? Text.bound32 (Text.trim text).toList
  | .error _ => none

/-- What a process is told that finds the lock taken: who holds it, if the file names a process
that is alive, and else which files to remove. -/
def refusal (m : Machine) (dir : String) (alive : Nat → Bool) : String :=
  match recordedHolder? m dir with
  | some pid =>
    if alive pid then "Another wiggum instance is running (PID " ++ toString pid ++ ")"
    else
      "Lock file is held but recorded PID " ++ toString pid ++ " is not alive. Remove " ++
        lockPath dir ++ " and " ++ pidPath dir ++ " to recover"
  | none =>
    "Another wiggum instance holds the lock. If this is stale, remove " ++ lockPath dir

/-- Makes the directory. -/
def prepare (m : Machine) (dir : String) : Except String Stage × Machine :=
  match m.files.mkdirAll dir with
  | .ok files => (.ok .prepared, { m with files := files })
  | .error e => (.error ("Failed to create " ++ dir ++ ": " ++ e.message), m)

/-- Opens the file and locks it, unless another process has done so. -/
def lockFile (m : Machine) (dir : String) (pid : Nat) (alive : Nat → Bool) :
    Except String Stage × Machine :=
  let path := lockPath dir
  let old := (m.files.read path).toOption.getD []
  match m.files.write path old with
  | .error e => (.error ("Failed to open lock file " ++ path ++ ": " ++ e.message), m)
  | .ok files =>
    let m := { m with files := files }
    if m.locks.contains (lockKey m dir) then (.error (refusal m dir alive), m)
    else (.ok .owning, { m with locks := m.locks.insert (lockKey m dir) pid })

/-- Unlocks the file. -/
def unlockFile (m : Machine) (dir : String) : Machine :=
  { m with locks := m.locks.erase (lockKey m dir) }

/-- Writes the number of the process; if that fails the lock is given back. -/
def writeNumber (m : Machine) (dir : String) (pid : Nat) : Except String Stage × Machine :=
  match m.files.writeText (pidPath dir) (toString pid) with
  | .ok files => (.ok .holding, { m with files := files })
  | .error e => (.error ("Failed to write PID file: " ++ e.message), unlockFile m dir)

/-- Removes the number of the process. -/
def removeNumber (m : Machine) (dir : String) : Machine :=
  { m with files := (m.files.removeFile (pidPath dir)).toOption.getD m.files }

/-- The next step of a process. -/
def advance (dir : String) (pid : Nat) (alive : Nat → Bool) (m : Machine) :
    Stage → Except String Stage × Machine
  | .outside => prepare m dir
  | .prepared => lockFile m dir pid alive
  | .owning => writeNumber m dir pid
  | .holding => (.ok .leaving, unlockFile m dir)
  | .leaving => (.ok .outside, removeNumber m dir)

/-- Takes the lock: all steps up to holding it. -/
def acquire (dir : String) (pid : Nat) (alive : Nat → Bool) (m : Machine) :
    Except String Unit × Machine :=
  match advance dir pid alive m .outside with
  | (.error e, m) => (.error e, m)
  | (.ok _, m) =>
    match advance dir pid alive m .prepared with
    | (.error e, m) => (.error e, m)
    | (.ok _, m) =>
      match advance dir pid alive m .owning with
      | (.error e, m) => (.error e, m)
      | (.ok _, m) => (.ok (), m)

/-- Gives the lock back. -/
def release (dir : String) (m : Machine) : Machine := removeNumber (unlockFile m dir) dir

/-! ## 2. Several processes at one lock

Any number of processes take the lock and give it back, over and over, and their steps are mixed
in any way. -/

/-- The machine, and how far each process has come. -/
structure Contest where
  machine : Machine
  stage : Nat → Stage

namespace Contest

/-- Nobody is at the lock. -/
def start (m : Machine) : Contest := ⟨m, fun _ => .outside⟩

/-- One process takes its next step; one that is refused starts over. -/
def step (dir : String) (alive : Nat → Bool) (c : Contest) (pid : Nat) : Contest :=
  let (next, m) := advance dir pid alive c.machine (c.stage pid)
  let stage :=
    match next with
    | .ok s => s
    | .error _ => .outside
  ⟨m, fun p => if p = pid then stage else c.stage p⟩

/-- Processes take steps in that order. -/
def run (dir : String) (alive : Nat → Bool) (c : Contest) (pids : List Nat) : Contest :=
  pids.foldl (step dir alive) c

/-- A process has the lock, and has not begun to give it back. -/
def holds (c : Contest) (pid : Nat) : Bool := c.stage pid = .holding

end Contest
end RunLock
end Foreman
