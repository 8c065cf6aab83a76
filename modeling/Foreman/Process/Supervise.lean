/-
# Supervised invocations

A command runs in a process group of its own, with its output led to the files of the attempt,
as `run_supervised` has it.  Three things can end it from outside (`Bounds`): the deadline,
which counts as exit code 124; the cancellation of the run, which is told apart; and the sweep
of all groups on a signal, which leaves the exit code as it is.  Whichever comes first counts,
and the deadline counts before a cancellation of the same moment.

A program that left its group goes on to its own end, and the invocation with it.  The moments
are spans from the start, so nothing here depends on the clock of the machine.
-/
import Foreman.Failure
import Foreman.Process.Launch

namespace Foreman

/-- The bounds of an invocation, from its start. -/
structure Bounds where
  timeout : Span
  /-- When it is cancelled. -/
  cancel : Option Span := none
  /-- When all groups are asked to end. -/
  sweep : Option Span := none
deriving DecidableEq, Repr, Inhabited

/-- How an invocation ended. -/
structure Finished where
  exitCode : Int
  elapsed : Span
  timedOut : Bool := false
  cancelled : Bool := false
deriving DecidableEq, Repr, Inhabited

namespace Bounds

/-- The first of the times. -/
def first (a : Span) : Option Span → Span
  | some b => if b.nanos < a.nanos then b else a
  | none => a

/-- When the group is asked to end: the earliest of the bounds. -/
def alarm (b : Bounds) : Span := first (first b.timeout b.cancel) b.sweep

/-- How a program that ended after a time is told.  One that ends before the alarm is told as it
ended, whatever would have come later. -/
def finished (b : Bounds) (ending : Ending) (elapsed : Span) : Finished :=
  let quiet : Finished := { exitCode := ending.code, elapsed := elapsed }
  if elapsed.nanos < b.alarm.nanos then quiet
  else if b.alarm = b.timeout then { quiet with exitCode := 124, timedOut := true }
  else if some b.alarm = b.cancel then { quiet with cancelled := true }
  else quiet

end Bounds

namespace Machine

/-- Makes the file of a stream, empty (`open_capture`). -/
def openCapture (t : Tree) (path : String) : Except Failure Tree :=
  let dir := (Path.parent? path).getD "/"
  match t.mkdirAll dir with
  | .error e =>
    .error (.spawn ("Failed to create capture directory " ++ dir ++ ": " ++ e.message))
  | .ok t =>
    match t.write path [] with
    | .error e => .error (.spawn ("Failed to create capture file " ++ path ++ ": " ++ e.message))
    | .ok t => .ok t

/-- Why a command could not be started.  Only a program that is not there makes the agent
unavailable, which ends the run. -/
def startFailure (program : String) : FileError → Failure
  | .notFound => .backendUnavailable (program ++ " not found: " ++ FileError.notFound.message)
  | e => .spawn (program ++ ": " ++ e.message)

/-- Runs a command with its output in files (`run_supervised`). -/
def supervise (m : Machine) (i : Invocation) (paths : CapturePaths) (b : Bounds) :
    Except Failure Finished × Machine :=
  match openCapture m.files paths.stdout with
  | .error f => (.error f, m)
  | .ok t =>
    match openCapture t paths.stderr with
    | .error f => (.error f, { m with files := t })
    | .ok t =>
      let m := { m with files := t }
      match m.launch i (some ⟨b.alarm.nanos, 15⟩) (.file paths.stdout) (.file paths.stderr) with
      | .error e => (.error (startFailure i.program e), m)
      | .ok (ending, e) => (.ok (b.finished ending ⟨e.now⟩), e.machine)

/-- The text of a captured file; none there is no text (`read_capture`). -/
def readCapture (m : Machine) (path : String) : String :=
  match m.files.read path with
  | .ok bytes => String.ofList (Utf8.decodeLossy bytes)
  | .error _ => ""

end Machine
end Foreman
