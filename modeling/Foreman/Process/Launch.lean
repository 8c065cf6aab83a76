/-
# Starting programs

A command is looked up and run to its end, or to the signal that ends it.  The output of each
attempt of a worker is kept in two files of its own (`CapturePaths.ofAttempt`), so that no
attempt writes over the output of an earlier one.

A program that was ended by a signal has no exit code of its own.  `Ending.code` is what a shell
would tell for it, which is what `exit_code_of` reports to the classification of the attempt.
-/
import Foreman.Files.Path
import Foreman.Shell.Run

namespace Foreman

/-- A command with its surroundings. -/
structure Invocation where
  program : String
  args : List String
  cwd : String
  env : List (String × String)
deriving DecidableEq, Repr, Inhabited

/-- Where the output of an attempt is written. -/
structure CapturePaths where
  stdout : String
  stderr : String
deriving DecidableEq, Repr, Inhabited

/-- The files of an attempt (`for_attempt`). -/
def CapturePaths.ofAttempt (runtimeDir workerId : String) (iteration : Nat) : CapturePaths :=
  let dir := Path.join (Path.join runtimeDir "logs") workerId
  let stem := "attempt-" ++ toString iteration
  ⟨Path.join dir (stem ++ ".stdout.jsonl"), Path.join dir (stem ++ ".stderr.log")⟩

/-- How a program ended. -/
inductive Ending where
  | exited (code : Nat)
  | killed (signal : Nat)
deriving DecidableEq, Repr, Inhabited

namespace Ending

/-- The code that a shell tells for it: 128 and the number of the signal, if there was one. -/
def code : Ending → Nat
  | exited code => code
  | killed signal => 128 + signal

def isSuccess (e : Ending) : Bool := e = exited 0

/-- The code, if the program ended by itself. -/
def ownCode? : Ending → Option Nat
  | exited code => some code
  | killed _ => none

end Ending

namespace Machine

/-- Runs a command with its streams led to `out` and `err`; `alarm` is a signal that will come. -/
def launch (m : Machine) (i : Invocation) (alarm : Option Shell.Alarm) (out err : Shell.Sink) :
    Except FileError (Ending × Shell.Env) :=
  match m.directoryError? i.cwd with
  | some e => .error e
  | none =>
    let dir := Machine.absolute (m.files.fullPath i.cwd) ""
    let vars := i.env.foldl (fun t v => t.insert v.1 v.2) m.vars
    let search := (vars.get? "PATH").getD Program.searchPath
    match Program.find m search dir i.program with
    | .error e => .error e
    | .ok p =>
      let e : Shell.Env :=
        { machine := m, dir := dir, vars := vars,
          exported := vars.keys, alarm := alarm, out := out, err := err }
      let e := Shell.program Shell.depth e p i.args
      match e.flow with
      | .killed signal => .ok (.killed signal, e)
      | _ => .ok (.exited e.status, e)

/-- What a program left behind. -/
structure Captured where
  ending : Ending
  out : String
  err : String
deriving DecidableEq, Repr, Inhabited

/-- Runs a command and keeps what it writes. -/
def capture (m : Machine) (i : Invocation) : Except FileError (Captured × Machine) := do
  let (ending, e) ← m.launch i none (.buffer 0) (.buffer 1)
  let text (n : Nat) : String := String.ofList (Utf8.decodeLossy (e.buffer n))
  return (⟨ending, text 0, text 1⟩, e.machine)

end Machine
end Foreman
