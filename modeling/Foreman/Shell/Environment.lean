/-
# A running shell

What a shell knows while it carries out a script: the machine, its directory, variables and
arguments, where its streams go, and the time that has passed.  `flow` says whether it goes on;
as long as it is not `on`, nothing more is carried out until somebody takes the reason up.

Time passes only while a command sleeps, so a script that never does ends at the moment at which
it started.
-/
import Foreman.Machine.Basic
import Foreman.Shell.Basic

namespace Foreman
namespace Shell

/-- Where a stream goes. -/
inductive Sink where
  | buffer (n : Nat)
  | file (path : String)
  | nowhere
deriving DecidableEq, Repr, Inhabited

/-- What is to happen next. -/
inductive Flow where
  | on
  /-- The shell ends. -/
  | leave
  /-- The function ends. -/
  | back
  /-- That many loops end. -/
  | stop (loops : Nat)
  /-- The next round of the loop, after the inner ones have ended. -/
  | again (loops : Nat)
  | killed (signal : Nat)
  /-- A signal came for which there is an action. -/
  | woken (action : String)
deriving DecidableEq, Repr, Inhabited

/-- A signal that will come. -/
structure Alarm where
  /-- In nanoseconds from the start of the program. -/
  time : Nat
  signal : Nat
deriving DecidableEq, Repr, Inhabited

/-- A command that was started and not waited for. -/
structure Job where
  number : Nat
  start : Nat
  body : Command
  /-- A signal that was sent to it. -/
  alarm : Option Alarm := none
deriving Repr, Inhabited

structure Env where
  machine : Machine := {}
  dir : String := "/"
  name : String := "sh"
  args : List String := []
  vars : Table String := .empty
  /-- The variables that other programs see. -/
  exported : List String := []
  functions : List (String × Command) := []
  traps : Table String := .empty
  jobs : List Job := []
  status : Nat := 0
  flow : Flow := .on
  /-- Whether a failure ends the shell. -/
  strict : Bool := false
  /-- Whether a variable without a value ends the shell. -/
  careful : Bool := false
  /-- Whether commands are told before they are carried out. -/
  tracing : Bool := false
  /-- How many loops are open. -/
  loops : Nat := 0
  /-- The variables of the function that runs, with what they were before. -/
  locals : Option (List (String × Option String)) := none
  /-- The variables that keep what they hold. -/
  fixed : List String := []
  /-- The status of the last script whose output was asked for. -/
  answer : Option Nat := none
  /-- How many jobs were started. -/
  started : Nat := 0
  /-- Jobs that are over, with their statuses. -/
  ended : List (String × Nat) := []
  /-- Whether a failure is looked at by somebody. -/
  guarded : Bool := false
  /-- Nanoseconds since the program was started. -/
  now : Nat := 0
  alarm : Option Alarm := none
  input : List UInt8 := []
  out : Sink := .buffer 0
  err : Sink := .buffer 1
  buffers : List (List UInt8) := [[], []]
deriving Repr, Inhabited

namespace Env

/-! ## 1. Streams

Output goes to a buffer or to a file.  The first two buffers are the streams that the program
reads in the end. -/

def emit (e : Env) (sink : Sink) (bytes : List UInt8) : Env :=
  match sink with
  | .nowhere => e
  | .buffer n => { e with buffers := e.buffers.modify n (· ++ bytes) }
  | .file path =>
    let files := e.machine.files
    let old := (files.read path).toOption.getD []
    let files := (files.write path (old ++ bytes)).toOption.getD files
    { e with machine := { e.machine with files := files } }

def print (e : Env) (text : String) : Env := e.emit e.out (Utf8.encode text.toList)

def complain (e : Env) (text : String) : Env := e.emit e.err (Utf8.encode (text ++ "\n").toList)

/-- A command ends with a status. -/
def done (e : Env) (status : Nat) : Env := { e with status := status }

def fail (e : Env) (status : Nat) (text : String) : Env := (e.complain text).done status

/-- The shell itself has something to say. -/
def scold (e : Env) (status : Nat) (text : String) : Env :=
  e.fail status (e.name ++ ": 1: " ++ text)

def buffer (e : Env) (n : Nat) : List UInt8 := e.buffers.getD n []

/-! ## 2. Names

Files by their paths as the shell sees them, and variables.  What other programs see of the
variables is what is exported. -/

def files (e : Env) : Tree := e.machine.files

def withFiles (e : Env) (t : Tree) : Env := { e with machine := { e.machine with files := t } }

/-- A path, seen from the directory of the shell. -/
def path (e : Env) (p : String) : String := Path.join e.dir p

def get? (e : Env) (name : String) : Option String := e.vars.get? name

def set (e : Env) (name value : String) : Env :=
  { e with vars := e.vars.insert name value }

/-- The bytes of a file. -/
def read (e : Env) (p : String) : Except FileError (List UInt8) :=
  if p = "/dev/null" then .ok [] else e.files.read (e.path p)

def unset (e : Env) (name : String) : Env :=
  { e with vars := e.vars.erase name, exported := e.exported.filter (· ≠ name) }

/-- The characters that end fields. -/
def separators (e : Env) : List Char := ((e.get? "IFS").getD " \t\n").toList

def exportName (e : Env) (name : String) : Env :=
  if name ∈ e.exported then e else { e with exported := e.exported ++ [name] }

/-- The variables that other programs see, as one of them finds them. -/
def passedOn (e : Env) : Table String :=
  ⟨e.vars.entries.filter fun v => v.1 ∈ e.exported⟩

/-! ## 3. Signals and time

Time stands still but for waiting.  While a shell waits the one signal may come that was
announced for it. -/

def signals : List (String × Nat) :=
  [("EXIT", 0), ("HUP", 1), ("INT", 2), ("QUIT", 3), ("ABRT", 6), ("KILL", 9), ("USR1", 10),
    ("SEGV", 11), ("USR2", 12), ("PIPE", 13), ("ALRM", 14), ("TERM", 15)]

/-- A signal by its name, with or without its first letters, or by its number. -/
def signal? (name : String) : Option Nat :=
  let short := (Text.stripStart? name "SIG").getD name
  match signals.find? fun s => s.1 = short with
  | some s => some s.2
  | none => name.toNat?

/-- How long a program has to end after it was asked to, in nanoseconds. -/
def grace : Nat := 5000000000

/-- A signal comes while the shell waits until `later`. -/
def receive (e : Env) (signal later : Nat) : Env :=
  let last : Alarm := ⟨e.now + grace, 9⟩
  match e.traps.get? (toString signal) with
  | some action =>
    if signal = 9 then { e with flow := .killed signal }
    else if action ≠ "" then
      { e with flow := .woken action, alarm := e.alarm.map fun _ => last, status := 128 + signal }
    else
      match e.alarm with
      | none => { e with now := later }
      | some _ =>
        if later < last.time then { e with now := later, alarm := some last }
        else { e with now := last.time, flow := .killed last.signal }
  | none => { e with flow := .killed signal }

/-- Time passes, unless a signal comes first. -/
def pass (e : Env) (nanos : Nat) : Env :=
  match e.alarm with
  | some a =>
    if e.now + nanos < a.time then { e with now := e.now + nanos }
    else ({ e with now := max e.now a.time }).receive a.signal (e.now + nanos)
  | none => { e with now := e.now + nanos }

/-- Waits for what never comes. -/
def hang (e : Env) : Env :=
  match e.alarm with
  | some a => ({ e with now := max e.now a.time }).receive a.signal (a.time + 2 * grace)
  | none => { e with flow := .killed 9 }

/-! ## 4. Shells within shells

A shell of its own has a copy of all but the world outside, and leaves nothing else behind when
it ends. -/

/-- The shell after another one has run in its place: only the world outside has changed. -/
def after (e sub : Env) : Env :=
  let e := { e with
    machine := sub.machine, now := sub.now, input := sub.input, buffers := sub.buffers,
    alarm := sub.alarm, status := sub.status }
  match sub.flow with
  | .killed signal =>
    match e.traps.get? (toString signal) with
    | some _ => if signal = 9 then { e with flow := sub.flow } else e.receive signal e.now
    | none => { e with flow := sub.flow }
  | _ => e

/-- A shell of its own: traps with an action are not handed down. -/
def inner (e : Env) : Env :=
  { e with traps := ⟨e.traps.entries.filter fun t => t.2 = ""⟩, jobs := [], loops := 0 }

end Env
end Shell
end Foreman
