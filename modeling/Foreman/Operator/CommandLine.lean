/-
# The command line

Four errands, and the options that come before them: `init` sets a project up, `run` works
through its backlog, `status` gives an overview, and `reset-task` resets a task by hand.  Each
has a module of its own, and `CommandLine.carryOut` in `Foreman.Operator.Report` leads to it.

The grammar of the options is general (`Foreman.Operator.Grammar`); here are its values.
Arguments that make no command are not carried out in part: nothing is read or written then.
-/
import Foreman.Operator.Grammar
import Foreman.Text.Integer

namespace Foreman
namespace Operator

/-- What an operator can ask for (`Commands`). -/
inductive Errand where
  | setUp
  /-- The limit of workers and the backend take the place of the configured ones. -/
  | work (workers : Option Nat) (backend : Option String) (cap : Option Nat)
  | overview (status : Option String)
  | reset (taskId : String)
deriving DecidableEq, Repr, Inhabited

/-- An errand, and where it is for. -/
structure CommandLine where
  root : String := "."
  /-- The file of the configuration, if it is not at its usual place. -/
  config : Option String := none
  logLevel : String := "info"
  errand : Errand
deriving DecidableEq, Repr, Inhabited

/-- How arguments are understood. -/
inductive Reading where
  | command (c : CommandLine)
  | help (text : String)
  /-- The arguments make no command. -/
  | misuse
deriving DecidableEq, Repr, Inhabited

namespace CommandLine

/-! ## 1. The grammar

What each errand takes.  The numbers among the options are of 32 bits, as the fields they take
the place of. -/

def isPath (value : String) : Bool := value ≠ ""

/-- A number of 32 bits; minus zero is one. -/
def count? (value : String) : Option Nat :=
  (Text.signed? Text.half64 value.toList).bind fun n =>
    if 0 ≤ n ∧ n < Text.bound32 then some n.toNat else none

def isCount (value : String) : Bool := (count? value).isSome

def setUpGrammar : Grammar where
  name := "wiggum init"
  about := "Create the runtime directories, a sample config and an empty kanban"

def workGrammar : Grammar where
  name := "wiggum run"
  about := "Dispatch eligible tasks to workers until nothing is left to do"
  flags :=
    [⟨"workers", "Maximum concurrent workers (overrides workers.limit)", isCount, none⟩,
      ⟨"backend", "Agent backend to drive (claude, codex)", fun _ => true, none⟩,
      ⟨"cap", "Maximum number of dispatches for this run", isCount, none⟩]

def overviewGrammar : Grammar where
  name := "wiggum status"
  about := "Show tasks, claims, queue and workers"
  flags :=
    [⟨"status", "Only list tasks with this status (pending, in_progress, blocked, done, failed)",
      fun _ => true, none⟩]

def resetGrammar : Grammar where
  name := "wiggum reset-task"
  about := "Return a failed or blocked task to pending"
  operands := [⟨"TASK_ID", "Task ID to reset"⟩]

/-- The errands by their words. -/
def errands : List (String × Grammar) :=
  [("init", setUpGrammar), ("run", workGrammar), ("status", overviewGrammar),
    ("reset-task", resetGrammar)]

def grammar : Grammar where
  name := "wiggum"
  about := "Run coding-agent workers in parallel against a kanban backlog"
  flags :=
    [⟨"root", "Project root directory (defaults to current directory)", isPath, some "."⟩,
      ⟨"config", "Path to config file (defaults to \x7broot\x7d/wiggum.toml)", isPath, none⟩,
      ⟨"log-level", "Log verbosity level (error, warn, info, debug)", fun _ => true,
        some "info"⟩]
  members :=
    errands.map (fun e => (e.1, e.2.about)) ++
      [("help", "Print this message or the help of the given subcommand(s)")]

/-! ## 2. Reading

What the grammar took is made a command. -/

/-- The errand of a word and what was given for it. -/
def errandOf (word : String) (given : Given) : Errand :=
  match word with
  | "run" =>
    .work ((given.value? "workers").bind count?) (given.value? "backend")
      ((given.value? "cap").bind count?)
  | "status" => .overview (given.value? "status")
  | "reset-task" => .reset (given.operands.head?.getD "")
  | _ => .setUp

/-- The help on the words behind `help`. -/
def helpOn : List String → Reading
  | [] => .help grammar.help
  | [word] =>
    match errands.lookup word with
    | some g => .help g.help
    | none => if word = "help" then .help grammar.help else .misuse
  | _ => .misuse

/-- How arguments are understood. -/
def read (args : List String) : Reading :=
  match grammar.read args with
  | .error .help => .help grammar.help
  | .error .misuse => .misuse
  | .ok given =>
    match given.member with
    | none => .misuse
    | some ("help", words) => helpOn words
    | some (word, rest) =>
      match errands.lookup word with
      | none => .misuse
      | some g =>
        match g.read rest with
        | .error .help => .help g.help
        | .error .misuse => .misuse
        | .ok own =>
          .command
            { root := (given.value? "root").getD "."
              config := given.value? "config"
              logLevel := (given.value? "log-level").getD "info"
              errand := errandOf word own }

end CommandLine
end Operator
end Foreman
