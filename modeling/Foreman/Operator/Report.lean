/-
# A command from its arguments to its report

The report of a command is its exit code, what it printed, what it logged at the level that was
asked for, and the error it ended with.  A command that failed has the code 1, arguments that
make no command have the code 2, and help is a success.

`perform` is the program as a whole, on a machine that is given.  `Foreman.Main` has it act on
the machine it runs on.
-/
import Foreman.Operator.CommandLine
import Foreman.Operator.Overview
import Foreman.Operator.Reset
import Foreman.Operator.SetUp
import Foreman.Operator.Work

namespace Foreman
namespace Operator

/-- What is left of a command. -/
structure Report where
  code : Nat := 0
  out : String := ""
  log : List String := []
  error : Option String := none
deriving DecidableEq, Repr, Inhabited

/-- The lines that a level lets through. -/
def shownAt (level : LogLevel) (log : List (LogLevel × String)) : List String :=
  (log.filter fun line => line.1.rank ≤ level.rank).map Prod.snd

/-- The file of the configuration. -/
def CommandLine.configPath (c : CommandLine) : String :=
  c.config.getD (Path.join c.root Config.fileName)

/-- Carries an errand out. -/
def CommandLine.carryOut (p : OwnProcess) (c : CommandLine) : Step Unit :=
  match c.errand with
  | .setUp => setUp c.root c.configPath
  | .work workers backend cap => work p c.root c.configPath workers backend cap
  | .overview status => overview c.root c.configPath status
  | .reset taskId => reset p c.root c.configPath taskId

/-- Carries a command out. -/
def CommandLine.report (p : OwnProcess) (c : CommandLine) (m : Machine) (now : Instant) :
    Report × Machine × Instant :=
  match LogLevel.parse c.logLevel with
  | .error e => ({ code := 1, error := some e }, m, now)
  | .ok level =>
    let (result, console) := c.carryOut p { machine := m, now := now }
    let report : Report := { out := console.out, log := shownAt level console.log }
    match result with
    | .ok () => (report, console.machine, console.now)
    | .error e => ({ report with code := 1, error := some e }, console.machine, console.now)

/-- Carries out what the arguments ask for. -/
def perform (p : OwnProcess) (args : List String) (m : Machine) (now : Instant) :
    Report × Machine × Instant :=
  match CommandLine.read args with
  | .help text => ({ out := text }, m, now)
  | .misuse => ({ code := 2, error := some CommandLine.grammar.usage }, m, now)
  | .command c => c.report p m now

end Operator
end Foreman
