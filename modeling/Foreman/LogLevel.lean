/-
# Levels of the log

Four levels by rising verbosity, their names and the texts that are read as one.  A level is
kept as its rank while the program runs, so that it can be changed at any time.
-/
import Foreman.Text.Blank
import Foreman.Text.Case

namespace Foreman

/-- How much is logged. -/
inductive LogLevel where
  | error
  | warn
  | info
  | debug
deriving DecidableEq, Repr

namespace LogLevel

/-- The name on the command line. -/
def name : LogLevel → String
  | error => "error"
  | warn => "warn"
  | info => "info"
  | debug => "debug"

/-- The place in the order of verbosity. -/
def rank : LogLevel → Nat
  | error => 0
  | warn => 1
  | info => 2
  | debug => 3

/-- The level of a rank; every greater rank is the most verbose one. -/
def ofRank : Nat → LogLevel
  | 0 => error
  | 1 => warn
  | 2 => info
  | _ => debug

theorem ofRank_rank (l : LogLevel) : ofRank l.rank = l := by cases l <;> rfl

/-- The level a text names, in any case and with blanks around it. -/
def parse (s : String) : Except String LogLevel :=
  let word := Text.lower (Text.trim s)
  if word = "error" then .ok error
  else if word = "warn" || word = "warning" then .ok warn
  else if word = "info" then .ok info
  else if word = "debug" then .ok debug
  else .error ("Invalid log level '" ++ s ++ "': expected error, warn, info, or debug")

end LogLevel
end Foreman
