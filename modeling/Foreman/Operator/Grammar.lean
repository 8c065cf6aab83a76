/-
# Arguments of a command

A command takes options, each with a value of its own, and operands; a command may also be a
family of which its first operand names the member.

* An option is `--name value` or `--name=value`, and may be given once.
* A value does not start with a dash, unless it is only a dash or follows the equals sign.
* Behind `--` there are only operands.
* `--help` and `-h` ask for help, if nothing before them was wrong.

Arguments are read from the left, and the first thing that is wrong ends the reading.  What is
wrong is not told here: a misuse is a misuse.
-/
import Foreman.Text.Search

namespace Foreman
namespace Operator

/-- An option with a value. -/
structure Flag where
  name : String
  about : String
  /-- Which values it admits. -/
  admits : String → Bool := fun _ => true
  /-- The value it has if it is not given, for the help. -/
  standard : Option String := none

namespace Flag

/-- How the value is called in the help. -/
def valueName (f : Flag) : String :=
  String.ofList (f.name.toList.map fun c => if c = '-' then '_' else c.toUpper)

/-- How the option is written. -/
def usage (f : Flag) : String := "    --" ++ f.name ++ " <" ++ f.valueName ++ ">"

/-- What the option is for. -/
def description (f : Flag) : String :=
  match f.standard with
  | some value => f.about ++ " [default: " ++ value ++ "]"
  | none => f.about

end Flag

/-- An operand that has to be given. -/
structure Operand where
  name : String
  about : String
deriving DecidableEq, Repr, Inhabited

/-- What a command takes. -/
structure Grammar where
  name : String
  about : String
  flags : List Flag := []
  operands : List Operand := []
  /-- The members of a family, with what they are for. -/
  members : List (String × String) := []

/-- What was given. -/
structure Given where
  values : List (String × String) := []
  operands : List String := []
  /-- A member and its arguments. -/
  member : Option (String × List String) := none
deriving DecidableEq, Repr, Inhabited

/-- Why arguments are not taken. -/
inductive Stop where
  | help
  | misuse
deriving DecidableEq, Repr, Inhabited

namespace Given

def value? (g : Given) (name : String) : Option String := g.values.lookup name

end Given

namespace Grammar

/-! ## 1. Reading

What was given so far is carried along; what is missing shows at the end. -/

/-- Takes the value of an option. -/
def takeValue (g : Grammar) (seen : Given) (name value : String) : Except Stop Given :=
  match g.flags.find? fun f => f.name = name with
  | none => .error .misuse
  | some f =>
    if (seen.value? name).isSome || !f.admits value then .error .misuse
    else .ok { seen with values := seen.values ++ [(name, value)] }

/-- Takes an operand. -/
def takeOperand (g : Grammar) (seen : Given) (value : String) : Except Stop Given :=
  if seen.operands.length < g.operands.length then
    .ok { seen with operands := seen.operands ++ [value] }
  else .error .misuse

/-- The text cannot be the value of the option before it. -/
def looksLikeOption (arg : String) : Bool := Text.startsWith arg "-" && arg ≠ "-"

/-- Takes one argument after the other. -/
def take (g : Grammar) (seen : Given) : List String → Except Stop Given
  | [] => .ok seen
  | arg :: rest =>
    if (g.members.lookup arg).isSome then .ok { seen with member := some (arg, rest) }
    else if arg = "--" then rest.foldlM (fun seen value => g.takeOperand seen value) seen
    else if arg = "--help" then .error .help
    else
      match Text.stripStart? arg "--" with
      | some long =>
        match Text.splitOnce? long "=" with
        | some (name, value) => do take g (← g.takeValue seen name value) rest
        | none =>
          match rest with
          | [] => .error .misuse
          | value :: rest =>
            if looksLikeOption value then .error .misuse
            else do take g (← g.takeValue seen long value) rest
      | none =>
        if looksLikeOption arg then .error (if Text.startsWith arg "-h" then .help else .misuse)
        else do take g (← g.takeOperand seen arg) rest

/-- All that was given, if nothing is missing. -/
def read (g : Grammar) (args : List String) : Except Stop Given := do
  let seen ← g.take {} args
  let complete := seen.operands.length = g.operands.length && (g.members = [] || seen.member.isSome)
  if complete then return seen else throw .misuse

/-! ## 2. Help

The text is made from the grammar, so it cannot differ from what is taken. -/

/-- Two columns; the second one starts two blanks behind the longest text of the first. -/
def columns (rows : List (String × String)) : List String :=
  let width := rows.foldl (fun w row => max w row.1.length) 0
  rows.map fun row =>
    "  " ++ row.1 ++ String.ofList (List.replicate (width - row.1.length + 2) ' ') ++ row.2

/-- A part of the help under its title; nothing if it has no rows. -/
def part (title : String) (rows : List (String × String)) : List String :=
  if rows = [] then [] else ["", title ++ ":"] ++ columns rows

/-- How the command is called. -/
def usage (g : Grammar) : String :=
  Text.joinWith " " <|
    ["Usage:", g.name] ++ (if g.flags.isEmpty then [] else ["[OPTIONS]"]) ++
      g.operands.map (fun o => "<" ++ o.name ++ ">") ++
      (if g.members = [] then [] else ["<COMMAND>"])

def help (g : Grammar) : String :=
  let flags := g.flags.map fun f => (f.usage, f.description)
  let text := [g.about, "", g.usage] ++ part "Commands" g.members ++
    part "Arguments" (g.operands.map fun o => ("<" ++ o.name ++ ">", o.about)) ++
    part "Options" (flags ++ [("-h, --help", "Print help")])
  Text.joinWith "\n" text ++ "\n"

end Grammar
end Operator
end Foreman
