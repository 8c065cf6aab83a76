/-
# Shell scripts

Programs are started through short scripts of the command language of a POSIX shell: the command
that validates a merge, and agents that are scripts themselves.  Text inside a substitution is
kept as it stands and read when its turn comes.
-/

namespace Foreman
namespace Shell

/-- A part of a word. -/
inductive Part where
  /-- The text itself; between quotation marks it is a word even if it is empty. -/
  | text (s : String) (quoted : Bool)
  /-- The value of a parameter, as a rule behind its name says: `:-`, `#` and the like. -/
  | parameter (name rule argument : String) (quoted : Bool)
  /-- The output of a script. -/
  | output (script : String) (quoted : Bool)
  /-- The value of a sum. -/
  | sum (expression : String) (quoted : Bool)
deriving DecidableEq, Repr, Inhabited

abbrev Word := List Part

/-- Where a stream comes from or goes to. -/
inductive Direction where
  | read
  | write
  | append
  /-- Where another stream goes. -/
  | copy
  /-- From the lines that follow. -/
  | here
deriving DecidableEq, Repr, Inhabited

structure Redirect where
  stream : Nat
  direction : Direction
  target : Word
deriving DecidableEq, Repr, Inhabited

inductive Command where
  | simple (assignments : List (String × Word)) (words : List Word) (redirects : List Redirect)
  | group (body : List Command) (redirects : List Redirect)
  | subshell (body : List Command) (redirects : List Redirect)
  | cond (test whenTrue whenFalse : List Command) (redirects : List Redirect)
  /-- Runs while the test has the outcome. -/
  | loop (outcome : Bool) (test body : List Command) (redirects : List Redirect)
  /-- Without words it goes over the arguments. -/
  | each (name : String) (words : Option (List Word)) (body : List Command)
      (redirects : List Redirect)
  | choose (word : Word) (branches : List (List Word × List Command)) (redirects : List Redirect)
  | define (name : String) (body : Command)
  | both (a b : Command)
  | either (a b : Command)
  | negate (a : Command)
  | pipe (a b : Command)
  /-- Is started and not waited for. -/
  | background (a : Command)
deriving Repr, Inhabited

end Shell
end Foreman
