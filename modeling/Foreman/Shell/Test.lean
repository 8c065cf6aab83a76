/-
# Conditions

The conditions that `test` decides: about texts, numbers and files.
-/
import Foreman.Machine.Program
import Foreman.Shell.Environment
import Foreman.Text.Integer

namespace Foreman
namespace Shell
namespace Test

def number? (s : String) : Option Int := Text.signed? Text.half64 (s.toList.filter (· ≠ ' '))

/-- The bytes of a file, if it is one. -/
def bytes? (e : Env) (p : String) : Option (List UInt8) := (e.read p).toOption

/-- The path is that of a program which every machine has. -/
def isProgram (e : Env) (p : String) : Bool := (Program.known? (e.path p)).isSome

def isExecutable (e : Env) (p : String) : Bool :=
  match e.files.node? (e.path p) with
  | some (.file _ x) => x
  | some .directory => true
  | none => isProgram e p

/-- A condition on one operand. -/
def unary? (e : Env) (op arg : String) : Option Bool :=
  match op with
  | "-n" => some (arg ≠ "")
  | "-z" => some (arg = "")
  | "-e" | "-r" | "-w" => some (e.files.exists (e.path arg) || arg = "/dev/null" || isProgram e arg)
  | "-f" => some (e.files.isFile (e.path arg) || isProgram e arg)
  | "-d" => some (e.files.isDir (e.path arg))
  | "-s" => some (match bytes? e arg with
      | some bytes => bytes ≠ []
      | none => e.files.isDir (e.path arg))
  | "-x" => some (isExecutable e arg)
  | "-h" | "-L" | "-t" => some false
  | _ => none

/-- A condition on two operands; the inner result is missing if one of them is no number. -/
def binary? (op a b : String) : Option (Option Bool) :=
  let numbers (f : Int → Int → Bool) : Option (Option Bool) :=
    some (match number? a, number? b with
      | some m, some n => some (f m n)
      | _, _ => none)
  match op with
  | "=" | "==" => some (some (a = b))
  | "!=" => some (some (a ≠ b))
  | "<" => some (some (a < b))
  | ">" => some (some (b < a))
  | "-eq" => numbers fun m n => m = n
  | "-ne" => numbers fun m n => m ≠ n
  | "-lt" => numbers fun m n => m < n
  | "-le" => numbers fun m n => m ≤ n
  | "-gt" => numbers fun m n => n < m
  | "-ge" => numbers fun m n => n ≤ m
  | _ => none

/-- Whether the condition holds, if it is one. -/
def decide? (e : Env) : Nat → List String → Option Bool
  | 0, _ => none
  | fuel + 1, args =>
    let split (op : String) : Option (List String × List String) :=
      let before := args.takeWhile (· ≠ op)
      if before ≠ [] && before.length + 1 < args.length then
        some (before, args.drop (before.length + 1))
      else none
    let whole : Option Bool :=
      match args with
      | [] => some false
      | [a] => some (a ≠ "")
      | ["!", a] => some (a = "")
      | [op, a] => unary? e op a
      | [a, op, b] =>
        match binary? op a b with
        | some r => r
        | none =>
          if a = "!" then (decide? e fuel [op, b]).map (!·)
          else if a = "(" && b = ")" then decide? e fuel [op]
          else none
      | "!" :: rest => if rest.length = 3 then (decide? e fuel rest).map (!·) else none
      | _ => none
    match whole, split "-o", split "-a" with
    | some b, _, _ => some b
    | none, some (a, b), _ =>
      match decide? e fuel a, decide? e fuel b with
      | some x, some y => some (x || y)
      | _, _ => none
    | none, none, some (a, b) =>
      match decide? e fuel a, decide? e fuel b with
      | some x, some y => some (x && y)
      | _, _ => none
    | none, none, none =>
      match args with
      | "!" :: rest => (decide? e fuel rest).map (!·)
      | _ => none

/-- The names of the conditions on numbers. -/
def numeric : List String := ["-eq", "-ne", "-lt", "-le", "-gt", "-ge"]

/-- What is wrong with a condition that is none. -/
def complaint (args : List String) : String :=
  match args with
  | [a, op, b] =>
    if op ∈ numeric then "Illegal number: " ++ (if (number? a).isNone then a else b)
    else a ++ ": unexpected operator"
  | _ => args.head?.getD "" ++ ": unexpected operator"

/-- Decides a condition for the command of that name. -/
def judge (name : String) (e : Env) (args : List String) : Env :=
  match decide? e (args.length + 2) args with
  | some true => e.done 0
  | some false => e.done 1
  | none => e.scold 2 (name ++ ": " ++ complaint args)

/-- The command `test`. -/
def run (e : Env) (args : List String) : Env := judge "test" e args

/-- The command `[`. -/
def bracket (e : Env) (args : List String) : Env :=
  if args.getLast? = some "]" then judge "[" e args.dropLast else e.scold 2 "[: missing ]"

end Test
end Shell
end Foreman
