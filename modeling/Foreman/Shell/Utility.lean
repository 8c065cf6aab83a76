/-
# Utilities

The small programs that scripts use on files and text.  Each takes its arguments, writes to the
streams of the shell and leaves a status.
-/
import Foreman.Shell.Field
import Foreman.Shell.Printf
import Foreman.Shell.Test
import Foreman.Text.Blank
import Foreman.Text.Search

namespace Foreman
namespace Shell
namespace Utility

/-! ## 1. Arguments

Options and operands, and what is told about an operand that fails. -/

/-- The letters of the options, and the operands. -/
def options : List String → List Char × List String
  | [] => ([], [])
  | "--" :: rest => ([], rest)
  | arg :: rest =>
    if Text.startsWith arg "-" && arg ≠ "-" then
      let (letters, operands) := options rest
      (arg.toList.drop 1 ++ letters, operands)
    else ([], arg :: rest)

/-- Carries something out for each operand; the status is that of a failure if there was one. -/
def forEach (e : Env) (status : Nat) (f : Env → String → Env) (operands : List String) : Env :=
  let (e, ok) := operands.foldl
    (fun (acc : Env × Bool) p => let e := f (acc.1.done 0) p; (e, acc.2 && e.status = 0)) (e, true)
  e.done (if ok then 0 else status)

def baseName (p : String) : String :=
  match (Path.parts p).getLast? with
  | some name => name
  | none => if p = "" then "" else "/"

def noSuchFile : String := "No such file or directory"

def reason : FileError → String
  | .notFound => noSuchFile
  | .isDirectory => "Is a directory"
  | .notDirectory => "Not a directory"
  | .exists => "File exists"
  | .notEmpty => "Directory not empty"
  | .denied => "Permission denied"
  | .nameTooLong => "File name too long"
  | .notText => "Invalid argument"

/-- Changes the files, or tells why that failed. -/
def change (e : Env) (status : Nat) (about : String) : Except FileError Tree → Env
  | .ok t => (e.withFiles t).done 0
  | .error err => e.fail status (about ++ ": " ++ reason err)

/-! ## 2. Text

Programs that read lines and write lines; the input stands for a file that is not named. -/

/-- The bytes of the operands, or of the input if there are none. -/
def cat (e : Env) (args : List String) : Env :=
  let (_, operands) := options args
  if operands = [] then ({ e.emit e.out e.input with input := [] }).done 0
  else
    forEach e 1
      (fun e p =>
        if p = "-" then { e.emit e.out e.input with input := [] }
        else
          match e.read p with
          | .ok bytes => e.emit e.out bytes
          | .error err => e.fail 1 ("cat: " ++ p ++ ": " ++ reason err))
      operands

/-- The lines of the operands, or of the input. -/
def linesOf (e : Env) (operands : List String) : List String :=
  let bytes :=
    if operands = [] then e.input
    else operands.flatMap fun p => (e.read p).toOption.getD []
  Text.lines (String.ofList (Utf8.decodeLossy bytes))

def printLines (e : Env) (ls : List String) : Env :=
  (e.print (String.join (ls.map (· ++ "\n")))).done 0

/-- The number that an option sets, as in `-n 3` or `-3`, and the operands. -/
def count (dflt : Nat) : List String → Nat × List String
  | "-n" :: n :: rest => (n.toNat?.getD dflt, rest)
  | arg :: rest =>
    match (Text.stripStart? arg "-n").or (Text.stripStart? arg "-") with
    | some n => if arg = "-" then (dflt, arg :: rest) else (n.toNat?.getD dflt, rest)
    | none => (dflt, arg :: rest)
  | [] => (dflt, [])

def head (e : Env) (args : List String) : Env :=
  let (n, operands) := count 10 args
  printLines e ((linesOf e operands).take n)

def tail (e : Env) (args : List String) : Env :=
  let (n, operands) := count 10 args
  let ls := linesOf e operands
  printLines e (ls.drop (ls.length - n))

def wc (e : Env) (args : List String) : Env :=
  let (letters, operands) := options args
  let bytes :=
    if operands = [] then e.input
    else operands.flatMap fun p => (e.read p).toOption.getD []
  let text := String.ofList (Utf8.decodeLossy bytes)
  let lines := bytes.count 10
  let words := ((text.toList.splitBy fun a b => Text.isBlank a = Text.isBlank b).filter fun w =>
    w.any fun c => !Text.isBlank c).length
  let counts :=
    if letters.contains 'l' then [lines]
    else if letters.contains 'w' then [words]
    else if letters.contains 'c' || letters.contains 'm' then [bytes.length]
    else [lines, words, bytes.length]
  printLines e [Text.joinWith " " (counts.map toString ++ operands)]

def sort (e : Env) (args : List String) : Env :=
  let (letters, operands) := options args
  let ls := (linesOf e operands).mergeSort fun a b => a ≤ b
  let ls := if letters.contains 'r' then ls.reverse else ls
  printLines e (if letters.contains 'u' then ls.eraseDups else ls)

/-- The lines that hold a text; a mark at its start or end ties it to that of the line. -/
def grep (e : Env) (args : List String) : Env :=
  let (letters, operands) := options args
  match operands with
  | [] => e.done 2
  | pattern :: operands =>
    let fold (s : String) : String := if letters.contains 'i' then s.toLower else s
    let atStart := Text.startsWith pattern "^" && !letters.contains 'F'
    let atEnd := Text.endsWith pattern "$" && !letters.contains 'F'
    let front := pattern.toList.drop (if atStart then 1 else 0)
    let body := front.reverse.drop (if atEnd then 1 else 0)
    let piece := fold (String.ofList body.reverse)
    let holds (l : String) : Bool :=
      let l := fold l
      if atStart && atEnd || letters.contains 'x' then l = piece
      else if atStart then Text.startsWith l piece
      else if atEnd then Text.endsWith l piece
      else Text.contains l piece
    match operands.find? fun p => !(e.read p).isOk with
    | some p =>
      if letters.contains 's' then e.done 2
      else e.fail 2 ("grep: " ++ p ++ ": " ++ noSuchFile)
    | none =>
      let found := (linesOf e operands).filter fun l => holds l != letters.contains 'v'
      let e := if operands = [] then { e with input := [] } else e
      let e :=
        if letters.contains 'q' then e
        else if letters.contains 'c' then printLines e [toString found.length]
        else printLines e found
      e.done (if found = [] then 1 else 0)

def seq (e : Env) (args : List String) : Env :=
  match args.map String.toNat? with
  | [some b] => printLines e ((List.range b).map fun i => toString (i + 1))
  | [some a, some b] => printLines e ((List.range (b + 1 - a)).map fun i => toString (a + i))
  | _ => e.done 1

def tee (e : Env) (args : List String) : Env :=
  let (letters, operands) := options args
  let bytes := e.input
  let e := ({ e with input := [] }).emit e.out bytes
  forEach e 1
    (fun e p =>
      let old := if letters.contains 'a' then (e.files.read (e.path p)).toOption.getD [] else []
      change e 1 ("tee: " ++ p) (e.files.write (e.path p) (old ++ bytes)))
    operands

/-! ## 3. Files

Programs that change the tree of files, each operand on its own. -/

def ls (e : Env) (args : List String) : Env :=
  let (letters, operands) := options args
  let shown (names : List String) : List String :=
    if letters.contains 'a' || letters.contains 'A' then names
    else names.filter fun n => !Text.startsWith n "."
  forEach e 2
    (fun e p =>
      if e.files.isDir (e.path p) && !letters.contains 'd' then
        printLines e (shown ((e.files.list (e.path p)).mergeSort fun a b => a ≤ b))
      else if e.files.exists (e.path p) then printLines e [p]
      else e.fail 2 ("ls: cannot access '" ++ p ++ "': " ++ noSuchFile))
    (if operands = [] then ["."] else operands)

def mkdir (e : Env) (args : List String) : Env :=
  let (letters, operands) := options args
  forEach e 1
    (fun e p =>
      let full := e.path p
      let about := "mkdir: cannot create directory '" ++ p ++ "'"
      if letters.contains 'p' then change e 1 about (e.files.mkdirAll full)
      else if e.files.exists full then e.fail 1 (about ++ ": File exists")
      else if e.files.isDir ((Path.parent? full).getD "/") then
        change e 1 about (e.files.mkdirAll full)
      else e.fail 1 (about ++ ": " ++ noSuchFile))
    operands

def rmdir (e : Env) (args : List String) : Env :=
  let (_, operands) := options args
  forEach e 1
    (fun e p =>
      let full := e.path p
      let about := "rmdir: failed to remove '" ++ p ++ "'"
      if !e.files.exists full then e.fail 1 (about ++ ": " ++ noSuchFile)
      else if !e.files.isDir full then e.fail 1 (about ++ ": Not a directory")
      else if !(e.files.below full).isEmpty then e.fail 1 (about ++ ": Directory not empty")
      else e.withFiles (e.files.removeAll full))
    operands

def rm (e : Env) (args : List String) : Env :=
  let (letters, operands) := options args
  let deep := letters.contains 'r' || letters.contains 'R'
  forEach e 1
    (fun e p =>
      let full := e.path p
      let about := "rm: cannot remove '" ++ p ++ "'"
      if !e.files.exists full then
        if letters.contains 'f' then e else e.fail 1 (about ++ ": " ++ noSuchFile)
      else if e.files.isDir full && !deep then e.fail 1 (about ++ ": Is a directory")
      else e.withFiles (e.files.removeAll full))
    operands

def touch (e : Env) (args : List String) : Env :=
  let (_, operands) := options args
  forEach e 1
    (fun e p =>
      if e.files.exists (e.path p) then e
      else change e 1 ("touch: cannot touch '" ++ p ++ "'") (e.files.write (e.path p) []))
    operands

/-- The path that something gets when it is put at `dst`: below it, if it is a directory. -/
def target (e : Env) (src dst : String) : String :=
  if e.files.isDir (e.path dst) then Path.join (e.path dst) (baseName src) else e.path dst

/-- Copies a file or, if that is wanted, a directory with all that is in it. -/
def copyTo (e : Env) (deep : Bool) (src dst : String) : Env :=
  let full := e.path src
  match e.files.node? full with
  | none => e.fail 1 ("cp: cannot stat '" ++ src ++ "': " ++ noSuchFile)
  | some (.file bytes x) =>
    match e.files.write dst bytes with
    | .ok t => e.withFiles (if x then t.setExecutable dst true else t)
    | .error err => e.fail 1 ("cp: cannot create regular file '" ++ dst ++ "': " ++ reason err)
  | some .directory =>
    if !deep then e.fail 1 ("cp: -r not specified; omitting directory '" ++ src ++ "'")
    else
      let made := (e.files.mkdirAll dst).toOption.getD e.files
      e.withFiles ((e.files.below full).foldl
        (fun t n =>
          let path := Path.join dst n.1
          match n.2 with
          | .directory => (t.mkdirAll path).toOption.getD t
          | .file bytes x => ((t.write path bytes).toOption.getD t).setExecutable path x)
        made)

def cp (e : Env) (args : List String) : Env :=
  let (letters, operands) := options args
  let deep := "rRa".toList.any letters.contains
  match operands.getLast? with
  | some dst => forEach e 1 (fun e src => copyTo e deep src (target e src dst)) operands.dropLast
  | none => e.fail 1 "cp: missing file operand"

def mv (e : Env) (args : List String) : Env :=
  let (_, operands) := options args
  match operands.getLast? with
  | some dst =>
    forEach e 1
      (fun e src =>
        let goal := target e src dst
        if !e.files.exists (e.path src) then
          e.fail 1 ("mv: cannot stat '" ++ src ++ "': " ++ noSuchFile)
        else if e.files.isDir ((Path.parent? goal).getD "/") then
          e.withFiles (e.files.move (e.path src) goal)
        else e.fail 1 ("mv: cannot move '" ++ src ++ "' to '" ++ dst ++ "': " ++ noSuchFile))
      operands.dropLast
  | none => e.fail 1 "mv: missing file operand"

/-- Lets files be run as programs, or no longer. -/
def chmod (e : Env) (args : List String) : Env :=
  match args with
  | mode :: operands =>
    let runs := Text.contains mode "+x" || (Text.startsWith mode "7") || (Text.startsWith mode "07")
    let stops :=
      Text.contains mode "-x" || (Text.startsWith mode "6") || (Text.startsWith mode "06")
    forEach e 1
      (fun e p =>
        if !e.files.exists (e.path p) then
          e.fail 1 ("chmod: cannot access '" ++ p ++ "': " ++ noSuchFile)
        else if runs || stops then e.withFiles (e.files.setExecutable (e.path p) runs)
        else e)
      operands
  | [] => e.fail 1 "chmod: missing operand"

/-! ## 4. Names

Programs that tell names: of paths, of directories, of variables. -/

def pwd (e : Env) : Env := printLines e [Machine.absolute e.dir ""]

def basename (e : Env) : List String → Env
  | [p] => printLines e [baseName p]
  | [p, suffix] =>
    let name := baseName p
    printLines e [if name = suffix then name else (Text.stripEnd? name suffix).getD name]
  | _ => e.fail 1 "basename: missing operand"

def dirname (e : Env) : List String → Env
  | p :: _ => printLines e [if Text.contains p "/" then (Path.parent? p).getD "/" else "."]
  | [] => e.fail 1 "dirname: missing operand"

/-- The exported variables, or the value of one. -/
def printenv (e : Env) : List String → Env
  | [] => printLines e (e.passedOn.entries.map fun v => v.1 ++ "=" ++ v.2)
  | name :: _ =>
    match e.passedOn.get? name with
    | some v => printLines e [v]
    | none => e.done 1

/-- Formatted output, with a complaint about what should be a number and is none. -/
def printf (e : Env) (text : String) (args : List String) : Env :=
  let e := (e.emit e.out (Printf.printf text args)).done 0
  (Printf.wrongNumbers text args).foldl
    (fun e arg => e.scold 1 ("printf: " ++ arg ++ ": expected numeric value")) e

/-! ## 5. All of them

A utility by its name, as a script calls it. -/

/-- The names of commands that are part of a shell. -/
def inner : List String :=
  [".", ":", "[", "alias", "break", "cd", "command", "continue", "echo", "eval", "exec", "exit",
    "export", "false", "kill", "local", "printf", "pwd", "read", "readonly", "return", "set",
    "shift", "test", "times", "trap", "true", "ulimit", "umask", "unset", "wait"]

/-- The utility of a name. -/
def find? (name : String) : Option (Env → List String → Env) :=
  match name with
  | "true" | ":" => some fun e _ => e.done 0
  | "false" => some fun e _ => e.done 1
  | "echo" => some fun e args => (e.emit e.out (Printf.echo args)).done 0
  | "printf" => some fun e args =>
    match args with
    | "--" :: text :: rest => printf e text rest
    | text :: rest => printf e text rest
    | [] => e.scold 2 "printf: usage: printf format [arg ...]"
  | "test" => some Test.run
  | "[" => some Test.bracket
  | "cat" => some cat
  | "head" => some head
  | "tail" => some tail
  | "wc" => some wc
  | "sort" => some sort
  | "grep" => some grep
  | "seq" => some seq
  | "tee" => some tee
  | "ls" => some ls
  | "mkdir" => some mkdir
  | "rmdir" => some rmdir
  | "rm" => some rm
  | "touch" => some touch
  | "cp" => some cp
  | "mv" => some mv
  | "chmod" => some chmod
  | "pwd" => some fun e _ => pwd e
  | "basename" => some basename
  | "dirname" => some dirname
  | "printenv" => some printenv
  | "umask" => some fun e _ => printLines e ["0022"]
  | "sync" | "ulimit" | "alias" | "times" => some fun e _ => e.done 0
  | _ => none

end Utility
end Shell
end Foreman
