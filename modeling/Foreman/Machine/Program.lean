/-
# Programs

What a command name starts: a program that every machine has, or a script among the files, run by
the interpreter that its first line names.

A name without a slash is looked for in the directories of the search path, in their order, and
the first one that can be started is taken.  So a project can put a program of its own before
those that every machine has.
-/
import Foreman.Machine.Basic

namespace Foreman

/-- A program that can be started. -/
inductive Program where
  | known (name : String)
  /-- A file, and the words of the line that names its interpreter. -/
  | script (path : String) (interpreter : List String)
deriving DecidableEq, Repr, Inhabited

namespace Program

/-- Programs that read a script. -/
def shells : List String := ["sh", "dash", "bash"]

/-- The programs of every machine. -/
def names : List String :=
  shells ++
  ["git", "perl", "env", "sleep", "kill", "true", "false", "echo", "printf", "test", "[", "cat",
    "head", "tail", "wc", "sort", "grep", "seq", "tee", "ls", "mkdir", "rmdir", "rm", "touch",
    "cp", "mv", "chmod", "pwd", "basename", "dirname", "printenv", "sync"]

/-- The directories of those programs. -/
def directories : List String :=
  ["/usr/local/sbin", "/usr/local/bin", "/usr/sbin", "/usr/bin", "/sbin", "/bin"]

/-- Where programs are looked for unless something else is said. -/
def searchPath : String := Text.joinWith ":" directories

/-- The program of a path, if it is one that every machine has. -/
def known? (path : String) : Option Program :=
  match Text.splitLast? path '/' with
  | some (dir, name) => if dir ∈ directories && name ∈ names then some (.known name) else none
  | none => none

/-- The words of the line that names the interpreter of a script. -/
def interpreter (bytes : List UInt8) : List String :=
  let line := (Utf8.decodeLossy bytes).takeWhile (· ≠ '\n')
  match line with
  | '#' :: '!' :: rest => (Text.split (String.ofList rest) ' ').filter (· ≠ "")
  | _ => []

/-- The program at a path. -/
def ofPath (m : Machine) (path : String) : Except FileError Program :=
  match known? path with
  | some p => .ok p
  | none =>
    match m.files.read path with
    | .error .isDirectory => .error .denied
    | .error e => .error e
    | .ok bytes =>
      match m.files.node? path with
      | some (.file _ true) =>
        match interpreter bytes with
        | [] => .ok (.script path ["/bin/sh"])
        | first :: more =>
          if (known? first).isSome then .ok (.script path (first :: more)) else .error .notFound
      | _ => .error .denied

/-- The program that a name starts, seen from a directory; a name without a slash is looked for in
the directories of a search path. -/
def find (m : Machine) (search dir name : String) : Except FileError Program :=
  if Text.contains name "/" then ofPath m (Path.join dir name)
  else if name = "" then .error .notFound
  else
    let tries := (Text.split search ':').map fun d => ofPath m (Path.join (Path.join dir d) name)
    match tries.find? fun t => t.isOk with
    | some found => found
    | none =>
      if tries.any fun t =>
          match t with
          | .error .denied => true
          | _ => false
      then .error .denied
      else .error .notFound

end Program
end Foreman
