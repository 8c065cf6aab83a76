/-
# The command line program

The files of the working directory are read, the command is carried out on them, and what it
changed is written back.  Programs are those that every machine has.

This is the one module that touches the machine it runs on.  What the command does is decided by
`Operator.perform`, which is given all that it depends on: the files, the processes that run,
the number of its own process, random numbers and the time of the clock.
-/
import Foreman.Agent.Session
import Foreman.Operator.Report
import Std.Time.DateTime.Timestamp

namespace Foreman
namespace Main

/-! ## 1. Files

The files below the working directory and below the root that the command names, and what of
them has changed. -/

/-- The files below a path; of a repository only its place. -/
partial def gather (path : String) (t : Tree) : IO Tree := do
  let here := (← IO.currentDir) / path
  if ← here.isDir then
    let t := (t.mkdirAll path).toOption.getD t
    if Path.fileName? path = some ".git" then return t
    let mut t := t
    for entry in ← here.readDir do
      t ← gather (Path.join path entry.fileName) t
    return t
  else if ← here.pathExists then
    let bytes := (← IO.FS.readBinFile here).toList
    let t := (t.write path bytes).toOption.getD t
    return t.setExecutable path (Program.interpreter bytes ≠ [])
  else return t

/-- The path is a mark or a file of a repository. -/
def isGit (path : String) : Bool := ".git" ∈ Path.parts path

/-- Makes the files on disk those of the tree. -/
def writeBack (before after : Tree) : IO Unit := do
  for (path, node) in after.nodes.entries do
    if !isGit path && before.nodes.get? path ≠ some node then
      match node with
      | .directory => IO.FS.createDirAll path
      | .file bytes _ => IO.FS.writeBinFile path ⟨bytes.toArray⟩
  for (path, node) in before.nodes.entries do
    if !isGit path && (after.nodes.get? path).isNone then
      match node with
      | .file .. => IO.FS.removeFile path
      | .directory => pure ()

/-! ## 2. Surroundings

What a command asks of the machine besides its files. -/

/-- The processes that run. -/
def processes : IO (List Nat) := do
  let mut found := []
  for entry in ← ((← IO.currentDir) / "/proc").readDir do
    if let some pid := Text.unsigned? Text.bound32 entry.fileName.toList then
      found := pid :: found
  return found

/-- The number of this process. -/
def ownPid : IO Nat := do
  let status ← IO.FS.readFile "/proc/self/stat"
  return ((Text.split status ' ').head?.bind fun w => Text.unsigned? Text.bound32 w.toList).getD 0

/-- The time of the clock. -/
def clock : IO Instant := do
  let time ← Std.Time.Timestamp.now
  let nanos := time.toNanosecondsSinceUnixEpoch.val.toNat
  let seconds := nanos / Span.perSecond
  return ⟨seconds / 86400, seconds % 86400, nanos % Span.perSecond⟩

/-- A random number of 128 bits. -/
def randomSeed : IO Nat := do
  return (← IO.getRandomBytes 16).toList.foldl (fun n b => n * 256 + b.toNat) 0

/-- The time before a line of the log. -/
def stamp (now : Instant) : String :=
  let s := now.second
  Text.padded 2 (s / 3600) ++ ":" ++ Text.padded 2 (s / 60 % 60) ++ ":" ++ Text.padded 2 (s % 60)

/-- A repository where its mark is. -/
def repositoryAt (m : Machine) (top : String) : Machine :=
  if m.files.exists (Path.join top ".git") then (Git.run m top ["init"]).2 else m

end Main
end Foreman

open Foreman Main in
/-- Carries out the command of the arguments. -/
def main (args : List String) : IO UInt32 := do
  let cwd := (← IO.currentDir).toString
  let tree : Tree := { Tree.empty with here := Path.parts cwd }
  let tree ← gather cwd tree
  let (root, config) :=
    match Operator.CommandLine.read args with
    | .command c => (tree.fullPath c.root, tree.fullPath c.configPath)
    | _ => (cwd, cwd)
  let tree ← if Tree.isWithin cwd root then pure tree else gather root tree
  let tree ← if tree.exists config then pure tree else gather config tree
  let machine := repositoryAt { files := tree } (Machine.absolute root "")
  let running ← processes
  let seed ← randomSeed
  let own : Operator.OwnProcess :=
    ⟨← ownPid, fun pid => pid ∈ running, fun n => Agent.sessionIdOf (seed + n * (Text.bound64 + 1))⟩
  let now ← clock
  let (report, after, _) := Operator.perform own args machine now
  writeBack machine.files after.files
  (← IO.getStdout).putStr report.out
  let stderr ← IO.getStderr
  for line in report.log do
    stderr.putStrLn (stamp now ++ " " ++ line)
  if let some e := report.error then stderr.putStrLn ("Error: " ++ e)
  return report.code.toUInt32
