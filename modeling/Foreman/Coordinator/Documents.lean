/-
# The coordinator's documents in the tree of files

The coordinator sees the files only through what keeps it from writing them.  Here that is read
off a tree, and the writes that took effect are carried out on it.  So `Documents.handle` is the
coordinator with its files, as `run_coordinator` has it with a `StateStore` and the path of the
backlog.

That the faults can be read off before it is known what will be written rests on how documents are
replaced: a temporary file is made in the same directory and renamed, and neither step looks at
the contents.
-/
import Foreman.Coordinator.Desk
import Foreman.Kanban.Document
import Foreman.State.Document

namespace Foreman

/-- Where the two documents of the coordinator are. -/
structure Documents where
  board : String
  state : String
deriving DecidableEq, Repr, Inhabited

namespace Documents

/-- The reason of a failure. -/
def reason? {α : Type} : Except String α → Option String
  | .ok _ => none
  | .error reason => some reason

/-- What keeps the documents from being written.  It does not depend on what is written, so an
empty backlog and a fresh state are tried. -/
def faults (p : Documents) (t : Tree) : Faults where
  directory := reason? (State.prepare t p.state)
  stage :=
    match State.prepare t p.state with
    | .ok t => reason? (State.stage t p.state)
    | .error _ => none
  board := reason? (Kanban.save t p.board {})
  commit :=
    match State.prepare t p.state with
    | .ok t => reason? (State.commit t p.state {})
    | .error _ => none

/-- Carries out a write; one that cannot be done changes nothing.  The state is staged before
either document is written, so its directory is made first. -/
def carryOut (p : Documents) (t : Tree) (w : Write) : Tree :=
  let t := (State.prepare t p.state).toOption.getD t
  match w with
  | .board k => (k.save t p.board).toOption.getD t
  | .state s => (State.commit t p.state s).toOption.getD t

/-- A command to the desk, with its writes carried out in their order. -/
def handle (p : Documents) (c : DeskSettings) (d : Desk) (t : Tree) (now : Instant)
    (cmd : Command) : Reply × Desk × Tree :=
  let a := d.handle c now (p.faults t) cmd
  (a.reply, a.desk, a.writes.foldl p.carryOut t)

/-- The last writing of the desk, carried out. -/
def close (p : Documents) (d : Desk) (t : Tree) (now : Instant) : Desk × Tree :=
  let (d, writes) := d.close now (p.faults t)
  (d, writes.foldl p.carryOut t)

end Documents
end Foreman
