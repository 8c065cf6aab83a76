/-
# The overview

What `handle_status` prints: tasks in a table, those at work first, and below it the workers,
the claims and the queue.  The table may be narrowed to the tasks of one status; the number of
all of them is told all the same.

The overview reads the two documents and changes nothing.  It takes no lock, so it may be asked
for while a run goes on; it then shows what the run wrote last.
-/
import Foreman.Config.Document
import Foreman.Kanban.Document
import Foreman.Number.Decimal
import Foreman.Operator.Console
import Foreman.Sorting
import Foreman.State.Document
import Foreman.Task.Id

namespace Foreman
namespace Operator

/-! ## 1. The order and the rows

Tasks of one status stand in the natural order of their identifiers.  They are sorted by
insertion, which matters only for identifiers that are no order (see `Foreman.Sorting`). -/

/-- The place of a status in the table (`status_sort_priority`). -/
def statusPlace : TaskStatus → Nat
  | .inProgress => 0
  | .pending => 1
  | .blocked => 2
  | .failed => 3
  | .done => 4

/-- The first task stands above the second. -/
def standsAbove (a b : Task) : Bool :=
  statusPlace a.status < statusPlace b.status ||
    (statusPlace a.status = statusPlace b.status && TaskId.order a.id b.id = .lt)

/-- The text with blanks behind it up to the width. -/
def cell (width : Nat) (s : String) : String :=
  s ++ String.ofList (List.replicate (width - s.length) ' ')

/-- A row of the table; the last column has no width. -/
def row (cells : List String) (last : String) : String :=
  Text.joinWith " " (List.zipWith cell [12, 12, 8, 8, 10] cells ++ [last])

/-- A title that is longer than the width is cut, with dots at its end (`truncate_title`). -/
def shorten (width : Nat) (title : String) : String :=
  if title.length ≤ width then title
  else String.ofList (title.toList.take (width - 3)) ++ "..."

/-- The mean duration of an attempt in seconds; a dash if there was none. -/
def meanText (s : State) (taskId : String) : String :=
  match s.metrics.get? taskId with
  | some m =>
    if 0 < m.attempts then Double.fixed 1 (Float.ofNat m.average / 1000.0) ++ "s" else "-"
  | none => "-"

def taskRow (s : State) (t : Task) : String :=
  row [t.id, t.status.name, toString t.priority, toString (s.resumeOf t.id).attempts,
    meanText s t.id] (shorten 40 t.title)

/-! ## 2. The parts

A part that has nothing to tell is left out with its title, but the table of tasks always says
something. -/

def taskLines (s : State) (shown : List Task) (all : Nat) : List String :=
  if shown = [] then ["No matching tasks in kanban."]
  else
    [row ["ID", "STATUS", "PRIO", "TRIES", "AVG"] "TITLE",
      String.ofList (List.replicate 80 '-')] ++
    (sortBy standsAbove shown).map (taskRow s) ++
    ["", toString shown.length ++ " of " ++ toString all ++ " task(s) shown"]

/-- A part under its title, behind an empty line; nothing if it has no lines. -/
def partLines (title : String) (lines : List String) : List String :=
  if lines = [] then [] else ["", title ++ ":"] ++ lines.map ("  " ++ ·)

def workerLine (w : Worker) : String :=
  w.id ++ " " ++ w.status.name ++ " task=" ++ w.taskId ++ " iteration=" ++ toString w.iteration ++
    " pid=" ++ (w.pid.map toString).getD "-"

/-- A claim, and in brackets the task its holder works at. -/
def claimLine (c : Claim) : String :=
  c.pattern ++ " <- " ++ c.ref.workerId ++ " (" ++ c.ref.taskId ++ ")"

def queueLine (e : QueueEntry) : String :=
  e.taskId ++ " waiting on " ++ e.blocking.workerId ++ " (" ++ e.blocking.pattern ++ ")"

/-- All lines; of the tasks only those of a status, if one is asked for. -/
def overviewLines (k : Kanban) (s : State) (status : Option TaskStatus) : List String :=
  let shown := k.tasks.filter fun t => status.all (t.status = ·)
  let open_ := s.workers.filter fun w => !w.status.isTerminal
  taskLines s shown k.tasks.length ++
    partLines ("Workers (" ++ toString s.activeCount ++ " active)") (open_.map workerLine) ++
    partLines "Claims" (s.registry.claims.map claimLine) ++
    partLines "Queue" (s.registry.queue.map queueLine)

/-! ## 3. The command

The status that is asked for is read before anything is loaded, so a wrong one is refused in any
directory. -/

def overview (root configPath : String) (status : Option String) : Step Unit := do
  let status ← ExceptT.mk (pure (status.mapM TaskStatus.parse))
  let c ← inspect fun t => Config.load t configPath
  let k ← loadBacklog (c.kanbanPath root)
  let s ← inspect fun t => told (State.load t (c.statePath root))
  printLines (overviewLines k s status)

end Operator
end Foreman
