/-
# The order of merges

Candidates whose footprints share a directory, directly or through others, form a group.  The
groups follow each other by their earliest completion and stay together; in a group the order is
that of completion, and of task identifiers at the same time (`order_merges`, `by_completion`).

Completion and identifiers are compared by a sorting routine, once and before the groups are
found.  At one time the identifiers may stand in a circle, and the routine may then give up; so
it is a parameter of `Candidate.mergeOrderBy`.  `Candidate.mergeOrder` is what insertion makes
of it.

The groups are found by going through the sorted candidates and their directories.  The first
candidate that touches a directory owns it, and every later one joins the owner's group in a
forest of places.  Since the smaller root always wins, the root of a group is the place of its
earliest member, and reading the roots from the front gives the groups by their earliest
completion.

The directory of a glob is the one its literal start lies in; a plain path without an extension,
or with a slash at its end, is a directory itself; anything else lies in its parent, and at the
top level in `.` (`directory_key`).
-/
import Foreman.Files.Path
import Foreman.Footprint.Pattern
import Foreman.Merge.Forest
import Foreman.Table
import Foreman.Task.Basic
import Foreman.Task.Id
import Foreman.Time.Instant

namespace Foreman

/-- The finished branch of a worker (`MergeCandidate`). -/
structure Candidate where
  taskId : String
  workerId : String
  branch : String
  workspace : String
  footprint : List String
  completedAt : Instant
deriving DecidableEq, Repr, Inhabited

namespace Pattern

/-- The text before its last slash, or a dot if there is nothing before it. -/
def parentDirectory (s : String) : String :=
  match Text.splitLast? s '/' with
  | some (dir, _) => if dir = "" then "." else dir
  | none => "."

/-- The pattern was written with a separator at its end. -/
def endsInSeparator (p : String) : Bool :=
  Text.endsWith (Text.trimEnd p) "/" || Text.endsWith (Text.trimEnd p) "\\"

/-- The directory a pattern lies in. -/
def directory (p : String) : String :=
  let canon := normalize p
  if isGlob canon.toList then parentDirectory (String.ofList (literalStart canon.toList))
  else if endsInSeparator p || (Path.extension? canon).isNone then canon
  else parentDirectory canon

/-- The directories of a footprint, each once and in the order of their texts. -/
def directories (footprint : List String) : List String :=
  (Table.ofList (footprint.map fun p => (directory p, ()))).keys

end Pattern

namespace Candidate

/-- The candidate as a value. -/
def toJson (c : Candidate) : Json :=
  .record
    [("task_id", .text c.taskId), ("worker_id", .text c.workerId), ("branch", .text c.branch),
      ("workspace", .text c.workspace), ("footprint", .ofTexts c.footprint),
      ("completed_at", .ofInstant c.completedAt)]

/-- The earlier completion, or the smaller identifier at the same time. -/
def completesBefore (a b : Candidate) : Bool :=
  (a.completedAt.order b.completedAt).then (TaskId.order a.taskId b.taskId) = .lt

/-- Which candidate owns each directory so far, and the groups found so far. -/
structure Grouping where
  owners : Table Nat
  forest : Forest

/-- A candidate of index `i` touches a directory: it joins the owner's group, or owns it.  The
owner of a directory stays the same, also when its group is joined to another. -/
def Grouping.touch (i : Nat) (g : Grouping) (dir : String) : Grouping :=
  match g.owners.get? dir with
  | some owner => { g with forest := g.forest.union i owner }
  | none => { g with owners := g.owners.insert dir i }

/-- The groups of the candidates, by their place in the list. -/
def grouping (cands : List Candidate) : Grouping :=
  cands.zipIdx.foldl
    (fun g (c, i) => (Pattern.directories c.footprint).foldl (Grouping.touch i) g)
    ⟨.empty, .discrete cands.length⟩

/-- The elements without repetitions, each where it is first. -/
def distinct (seen : List Nat) : List Nat → List Nat
  | [] => []
  | r :: rest => if r ∈ seen then distinct seen rest else r :: distinct (r :: seen) rest

/-- The candidates group by group: the groups by the first candidate of each, and every group as it
was given. -/
def arrange (sorted : List Candidate) : List Candidate :=
  let roots := (grouping sorted).forest.roots sorted.length
  let rooted := roots.zip sorted
  (distinct [] roots).flatMap fun r => (rooted.filter fun e => e.1 = r).map Prod.snd

/-- The order in which candidates are merged, sorted by some routine; none if that one gives up. -/
def mergeOrderBy (sort : Sorter) (cands : List Candidate) : Option (List Candidate) :=
  (sort.sort? completesBefore cands).map arrange

/-- The order in which candidates are merged, sorted by insertion. -/
def mergeOrder (cands : List Candidate) : List Candidate := arrange (sortBy completesBefore cands)

end Candidate
end Foreman
