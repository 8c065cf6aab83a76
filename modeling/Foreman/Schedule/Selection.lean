/-
# Choosing what runs next

One pass of the scheduler makes one plan (`select_tasks`).  Eligible tasks are ranked by score,
ties by the natural order of identifiers, and taken while there is room.  A task that overlaps
one that was taken before it is deferred, and so is a task that a claim blocks.

The ranking is a sort, and its comparison need not be an order: a score can be no number, and
identifiers of several shapes can stand in a circle.  A sorting routine may then give up, and
there is no plan.  `Snapshot.selectBy` has the routine as a parameter, `Snapshot.Plans` leaves
it open, and `Snapshot.select` is the plan that insertion makes.

Only the ranking is left to the routine.  What claims block is put off before it, and the walk
over the ranked tasks comes after it; so what is proved of a plan in `Proofs.Schedule.Plan` is
proved of every ranking, and the run, which has to return something, is written with `select`.
-/
import Foreman.Schedule.Score

namespace Foreman

/-- A task to start, with the identifier of the worker it will run under (`DispatchOrder`). -/
structure Order where
  taskId : String
  workerId : String
  footprint : List String
  score : Float
deriving Repr, Inhabited

/-- A task that has to wait, with the claim it waits for.  The claim may be one that is held, or
one that a task of the same plan is going to hold. -/
structure Deferral where
  taskId : String
  footprint : List String
  blocking : ClaimRef
deriving DecidableEq, Repr, Inhabited

/-- What one pass starts and what it puts off (`SelectionPlan`). -/
structure Plan where
  dispatch : List Order := []
  deferred : List Deferral := []
deriving Repr, Inhabited

/-- The order as a value, its score by the bits of the double. -/
def Order.toJson (o : Order) : Json :=
  .record
    [("task_id", .text o.taskId), ("worker_id", .text o.workerId),
      ("footprint", .ofTexts o.footprint), ("score", .ofBits o.score)]

/-- The deferral as a value. -/
def Deferral.toJson (d : Deferral) : Json :=
  .record
    [("task_id", .text d.taskId), ("footprint", .ofTexts d.footprint),
      ("blocking", d.blocking.toJson)]

/-- The plan as a value. -/
def Plan.toJson (p : Plan) : Json :=
  .record [("dispatch", .list (p.dispatch.map Order.toJson)),
    ("deferred", .list (p.deferred.map Deferral.toJson))]

namespace Snapshot

/-- What keeps a task from starting besides the tasks taken: a claim that blocks it. -/
def claimDeferral? (s : Snapshot) (now : Instant) (t : Task) : Option Deferral :=
  match s.eligibility t now with
  | .claimBlocked claim => some ⟨t.id, t.footprint, claim⟩
  | _ => none

/-- A task comes before another if it scores more, or the same with the smaller identifier. -/
def outranks (a b : Task × Float) : Bool :=
  (scoreOrder a.2 b.2).then (TaskId.order a.1.id b.1.id) = .lt

/-- The eligible tasks with their scores, as they stand in the backlog. -/
def scored (s : Snapshot) (now : Instant) (w : Config.Scoring) : List (Task × Float) :=
  (s.eligibleTasks now).map fun t => (t, s.score t now w)

/-- The eligible tasks with their scores, best first. -/
def ranked (s : Snapshot) (now : Instant) (w : Config.Scoring) : List (Task × Float) :=
  sortBy outranks (s.scored now w)

/-- The first task taken whose footprint overlaps, as the claim it is going to hold.  It names
the pattern of the task that was taken, not that of the one that has to wait. -/
def overlapWith (taken : List Order) (footprint : List String) : Option ClaimRef :=
  taken.findSome? fun o =>
    (Footprint.intersection? footprint o.footprint).map fun (_, theirs) =>
      ⟨o.workerId, o.taskId, theirs⟩

/-- The identifier of the worker a task will run under: the one that waits for it, or a new
one. -/
def workerIdFor (s : Snapshot) (t : Task) (now : Instant) : String :=
  match s.retryWorker? t.id with
  | some w => w.id
  | none => WorkerId.create t.id now

/-- Whether as many tasks were taken as there is room for; `none` is room without end. -/
def isFull (room : Option Nat) (taken : List Order) : Bool :=
  match room with
  | some n => n ≤ taken.length
  | none => false

/-- Goes through the ranked tasks while there is room.  A task that is put off takes no room,
and one behind it may still be taken. -/
def pick (s : Snapshot) (room : Option Nat) (now : Instant) (plan : Plan) :
    List (Task × Float) → Plan
  | [] => plan
  | (t, score) :: rest =>
    if isFull room plan.dispatch then plan
    else
      match overlapWith plan.dispatch t.footprint with
      | some blocking =>
        pick s room now
          { plan with deferred := plan.deferred ++ [⟨t.id, t.footprint, blocking⟩] } rest
      | none =>
        pick s room now
          { plan with
            dispatch := plan.dispatch ++ [⟨t.id, s.workerIdFor t now, t.footprint, score⟩] }
          rest

/-- The plan before the walk: nothing is started, and what claims block is put off. -/
def claimPlan (s : Snapshot) (now : Instant) : Plan :=
  ⟨[], s.tasks.filterMap (s.claimDeferral? now)⟩

/-- What to start and what to put off now, with the tasks ranked by some sorting routine; nothing
if that one gives up. -/
def selectBy (sort : Sorter) (s : Snapshot) (room : Option Nat) (now : Instant)
    (w : Config.Scoring) : Option Plan :=
  (sort.sort? outranks (s.scored now w)).map fun ranked =>
    s.pick room now (s.claimPlan now) ranked

/-- What to start and what to put off now, with the tasks ranked by insertion. -/
def select (s : Snapshot) (room : Option Nat) (now : Instant) (w : Config.Scoring) : Plan :=
  s.pick room now (s.claimPlan now) (s.ranked now w)

/-- The plan is one that selection can make, by some sorting routine. -/
def Plans (s : Snapshot) (room : Option Nat) (now : Instant) (w : Config.Scoring)
    (plan : Plan) : Prop :=
  ∃ sort : Sorter, s.selectBy sort room now w = some plan

/-- Insertion never gives up. -/
theorem selectBy_insertion (s : Snapshot) (room : Option Nat) (now : Instant)
    (w : Config.Scoring) : s.selectBy .insertion room now w = some (s.select room now w) := rfl

/-- Insertion makes a plan, whatever the scores and the identifiers are. -/
theorem plans_select (s : Snapshot) (room : Option Nat) (now : Instant) (w : Config.Scoring) :
    s.Plans room now w (s.select room now w) := ⟨.insertion, rfl⟩

end Snapshot
end Foreman
