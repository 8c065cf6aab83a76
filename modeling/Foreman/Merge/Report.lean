/-
# Merging all candidates

Each candidate is offered to a merger in the order of merges (`merge_all`).  One that fails is
skipped with the reason, and the others still merge.  A clean-up that fails after an integration
is only logged.  What a merger answers may depend on all it did before, so it carries a world of
its own along.

The order comes from a sorting routine, and so does the one way in which nothing is merged at
all: if the routine gives up, the merger is asked nothing (`mergeAllBy`).
-/
import Foreman.Merge.Order

namespace Foreman

/-- Integrates branches into the trunk; `σ` is the world it acts on. -/
structure Merger (σ : Type) where
  integrate : Candidate → σ → Except String Unit × σ
  /-- Called after an integration that succeeded. -/
  cleanup : Candidate → σ → Except String Unit × σ

/-- What became of the candidates, in the order in which they were offered. -/
structure MergeReport where
  merged : List String := []
  /-- The tasks left out, with the reasons. -/
  skipped : List (String × String) := []
deriving DecidableEq, Repr, Inhabited

namespace Merger

variable {σ : Type}

/-- Merges the candidates in the order given, each in the world the ones before it left. -/
def mergeEach (m : Merger σ) : List Candidate → σ → MergeReport × σ
  | [], w => ({}, w)
  | c :: rest, w =>
    match m.integrate c w with
    | (.ok (), w) =>
      let (_, w) := m.cleanup c w
      let (report, w) := mergeEach m rest w
      ({ report with merged := c.taskId :: report.merged }, w)
    | (.error reason, w) =>
      let (report, w) := mergeEach m rest w
      ({ report with skipped := (c.taskId, reason) :: report.skipped }, w)

/-- Merges all candidates in the order of merges.  If the sorting routine gives up, the merger is
asked nothing and there is no report. -/
def mergeAllBy (sort : Sorter) (m : Merger σ) (cands : List Candidate) (w : σ) :
    Option MergeReport × σ :=
  match Candidate.mergeOrderBy sort cands with
  | some order =>
    let (report, w) := m.mergeEach order w
    (some report, w)
  | none => (none, w)

/-- Merges all candidates in the order of merges, sorted by insertion. -/
def mergeAll (m : Merger σ) (cands : List Candidate) (w : σ) : MergeReport × σ :=
  m.mergeEach (Candidate.mergeOrder cands) w

/-- The merger on a part of a larger world. -/
def within {τ : Type} (m : Merger σ) (get : τ → σ) (set : τ → σ → τ) : Merger τ where
  integrate c w := let (result, part) := m.integrate c (get w); (result, set w part)
  cleanup c w := let (result, part) := m.cleanup c (get w); (result, set w part)

/-- A merger that only notes what it is asked for, and fails for some tasks.  It stands in for
git where a run is rehearsed. -/
def scripted (fail : String → Option String) (cleanupFail : List String) :
    Merger (List String) where
  integrate c calls :=
    let calls := calls ++ ["integrate " ++ c.taskId]
    match fail c.taskId with
    | some reason => (.error reason, calls)
    | none => (.ok (), calls)
  cleanup c calls :=
    let calls := calls ++ ["cleanup " ++ c.taskId]
    (if c.taskId ∈ cleanupFail then .error "cleanup failed" else .ok (), calls)

end Merger
end Foreman
