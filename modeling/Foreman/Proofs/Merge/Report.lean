/-
# What a merger is asked, and what is reported of it

A merger answers as it likes, and an answer may depend on all that it was asked before.  So its
calls cannot be told from its answers; they have to be written down.  `Merger.recording` is the
merger with a notebook, in which every call stands with its answer.

What stands in the notebook in the end is made of rounds, one for each candidate: its integration,
and right behind it the cleanup, if the integration succeeded.

* `mergeEach_in_step`: mergers that answer the same to every integration give the same report, so a
  notebook changes nothing, and what a cleanup answers makes no difference.
* `mergeEach_rounds`: the calls are made round by round, and give the report.
* `Rounds.cleaned`: a cleanup stands right behind an integration that succeeded, and nowhere else.
* `Rounds.named`: the report names the tasks of the candidates, each as often.
* `mergeAll_accounts`: all of it, for the candidates in the order of merges, by whatever routine
  they are sorted.  One that gives up does so before the merger is asked anything.

The merger is any pair of functions on a world (`Merger`), and the one that works with git is a
case of it.  `merge_all` offers it the candidates in the order of merges.  A cleanup that fails
is passed over: the branch is merged, and what is left of its worktree does no harm.
-/
import Foreman.Merge.Report
import Foreman.Proofs.Merge.Order

namespace Foreman

/-- The tasks a report names. -/
def MergeReport.named (r : MergeReport) : List String := r.merged ++ r.skipped.map Prod.fst

namespace Merger

/-! ## 1. The notebook

A merger with a notebook keeps in step with the one without, so nothing is lost by looking at
it. -/

/-- A call of a merger, with its answer. -/
inductive Call where
  | integrate (c : Candidate) (answer : Except String Unit)
  | cleanup (c : Candidate) (answer : Except String Unit)

namespace Call

/-- The candidate that is to be integrated. -/
def offered? : Call → Option Candidate
  | .integrate c _ => some c
  | .cleanup _ _ => none

/-- The task whose integration succeeded. -/
def merged? : Call → Option String
  | .integrate c (.ok ()) => some c.taskId
  | _ => none

/-- The task whose integration failed, with the reason. -/
def skipped? : Call → Option (String × String)
  | .integrate c (.error reason) => some (c.taskId, reason)
  | _ => none

end Call

variable {σ : Type} (m : Merger σ)

/-- The merger that writes down what it is asked, and what it answers. -/
def recording : Merger (σ × List Call) where
  integrate c w :=
    let (answer, world) := m.integrate c w.1
    (answer, world, w.2 ++ [.integrate c answer])
  cleanup c w :=
    let (answer, world) := m.cleanup c w.1
    (answer, world, w.2 ++ [.cleanup c answer])

/-- The merger that does the same, but answers to a cleanup with something else. -/
def answering (answers : Candidate → σ → Except String Unit) : Merger σ :=
  { m with cleanup := fun c w => (answers c w, (m.cleanup c w).2) }

/-- **Two mergers that keep in step give the same report.**  They do if they answer the same to
every integration; what they answer to a cleanup makes no difference. -/
theorem mergeEach_in_step {τ : Type} {m : Merger σ} {n : Merger τ} {f : τ → σ}
    (hintegrate : ∀ c w, m.integrate c (f w) = ((n.integrate c w).1, f (n.integrate c w).2))
    (hcleanup : ∀ c w, (m.cleanup c (f w)).2 = f (n.cleanup c w).2)
    (cands : List Candidate) (w : τ) :
    m.mergeEach cands (f w) = ((n.mergeEach cands w).1, f (n.mergeEach cands w).2) := by
  induction cands generalizing w with
  | nil => rfl
  | cons c rest ih =>
    rw [mergeEach, mergeEach, hintegrate]
    cases n.integrate c w with
    | mk answer next =>
      cases answer with
      | ok _ => simp only [hcleanup, ih]
      | error reason => simp only [ih]

/-- To write down the calls changes nothing. -/
theorem mergeEach_recording (cands : List Candidate) (w : σ × List Call) :
    m.mergeEach cands w.1 =
      ((m.recording.mergeEach cands w).1, (m.recording.mergeEach cands w).2.1) :=
  mergeEach_in_step (n := m.recording) (f := Prod.fst) (fun _ _ => rfl) (fun _ _ => rfl) _ w

/-- **Nobody asks what a cleanup answered.** -/
theorem mergeEach_answering (answers : Candidate → σ → Except String Unit)
    (cands : List Candidate) (w : σ) :
    (m.answering answers).mergeEach cands w = m.mergeEach cands w :=
  mergeEach_in_step (m := m.answering answers) (n := m) (f := id) (fun _ _ => rfl)
    (fun _ _ => rfl) _ w

/-! ## 2. Rounds

The calls as a relation to the candidates and the report, by the loop that makes them. -/

/-- The calls for some candidates, round by round, and the report that comes of them. -/
inductive Rounds : List Candidate → List Call → MergeReport → Prop
  | none : Rounds [] [] {}
  | merged {cands : List Candidate} {calls : List Call} {report : MergeReport} (c : Candidate)
      (answer : Except String Unit) : Rounds cands calls report →
      Rounds (c :: cands) (.integrate c (.ok ()) :: .cleanup c answer :: calls)
        { report with merged := c.taskId :: report.merged }
  | skipped {cands : List Candidate} {calls : List Call} {report : MergeReport} (c : Candidate)
      (reason : String) : Rounds cands calls report →
      Rounds (c :: cands) (.integrate c (.error reason) :: calls)
        { report with skipped := (c.taskId, reason) :: report.skipped }

/-- **The calls are made round by round.** -/
theorem mergeEach_rounds (cands : List Candidate) (w : σ) (before : List Call) :
    ∃ calls, (m.recording.mergeEach cands (w, before)).2.2 = before ++ calls ∧
      Rounds cands calls (m.recording.mergeEach cands (w, before)).1 := by
  induction cands generalizing w before with
  | nil => exact ⟨[], (List.append_nil _).symm, .none⟩
  | cons c rest ih =>
    cases hanswer : m.integrate c w with
    | mk answer next =>
      cases answer with
      | ok _ =>
        cases hcleanup : m.cleanup c next with
        | mk cleaned after =>
          obtain ⟨calls, hcalls, hrounds⟩ :=
            ih after (before ++ [.integrate c (.ok ())] ++ [.cleanup c cleaned])
          simp only [mergeEach, recording, hanswer, hcleanup] at hcalls hrounds ⊢
          exact ⟨_, by rw [hcalls]; simp, .merged c cleaned hrounds⟩
      | error reason =>
        obtain ⟨calls, hcalls, hrounds⟩ := ih next (before ++ [.integrate c (.error reason)])
        simp only [mergeEach, recording, hanswer] at hcalls hrounds ⊢
        exact ⟨_, by rw [hcalls]; simp, .skipped c reason hrounds⟩

/-- The rounds for some candidates, and the report that comes of them. -/
theorem rounds_mergeEach (cands : List Candidate) (w : σ) :
    Rounds cands (m.recording.mergeEach cands (w, [])).2.2 (m.mergeEach cands w).1 := by
  obtain ⟨calls, hcalls, hrounds⟩ := m.mergeEach_rounds cands w []
  rw [m.mergeEach_recording cands (w, []), hcalls]
  exact hrounds

/-! ## 3. What rounds say of the calls and of the report

Each statement by induction over the rounds. -/

namespace Rounds

variable {cands : List Candidate} {calls : List Call} {report : MergeReport}

/-- The candidates are offered in their order. -/
theorem offered (h : Rounds cands calls report) : calls.filterMap Call.offered? = cands := by
  induction h with
  | none => rfl
  | merged c _ _ ih => simp [List.filterMap_cons, Call.offered?, ih]
  | skipped c _ _ ih => simp [Call.offered?, ih]

/-- The report has the tasks whose integration succeeded. -/
theorem merged_eq (h : Rounds cands calls report) :
    report.merged = calls.filterMap Call.merged? := by
  induction h with
  | none => rfl
  | merged c _ _ ih => simp [List.filterMap_cons, Call.merged?, ih]
  | skipped c _ _ ih => simp [List.filterMap_cons, Call.merged?, ih]

/-- The report has the others, with the reasons. -/
theorem skipped_eq (h : Rounds cands calls report) :
    report.skipped = calls.filterMap Call.skipped? := by
  induction h with
  | none => rfl
  | merged c _ _ ih => simp [List.filterMap_cons, Call.skipped?, ih]
  | skipped c _ _ ih => simp [Call.skipped?, ih]

/-- Each task is named as often as it was offered. -/
theorem named (h : Rounds cands calls report) :
    report.named.Perm (cands.map Candidate.taskId) := by
  induction h with
  | none => exact .nil
  | merged c _ _ ih => exact ih.cons c.taskId
  | skipped c _ _ ih => exact List.perm_middle.trans (ih.cons c.taskId)

/-- No round starts with a cleanup. -/
theorem first (h : Rounds cands calls report) (c : Candidate) (answer : Except String Unit) :
    calls[0]? ≠ some (.cleanup c answer) := by
  cases h <;> simp

/-- **A cleanup stands right behind an integration that succeeded**, and nowhere else. -/
theorem cleaned (h : Rounds cands calls report) (i : Nat) (c : Candidate) :
    (∃ answer, calls[i + 1]? = some (.cleanup c answer)) ↔
      calls[i]? = some (.integrate c (.ok ())) := by
  induction h generalizing i with
  | none => simp
  | merged c' answer hrest ih =>
    match i with
    | 0 => simp [eq_comm]
    | 1 => simp [hrest.first]
    | i + 2 => exact ih i
  | skipped c' reason hrest ih =>
    match i with
    | 0 => simp [hrest.first]
    | i + 1 => exact ih i

end Rounds

/-- The tasks of a report are those of the candidates, each as often. -/
theorem mergeAll_named (cands : List Candidate) (w : σ) :
    (m.mergeAll cands w).1.named.Perm (cands.map Candidate.taskId) :=
  (m.rounds_mergeEach _ w).named.trans ((Candidate.mergeOrder_perm cands).map Candidate.taskId)

/-! ## 4. All candidates

From the loop over a list to the candidates in the order of merges. -/

/-- The calls of a merger account for the candidates and give the report: each candidate is
integrated once, in the order of merges; a cleanup follows at once after every integration that
succeeded, and stands nowhere else; and the report says what became of each, in the order of the
calls. -/
structure Accounts (sort : Sorter) (cands : List Candidate) (calls : List Call)
    (report : MergeReport) : Prop where
  offered : Candidate.mergeOrderBy sort cands = some (calls.filterMap Call.offered?)
  each : (calls.filterMap Call.offered?).Perm cands
  first : ∀ c answer, calls[0]? ≠ some (.cleanup c answer)
  cleaned : ∀ i c, (∃ answer, calls[i + 1]? = some (.cleanup c answer)) ↔
    calls[i]? = some (.integrate c (.ok ()))
  merged : report.merged = calls.filterMap Call.merged?
  skipped : report.skipped = calls.filterMap Call.skipped?
  named : report.named.Perm (cands.map Candidate.taskId)

theorem Rounds.accounts {sort : Sorter} {cands order : List Candidate} {calls : List Call}
    {report : MergeReport} (h : Rounds order calls report)
    (horder : Candidate.mergeOrderBy sort cands = some order) :
    Accounts sort cands calls report where
  offered := horder.trans (congrArg some h.offered.symm)
  each := h.offered ▸ (Candidate.mergeOrderBy_eq_some horder).1
  first := h.first
  cleaned := h.cleaned
  merged := h.merged_eq
  skipped := h.skipped_eq
  named := h.named.trans ((Candidate.mergeOrderBy_eq_some horder).1.map Candidate.taskId)

/-- A merger that is given an order goes through it. -/
theorem mergeAllBy_of_some {sort : Sorter} {cands order : List Candidate}
    (h : Candidate.mergeOrderBy sort cands = some order) (w : σ) :
    m.mergeAllBy sort cands w = (some (m.mergeEach order w).1, (m.mergeEach order w).2) := by
  rw [mergeAllBy, h]

/-- One that is given none is asked nothing. -/
theorem mergeAllBy_of_none {sort : Sorter} {cands : List Candidate}
    (h : Candidate.mergeOrderBy sort cands = none) (w : σ) :
    m.mergeAllBy sort cands w = (none, w) := by
  rw [mergeAllBy, h]

/-- **To merge all is to account for every candidate**, whatever the merger answers, whatever its
answers depend on, and whatever routine has sorted the candidates.  The notebook changes nothing,
what stands in it accounts for the candidates, and it would all be the same if the cleanups had
answered otherwise.

There is a report unless identifiers stand in a circle at one instant.  Where the sorting routine
gives up for that reason, nothing was asked and nothing has happened. -/
theorem mergeAll_accounts (sort : Sorter) (cands : List Candidate) (w : σ) :
    match m.recording.mergeAllBy sort cands (w, []) with
    | (some report, after, calls) =>
      m.mergeAllBy sort cands w = (some report, after) ∧ Accounts sort cands calls report ∧
        ∀ answers, (m.answering answers).mergeAllBy sort cands w = (some report, after)
    | (none, after, calls) =>
      m.mergeAllBy sort cands w = (none, after) ∧ after = w ∧ calls = [] ∧
        Candidate.Circles cands := by
  cases horder : Candidate.mergeOrderBy sort cands with
  | none =>
    rw [m.recording.mergeAllBy_of_none horder]
    refine ⟨m.mergeAllBy_of_none horder w, rfl, rfl, ?_⟩
    by_contra hcircles
    cases horder.symm.trans (Candidate.mergeOrderBy_eq sort hcircles)
  | some order =>
    have hsame := m.mergeEach_recording order (w, [])
    have hrounds := m.rounds_mergeEach order w
    rw [m.recording.mergeAllBy_of_some horder]
    dsimp only at hsame ⊢
    rw [hsame] at hrounds
    refine ⟨?_, hrounds.accounts horder, fun answers => ?_⟩
    · rw [m.mergeAllBy_of_some horder, hsame]
    · rw [(m.answering answers).mergeAllBy_of_some horder, m.mergeEach_answering, hsame]

end Merger
end Foreman
