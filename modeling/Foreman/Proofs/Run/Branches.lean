/-
# What becomes of finished branches

An outcome that is settled may yield a branch.  The loop keeps it in memory until it looks whether
it shall end, and offers it to the merger there, unless the run was asked to end: then it waits for
its workers, writes the documents and is over, and never comes by that place again.

The history of a run says which branches were yielded, which were offered, and which were yielded
after the last offer.  `Ledger` compares it with what the loop holds: nothing is in the queue but
the branches left over, and the summary names the tasks of all branches offered.

* `Desk.merge_isSome_iff`: which outcomes yield a branch.
* `Ledger.step`: every step keeps the ledger, whatever comes to the loop.
* `branches_accounted_iff`: so a run accounts for all its branches exactly if it leaves no task
  over, and only a run that was asked to end can leave one.

The place where branches are offered is at the top of a round, behind the test for a shutdown.
An end for another reason passes it first, since the last outcome was settled in an earlier
round.  A shutdown does not, and its workers may still succeed in the time they are given
(`shutdown_workers`); `interrupted_branch_lost` is such a run.
-/
import Foreman.Proofs.Coordinator.Settle
import Foreman.Proofs.Merge.Report
import Foreman.Run.Loop
import Mathlib.Data.List.Induction

namespace Foreman

/-! ## 1. Branches that are yielded

A branch comes with the effect of an outcome (`MergeCandidate`). -/

namespace Desk

/-- A flush gives the answer it was asked for, or a refusal. -/
theorem flushThen_reply (d : Desk) (now : Instant) (f : Faults) (reply : Reply) :
    (d.flushThen now f reply).reply = reply ∨
      ∃ failure, (d.flushThen now f reply).reply = .refused failure := by
  unfold flushThen
  split
  · exact Or.inl rfl
  · rename_i failure _ _ _
    exact Or.inr ⟨failure, rfl⟩

/-- **A branch is yielded exactly by a success with something to merge.** -/
theorem merge_isSome_iff {d : Desk} {c : DeskSettings} {now : Instant} {f : Faults}
    {workerId : String} {outcome : Outcome} {effect : Effect}
    (h : (d.handle c now f (.settle workerId outcome)).reply = .effect effect) :
    effect.merge.isSome = true ↔
      ∃ text sessionId elapsed, outcome = .succeeded text sessionId true elapsed := by
  have hend := State.settle_end d.state d.kanban workerId outcome c.retry now
  simp only [handle] at h
  generalize d.state.settle d.kanban workerId outcome c.retry now = r at hend h
  cases hend with
  | unknown | homeless => simp at h
  | settled w k' hw hset =>
    dsimp only at h
    rcases flushThen_reply _ now f (.effect _) with hreply | ⟨failure, hreply⟩
    · rw [hreply] at h
      cases h
      cases outcome with
      | succeeded text sessionId mergeable elapsed =>
        cases mergeable <;> simp [State.candidate?]
      | retryable | fatal | cancelled => simp [State.candidate?]
    · rw [hreply] at h
      cases h

end Desk

namespace Run

/-! ## 2. Branches in the history of a run

What the acts of a run say of branches, read off one act after the other. -/

namespace Act

/-- The branch that an outcome yields. -/
def yielded : Act → List Candidate
  | .told (.settle _ _) (.effect effect) => effect.merge.toList
  | _ => []

/-- The branches that are offered to the merger. -/
def branches : Act → List Candidate
  | .offered candidates _ => candidates
  | _ => []

/-- The act neither yields a branch nor offers any. -/
def Quiet : Act → Prop
  | .offered _ _ => False
  | act => act.yielded = []

/-- What is left over after an act, of what was left over before it. -/
def leave (left : List Candidate) : Act → List Candidate
  | .offered _ _ => []
  | act => left ++ act.yielded

@[simp] theorem quiet_stopped : Quiet stopped := rfl

/-- Only the settling of a result yields a branch. -/
@[simp] theorem quiet_told {command : Command} {reply : Reply}
    (h : ∀ workerId outcome, command ≠ .settle workerId outcome) :
    (told command reply).Quiet := by
  cases command with
  | settle workerId outcome => exact absurd rfl (h workerId outcome)
  | _ => rfl

theorem Quiet.leave {act : Act} (h : act.Quiet) (left : List Candidate) :
    act.leave left = left := by
  cases act with
  | offered => exact h.elim
  | told command reply =>
    have hnone : (told command reply).yielded = [] := h
    rw [Act.leave, hnone, List.append_nil]
    exact fun _ _ e => by cases e
  | stopped => exact List.append_nil left

theorem Quiet.branches {act : Act} (h : act.Quiet) : act.branches = [] := by
  cases act with
  | offered => exact h.elim
  | told | stopped => rfl

theorem Quiet.yielded {act : Act} (h : act.Quiet) : act.yielded = [] := by
  cases act with
  | offered => exact h.elim
  | told => exact h
  | stopped => rfl

end Act

/-- All branches that outcomes of a run yielded. -/
def yielded (acts : List Act) : List Candidate := acts.flatMap Act.yielded

/-- All branches that were offered to the merger. -/
def offered (acts : List Act) : List Candidate := acts.flatMap Act.branches

/-- The branches that were yielded after the last offer. -/
def leftOver (acts : List Act) : List Candidate := acts.foldl Act.leave []

section Histories

variable (acts more : List Act)

theorem yielded_append : yielded (acts ++ more) = yielded acts ++ yielded more :=
  List.flatMap_append

theorem offered_append : offered (acts ++ more) = offered acts ++ offered more :=
  List.flatMap_append

theorem leftOver_append_singleton (act : Act) :
    leftOver (acts ++ [act]) = act.leave (leftOver acts) := by
  rw [leftOver, List.foldl_append]
  rfl

variable {more}

theorem yielded_eq_nil (h : ∀ a ∈ more, a.Quiet) : yielded more = [] :=
  List.flatMap_eq_nil_iff.mpr fun a ha => (h a ha).yielded

theorem offered_eq_nil (h : ∀ a ∈ more, a.Quiet) : offered more = [] :=
  List.flatMap_eq_nil_iff.mpr fun a ha => (h a ha).branches

theorem leftOver_append_quiet (h : ∀ a ∈ more, a.Quiet) :
    leftOver (acts ++ more) = leftOver acts := by
  rw [leftOver, leftOver, List.foldl_append]
  generalize acts.foldl Act.leave [] = left
  induction more with
  | nil => rfl
  | cons a more ih =>
    rw [List.forall_mem_cons] at h
    rw [List.foldl_cons, h.1.leave]
    exact ih h.2

end Histories

/-- The tasks the summary names as merged or skipped. -/
def Summary.named (s : Summary) : List String := s.merged ++ s.skipped.map Prod.fst

/-! ## 3. Steps that leave branches alone

Most steps do; the two that do not are the merge and the settling of a result. -/

namespace Loop

variable {σ : Type} {t : Terms} {s : Surroundings σ} {l l' : Loop σ} {now : Instant}

/-- What a phase says about the branches that wait: past the place where they are merged there are
none, until the next outcome is settled. -/
def Fits (l : Loop σ) : Prop :=
  match l.phase with
  | .top | .draining _ _ | .flushing .shutdownRequested | .ended (.error _) => True
  | .ended (.ok summary) =>
    summary.merged = l.summary.merged ∧ summary.skipped = l.summary.skipped ∧
      (summary.halt ≠ .shutdownRequested → l.pending = [])
  | _ => l.pending = []

/-- A step that neither yields a branch nor merges one. -/
structure Idle (l : Loop σ) (r : Step σ) : Prop where
  pending : r.1.pending = l.pending
  merged : r.1.summary.merged = l.summary.merged
  skipped : r.1.summary.skipped = l.summary.skipped
  acts : ∀ a ∈ r.2, a.Quiet
  fits : r.1.Fits

theorem Idle.beginning (hp : l.pending = []) : Idle l (l.stepBeginning t s now) := by
  unfold stepBeginning tell
  dsimp only
  split
  · exact ⟨rfl, rfl, rfl, by simp, trivial⟩
  · exact ⟨rfl, rfl, rfl, by simp, hp⟩

theorem Idle.looking (hp : l.pending = []) (r : RateLimit) : Idle l (l.stepLooking t s now r) :=
  ⟨rfl, rfl, rfl, by simp [stepLooking, tell, Desk.handle], hp⟩

theorem Idle.deferring (hp : l.pending = []) (rest : List Deferral) (orders : List Order)
    (p : Pass) : Idle l (l.stepDeferring t s now rest orders p) := by
  cases rest with
  | nil => exact ⟨rfl, rfl, rfl, by simp [stepDeferring], hp⟩
  | cons d rest =>
    unfold stepDeferring tell
    dsimp only
    split
    · exact ⟨rfl, rfl, rfl, by simp, trivial⟩
    · exact ⟨rfl, rfl, rfl, by simp, hp⟩

/-- A pass that is over is followed by a sleep, a wait or the end of the run. -/
theorem fits_afterPass (hp : l.pending = []) (p : Pass) : (l.goTo (l.afterPass t p)).Fits := by
  unfold afterPass
  split
  · exact hp
  · split
    · exact hp
    · split <;> exact hp

theorem Idle.dispatching (hp : l.pending = []) (rest : List Order) (p : Pass) :
    Idle l (l.stepDispatching t s now rest p) := by
  cases rest with
  | nil => exact ⟨rfl, rfl, rfl, by simp [stepDispatching], fits_afterPass hp p⟩
  | cons o rest =>
    unfold stepDispatching tell
    dsimp only
    split
    · exact ⟨rfl, rfl, rfl, by simp, hp⟩
    · split
      · exact ⟨rfl, rfl, rfl, by simp, trivial⟩
      · exact ⟨rfl, rfl, rfl, by simp, hp⟩
    · exact ⟨rfl, rfl, rfl, by simp, hp⟩

theorem Idle.draining {first cause : Option Failure} (hphase : l.phase = .draining first cause) :
    Idle l (l.stepDraining first cause) := by
  have hfits : l.Fits := by rw [Fits, hphase]; trivial
  unfold stepDraining
  split
  · exact ⟨rfl, rfl, rfl, by simp, hfits⟩
  · split
    · exact ⟨rfl, rfl, rfl, by simp, trivial⟩
    · split
      · exact ⟨rfl, rfl, rfl, by simp, trivial⟩
      · exact ⟨rfl, rfl, rfl, by simp, trivial⟩
    · exact ⟨rfl, rfl, rfl, by simp, trivial⟩

/-- The run that ends brings its summary along. -/
theorem Idle.flushing {halt : Halt} (hp : halt ≠ .shutdownRequested → l.pending = []) :
    Idle l (l.stepFlushing t s now halt) := by
  unfold stepFlushing tell
  dsimp only
  split
  · exact ⟨rfl, rfl, rfl, by simp, trivial⟩
  · exact ⟨rfl, rfl, rfl, by simp, rfl, rfl, hp⟩

/-- A step that changes neither the phase nor the branches. -/
theorem Idle.same {r : Step σ} (hf : l.Fits) (hphase : r.1.phase = l.phase)
    (hpending : r.1.pending = l.pending) (hsummary : r.1.summary = l.summary)
    (hacts : ∀ a ∈ r.2, a.Quiet) : Idle l r := by
  refine ⟨hpending, congrArg Summary.merged hsummary, congrArg Summary.skipped hsummary, hacts, ?_⟩
  unfold Fits at hf ⊢
  rw [hphase, hpending, hsummary]
  exact hf

/-- A step to the top, which says nothing about the branches that wait. -/
theorem Idle.toTop : Idle l (l.goTo .top, []) := ⟨rfl, rfl, rfl, by simp, trivial⟩

/-- The account of an outcome puts its branch in the queue, and leaves what was merged alone. -/
theorem account_branches (l : Loop σ) (taskId : String) (outcome : Outcome) (effect : Effect)
    (hmerge : effect.merge.isSome = true ↔
      ∃ text sessionId elapsed, outcome = .succeeded text sessionId true elapsed) :
    (l.account taskId outcome effect).pending = l.pending ++ effect.merge.toList ∧
      (l.account taskId outcome effect).summary.merged = l.summary.merged ∧
      (l.account taskId outcome effect).summary.skipped = l.summary.skipped := by
  cases outcome with
  | succeeded => exact ⟨rfl, rfl, rfl⟩
  | retryable =>
    have hnone : effect.merge = none := by simpa using hmerge
    rw [hnone, Option.toList_none, List.append_nil]
    unfold account
    dsimp only
    split <;> exact ⟨rfl, rfl, rfl⟩
  | fatal | cancelled =>
    have hnone : effect.merge = none := by simpa using hmerge
    rw [hnone, Option.toList_none, List.append_nil]
    exact ⟨rfl, rfl, rfl⟩

/-- A step that settles a result: it tells the coordinator so, and puts the branch in the queue. -/
structure Settled (l l' : Loop σ) (acts : List Act) : Prop where
  told : ∃ command reply, acts = [.told command reply]
  pending : l'.pending = l.pending ++ yielded acts
  merged : l'.summary.merged = l.summary.merged
  skipped : l'.summary.skipped = l.summary.skipped

/-- To settle a result is to tell the coordinator, and to queue the branch. -/
theorem settle_settled (l : Loop σ) (t : Terms) (s : Surroundings σ) (f : Flight)
    (result : Except Failure Outcome) (now : Instant) :
    Settled l (l.settle t s f result now).2.1 (l.settle t s f result now).2.2 := by
  unfold settle tell
  dsimp only
  cases hreply : (l.desk.handle t.desk now (s.faults l.world)
      (.settle f.workerId (outcomeOf result))).reply with
  | effect effect =>
    have hyielded : yielded [.told (.settle f.workerId (outcomeOf result)) (.effect effect)] =
        effect.merge.toList := by simp [yielded, Act.yielded]
    dsimp only
    refine ⟨⟨_, _, rfl⟩, ?_, ?_, ?_⟩
    · rw [hyielded]
      exact (account_branches _ _ _ _ (Desk.merge_isSome_iff hreply)).1
    · exact (account_branches _ _ _ _ (Desk.merge_isSome_iff hreply)).2.1
    · exact (account_branches _ _ _ _ (Desk.merge_isSome_iff hreply)).2.2
  | _ =>
    refine ⟨⟨_, _, rfl⟩, ?_, rfl, rfl⟩
    simp [yielded, Act.yielded]

/-! ## 4. The ledger

The invariant, and its proof step by step. -/

/-- A run is one step longer with one event more. -/
theorem run_append_singleton (l : Loop σ) (t : Terms) (s : Surroundings σ)
    (events : List (Event σ)) (e : Event σ) :
    l.run t s (events ++ [e]) =
      (((l.run t s events).1.step t s e).1,
        (l.run t s events).2 ++ ((l.run t s events).1.step t s e).2) := by
  rw [Loop.run, List.foldl_append]
  rfl

/-- The loop at the beginning of a run. -/
def opened (world : σ) (desk : Desk) : Loop σ := { world := world, desk := desk }

/-- What the loop holds agrees with the history of the run. -/
structure Ledger (acts : List Act) (l : Loop σ) : Prop where
  /-- The branches left over wait in the queue. -/
  queue : l.pending = leftOver acts
  /-- All others were offered. -/
  total : yielded acts = offered acts ++ leftOver acts
  /-- The tasks of all branches offered are in the summary. -/
  named : (Summary.named l.summary).Perm ((offered acts).map Candidate.taskId)
  fits : l.Fits

namespace Ledger

variable {acts : List Act}

theorem opened (world : σ) (desk : Desk) : Ledger [] (Loop.opened world desk) :=
  ⟨rfl, rfl, List.Perm.refl _, trivial⟩

/-- A step that leaves branches alone keeps the ledger. -/
theorem idle (h : Ledger acts l) {r : Step σ} (hr : Idle l r) : Ledger (acts ++ r.2) r.1 := by
  refine ⟨?_, ?_, ?_, hr.fits⟩
  · rw [hr.pending, leftOver_append_quiet acts hr.acts, h.queue]
  · rw [yielded_append, yielded_eq_nil hr.acts, offered_append, offered_eq_nil hr.acts,
      leftOver_append_quiet acts hr.acts, List.append_nil, List.append_nil, h.total]
  · rw [Summary.named, hr.merged, hr.skipped, offered_append, offered_eq_nil hr.acts,
      List.append_nil]
    exact h.named

/-- **The merger takes all branches that wait**, and the summary names their tasks. -/
theorem merge (h : Ledger acts l) {m : Merger σ} (hm : s.merger = some m) :
    Ledger (acts ++ (l.merge s).2) ((l.merge s).1.goTo .beginning) := by
  cases hpending : l.pending with
  | nil =>
    have hmerge : l.merge s = (l, []) := by rw [Loop.merge, hpending]
    rw [hmerge, List.append_nil]
    exact ⟨h.queue, h.total, h.named, hpending⟩
  | cons c cs =>
    have hmerge : l.merge s =
        ({ l with
            world := (m.mergeAll l.pending l.world).2
            pending := []
            summary := { l.summary with
              merged := l.summary.merged ++ (m.mergeAll l.pending l.world).1.merged
              skipped := l.summary.skipped ++ (m.mergeAll l.pending l.world).1.skipped } },
          [.offered l.pending (m.mergeAll l.pending l.world).1]) := by
      rw [Loop.merge, hpending, hm]
    rw [hmerge]
    -- what waited is passed over whole, and the report names all of it
    have hreport := m.mergeAll_named l.pending l.world
    generalize (m.mergeAll l.pending l.world).1 = report at hreport
    refine ⟨?_, ?_, ?_, rfl⟩
    · rw [leftOver_append_singleton]
      rfl
    · rw [yielded_append, offered_append, leftOver_append_singleton, h.total, h.queue]
      simp [yielded, offered, Act.yielded, Act.branches, Act.leave]
    · rw [offered_append, List.map_append]
      have hnew : (offered [.offered l.pending report]).map Candidate.taskId =
          l.pending.map Candidate.taskId := by simp [offered, Act.branches]
      rw [hnew]
      refine List.Perm.trans ?_ (h.named.append hreport)
      simp only [Summary.named, MergeReport.named, List.map_append, List.append_assoc, goTo]
      exact (List.perm_append_comm_assoc _ _ _).append_left _

/-- **A result that is settled keeps the ledger**, wherever the loop goes on. -/
theorem settled (h : Ledger acts l) {new : List Act} (hs : Settled l l' new) {l'' : Loop σ}
    (hpending : l''.pending = l'.pending) (hsummary : l''.summary = l'.summary)
    (hfits : l''.Fits) : Ledger (acts ++ new) l'' := by
  obtain ⟨command, reply, rfl⟩ := hs.told
  have hleft : leftOver (acts ++ [.told command reply]) =
      leftOver acts ++ yielded [.told command reply] := by
    rw [leftOver_append_singleton]
    simp [Act.leave, yielded]
  have hoffered : offered (acts ++ [.told command reply]) = offered acts := by
    rw [offered_append]
    simp [offered, Act.branches]
  refine ⟨?_, ?_, ?_, hfits⟩
  · rw [hpending, hs.pending, hleft, h.queue]
  · rw [yielded_append, hoffered, hleft, h.total, List.append_assoc]
  · rw [hsummary, Summary.named, hs.merged, hs.skipped, hoffered]
    exact h.named

/-- The loop's own next step keeps the ledger. -/
theorem proceed (h : Ledger acts l) {m : Merger σ} (hm : s.merger = some m) (now : Instant)
    (r : RateLimit) : Ledger (acts ++ (l.proceed t s now r).2) (l.proceed t s now r).1 := by
  have hf := h.fits
  unfold Fits at hf
  unfold Loop.proceed
  cases hphase : l.phase with
  | top =>
    dsimp only
    unfold stepTop
    split
    · exact h.idle ⟨rfl, rfl, rfl, by simp, trivial⟩
    · exact h.merge hm
  | beginning =>
    rw [hphase] at hf
    exact h.idle (Idle.beginning hf)
  | looking =>
    rw [hphase] at hf
    exact h.idle (Idle.looking hf r)
  | deferring rest orders p =>
    rw [hphase] at hf
    exact h.idle (Idle.deferring hf rest orders p)
  | dispatching rest p =>
    rw [hphase] at hf
    exact h.idle (Idle.dispatching hf rest p)
  | sleeping => exact h.idle Idle.toTop
  | waiting =>
    dsimp only
    split
    · exact h.idle Idle.toTop
    · rwa [List.append_nil]
  | draining first cause => exact h.idle (Idle.draining hphase)
  | flushing halt =>
    rw [hphase] at hf
    refine h.idle (Idle.flushing fun hne => ?_)
    cases halt with
    | shutdownRequested => exact absurd rfl hne
    | idle | capReached => exact hf
  | ended => exact h.idle (Idle.same h.fits rfl rfl rfl (by simp))

/-- The result of a worker keeps the ledger, in whatever phase it comes. -/
theorem finished (h : Ledger acts l) (workerId : String) (result : Except Failure Outcome)
    (now : Instant) : Ledger (acts ++ (l.finished t s workerId result now).2)
      (l.finished t s workerId result now).1 := by
  unfold Loop.finished
  split
  · rename_i f _ _
    have hs := settle_settled l t s f result now
    generalize l.settle t s f result now = r at hs
    obtain ⟨failure?, l', new⟩ := r
    cases failure? with
    | none => exact h.settled hs rfl rfl trivial
    | some failure =>
      have hsettled : Ledger (acts ++ new) (l'.abort failure) := h.settled hs rfl rfl trivial
      have hstopped : Idle (l'.abort failure) (l'.abort failure, [.stopped]) :=
        Idle.same hsettled.fits rfl rfl rfl (by simp)
      have habort := hsettled.idle hstopped
      rw [List.append_assoc] at habort
      exact habort
  · rename_i f _ _
    have hs := settle_settled l t s f result now
    exact h.settled hs rfl rfl trivial
  · exact h.idle (Idle.same h.fits rfl rfl rfl (by simp))

/-- **Every step keeps the ledger**, whatever comes to the loop. -/
theorem step (h : Ledger acts l) {m : Merger σ} (hm : s.merger = some m) (e : Event σ) :
    Ledger (acts ++ (l.step t s e).2) (l.step t s e).1 := by
  cases e with
  | proceed now r => exact h.proceed hm now r
  | finished workerId result now => exact h.finished workerId result now
  | message message now =>
    refine h.idle (Idle.same h.fits rfl rfl rfl ?_)
    cases message <;> simp [Loop.step, Message.command]
  | cancel => exact h.idle (Idle.same h.fits rfl rfl rfl (by simp [Loop.step]))
  | graceOver =>
    simp only [Loop.step]
    split
    · refine h.idle (Idle.same h.fits rfl rfl rfl ?_)
      split <;> simp
    · exact h.idle (Idle.same h.fits rfl rfl rfl (by simp))
  | world => exact h.idle (Idle.same h.fits rfl rfl rfl (by simp [Loop.step]))

/-- **So does every run.** -/
theorem run (h : Ledger [] l) {m : Merger σ} (hm : s.merger = some m) (events : List (Event σ)) :
    Ledger (l.run t s events).2 (l.run t s events).1 := by
  induction events using List.reverseRecOn with
  | nil => exact h
  | append_singleton events e ih =>
    rw [run_append_singleton]
    exact ih.step hm e

end Ledger

end Loop

/-! ## 5. What a run accounts for

At the end of a run the ledger says which branches are left over. -/

/-- The summary names the task of the branch, as merged or as skipped. -/
def Summary.AccountsFor (s : Summary) (c : Candidate) : Prop :=
  c.taskId ∈ s.merged ∨ c.taskId ∈ s.skipped.map Prod.fst

theorem Summary.accountsFor_iff (s : Summary) (c : Candidate) :
    s.AccountsFor c ↔ c.taskId ∈ s.named := List.mem_append.symm

/-- **A run accounts for all its branches exactly if it leaves no task over.**  Of a run with a
merger that ends well, whatever came to it and in whatever order:

* the summary accounts for every branch that was yielded exactly if the task of each branch that
  was yielded after the last offer had another branch offered;
* if the run was not asked to end, no branch was yielded after the last offer. -/
theorem branches_accounted_iff {σ : Type} {t : Terms} {s : Surroundings σ} {m : Merger σ}
    (hm : s.merger = some m) (world : σ) (desk : Desk) (events : List (Event σ))
    {summary : Summary}
    (hended : ((Loop.opened world desk).run t s events).1.result? = some (.ok summary)) :
    ((∀ c ∈ yielded ((Loop.opened world desk).run t s events).2, summary.AccountsFor c) ↔
      ∀ c ∈ leftOver ((Loop.opened world desk).run t s events).2,
        ∃ d ∈ offered ((Loop.opened world desk).run t s events).2, d.taskId = c.taskId) ∧
    (summary.halt ≠ .shutdownRequested →
      leftOver ((Loop.opened world desk).run t s events).2 = []) := by
  have hledger := (Loop.Ledger.opened world desk).run (t := t) hm events
  generalize (Loop.opened world desk).run t s events = r at hledger hended
  obtain ⟨l, acts⟩ := r
  have hphase : l.phase = .ended (.ok summary) := by
    unfold Loop.result? at hended
    split at hended
    · rename_i result hphase
      cases hended
      exact hphase
    · cases hended
  -- the ledger at the end of the run: what was offered is named, what was not is left over
  have hfits := hledger.fits
  unfold Loop.Fits at hfits
  rw [hphase] at hfits
  obtain ⟨hmerged, hskipped, hdrained⟩ := hfits
  have hnamed : ∀ c : Candidate,
      summary.AccountsFor c ↔ ∃ d ∈ offered acts, d.taskId = c.taskId := by
    intro c
    rw [Summary.accountsFor_iff, Summary.named, hmerged, hskipped, ← List.mem_map]
    exact hledger.named.mem_iff
  refine ⟨?_, fun hhalt => hledger.queue.symm.trans (hdrained hhalt)⟩
  rw [hledger.total]
  simp only [hnamed]
  exact ⟨fun h c hc => h c (List.mem_append_right _ hc), fun h c hc =>
    (List.mem_append.mp hc).elim (fun hc => ⟨c, hc, rfl⟩) (h c)⟩

/-! ## 6. A branch that is merged, and one that is lost

In both runs one task is done.  The first ends by itself, and the second is interrupted with the
branch still waiting. -/

namespace Sample

def noon : Instant := ⟨20000, 43200, 0⟩

def desk : Desk where
  kanban := { tasks := [{ id := "T-1", footprint := ["src"] }] }
  state := {}

def terms : Terms where
  desk := ⟨"/wt", "mock", {}⟩
  limit := 1

/-- Every write succeeds, and so does every merge. -/
def surroundings : Surroundings (List String) where
  faults _ := {}
  carryOut calls _ := calls
  merger := some (Merger.scripted (fun _ => none) [])

def worker : String := "worker-T-1-1728043200"

def go : Event (List String) := .proceed noon .available

/-- The task is started, and the loop waits for its worker. -/
def started : List (Event (List String)) := [go, go, go, go, go, go]

def done : Event (List String) := .finished worker (.ok (.succeeded "done" none true ⟨0⟩)) noon

/-- The worker is done, its branch is merged, and nothing is left to do. -/
def undisturbed : List (Event (List String)) :=
  started ++ [done, go, go, go, go, go, go]

/-- The run is asked to end, and the worker is done in the time it is given. -/
def interrupted : List (Event (List String)) := started ++ [.cancel, go, go, done, go, go]

/-- The account of a run that was left alone. -/
def merged : Summary where
  dispatched := 1
  completed := ["T-1"]
  merged := ["T-1"]
  halt := .idle

/-- The account of a run that was asked to end: the task is completed, and its branch not named. -/
def silent : Summary where
  dispatched := 1
  completed := ["T-1"]
  halt := .shutdownRequested

/-- A run of the sample. -/
def play (events : List (Event (List String))) : Loop.Step (List String) :=
  (Loop.opened [] desk).run terms surroundings events

end Sample

/-- A run that is left alone merges its branch, and leaves none over. -/
theorem undisturbed_branch_accounted :
    Sample.surroundings.merger = some (Merger.scripted (fun _ => none) []) ∧
      (Sample.play Sample.undisturbed).1.result? = some (.ok Sample.merged) ∧
      (yielded (Sample.play Sample.undisturbed).2).map Candidate.taskId = ["T-1"] ∧
      leftOver (Sample.play Sample.undisturbed).2 = [] ∧
      ∀ c ∈ yielded (Sample.play Sample.undisturbed).2, Sample.merged.AccountsFor c := by
  have hended : (Sample.play Sample.undisturbed).1.result? = some (.ok Sample.merged) := by
    decide +kernel
  have haccounts := branches_accounted_iff rfl [] Sample.desk Sample.undisturbed hended
  have hnone : leftOver (Sample.play Sample.undisturbed).2 = [] := haccounts.2 (by decide)
  refine ⟨rfl, hended, by decide +kernel, hnone, haccounts.1.mpr fun c hc => ?_⟩
  exact absurd (hnone ▸ hc) List.not_mem_nil

/-- **A run that is asked to end can lose a branch.**  The worker is done in the time it is given
and its task is recorded as completed, but the run ends well without a word about its branch. -/
theorem interrupted_branch_lost :
    (Sample.play Sample.interrupted).1.result? = some (.ok Sample.silent) ∧
      (yielded (Sample.play Sample.interrupted).2).map Candidate.taskId = ["T-1"] ∧
      ∀ c ∈ yielded (Sample.play Sample.interrupted).2, ¬ Sample.silent.AccountsFor c := by
  refine ⟨by decide +kernel, by decide +kernel, fun c _ => ?_⟩
  simp [Summary.AccountsFor, Sample.silent]

end Run
end Foreman
