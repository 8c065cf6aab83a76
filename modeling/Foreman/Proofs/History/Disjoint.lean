/-
# Tasks in progress do not overlap

A claim is taken only if none of its patterns overlaps a claim that is held, and claims are held
in canonical spelling.  So claims of different workers never overlap, and with the accord of
`Foreman.Proofs.History.Accord` neither do the footprints of different tasks in progress.

Two notions of overlap have to meet for this.  The dispatch asks `find_conflict` about the
patterns as the backlog spells them, and the claims it compares them with were put into
canonical spelling by `claim`.  The backlog's patterns have to be free of blanks: only then does
a pattern collide with the same claims in its own spelling, in which it is checked, as in the
canonical one, in which it is held.  `Foreman.Proofs.Footprint.Stored` says what goes wrong with
a blank.

* `Books.claims_after`: a move drops claims, or adds those of one free footprint.
* `ClaimsApart.after`: so it keeps claims of different workers apart.
* `Accord.exists_holder`: a task in progress has a worker that holds all of its footprint.
* `in_progress_disjoint`: tasks in progress do not overlap.
-/
import Foreman.Proofs.History.Accord

namespace Foreman

/-! ## 1. What a move does to the claims

All that is needed of a move is on the claims alone: which are gone, and which are new. -/

theorem State.abandonAll_claims_subset (ws : List Worker) (s : State) :
    ∀ c ∈ (s.abandonAll ws).registry.claims, c ∈ s.registry.claims := by
  rw [abandonAll_claims]
  exact fun c hc => (List.mem_filter.mp hc).1

/-- The claims after a move are among those before it, or one free footprint of a task more. -/
theorem Books.claims_after (b : Books) (m : Move) :
    (∀ c ∈ (b.after m).state.registry.claims, c ∈ b.state.registry.claims) ∨
      ∃ task ∈ b.kanban.tasks, b.state.registry.findConflict task.footprint = none ∧
        ∃ workerId now, (b.after m).state.registry.claims =
          b.state.registry.claims ++ Registry.claimsFor task.footprint workerId task.id now := by
  have hquiet : m.Quiet → ∀ c ∈ (b.after m).state.registry.claims, c ∈ b.state.registry.claims :=
    fun hm c hc => (b.unmoved_after hm).claims ▸ hc
  cases m with
  | beginPass | defer | markRunning | recordSession => exact Or.inl (hquiet trivial)
  | dispatch o backend worktreeDir now =>
    have hend := State.dispatch_end b.state b.kanban o backend worktreeDir now
    simp only [after]
    generalize b.state.dispatch b.kanban o backend worktreeDir now = r at hend
    cases hend with
    | unknown | busy => exact Or.inl fun c hc => hc
    | blocked task held =>
      left
      rw [Registry.enqueue_claims]
      exact fun c hc => hc
    | started task k' hfind _ hfree _ =>
      exact Or.inr ⟨task, (Kanban.find?_mem hfind).1, hfree, _, now,
        congrArg Registry.claims (State.launched_registry ..)⟩
  | settle workerId outcome retry now =>
    left
    have hend := State.settle_end b.state b.kanban workerId outcome retry now
    simp only [after]
    generalize b.state.settle b.kanban workerId outcome retry now = r at hend
    cases hend with
    | unknown => exact fun c hc => hc
    | homeless | settled => exact fun c hc => (List.mem_filter.mp hc).1
  | reset taskId =>
    left
    cases hreset : b.state.reset b.kanban taskId with
    | error => simp only [after, hreset]; exact fun c hc => hc
    | ok r =>
      obtain ⟨t, -, -, -, hs⟩ := State.reset_eq_ok hreset
      simp only [after, hreset]
      rw [hs, State.forget_eq]
      exact State.abandonAll_claims_subset _ _
  | restart alive => exact Or.inl (State.abandonAll_claims_subset _ _)

/-! ## 2. Claims of different workers

The invariant, which is about the registry only.  That claims of one worker may overlap each
other does no harm. -/

/-- No pattern of the backlog holds a blank. -/
def Kanban.BlankFree (k : Kanban) : Prop :=
  ∀ t ∈ k.tasks, ∀ p ∈ t.footprint, Pattern.BlankFree p

instance (k : Kanban) : Decidable k.BlankFree :=
  inferInstanceAs (Decidable (∀ t ∈ k.tasks, ∀ p ∈ t.footprint, Pattern.BlankFree p))

/-- Patterns never change. -/
theorem Kanban.BlankFree.of_plainTasks_eq {k k' : Kanban} (h : k.BlankFree)
    (hplain : k'.plainTasks = k.plainTasks) : k'.BlankFree := by
  intro t ht p hp
  obtain ⟨u, hu, hut⟩ := exists_mem_of_plainTasks_eq hplain ht
  have hfoot : u.plain.footprint = t.plain.footprint := congrArg Task.footprint hut
  exact h u hu p (hfoot.symm ▸ hp)

/-- Claims of different workers do not overlap. -/
def ClaimsApart (r : Registry) : Prop :=
  ∀ c ∈ r.claims, ∀ d ∈ r.claims, c.workerId ≠ d.workerId →
    Pattern.intersects c.pattern d.pattern = false

/-- A pattern that no claim overlaps is overlapped by none in canonical spelling either. -/
theorem intersects_of_findConflict_eq_none {r : Registry} {footprint : List String}
    (hfree : r.findConflict footprint = none) {p : String} (hp : p ∈ footprint)
    (hblank : Pattern.BlankFree p) {c : Claim} (hc : c ∈ r.claims) :
    Pattern.intersects c.pattern (Pattern.normalize p) = false := by
  rw [Pattern.intersects_normalize_right _ hblank, Pattern.intersects_comm]
  exact Registry.conflictAmong_eq_none_iff.mp hfree p hp c hc

/-- **Every move keeps claims of different workers apart.** -/
theorem ClaimsApart.after {b : Books} (h : ClaimsApart b.state.registry)
    (hblank : b.kanban.BlankFree) (m : Move) : ClaimsApart (b.after m).state.registry := by
  rcases b.claims_after m with hsub | ⟨task, htask, hfree, workerId, now, hclaims⟩
  · exact fun c hc d hd => h c (hsub c hc) d (hsub d hd)
  · intro c hc d hd hne
    rw [hclaims, List.mem_append, Registry.mem_claimsFor] at hc hd
    rcases hc with hc | ⟨p, hp, rfl⟩ <;> rcases hd with hd | ⟨q, hq, rfl⟩
    · exact h c hc d hd hne
    · exact intersects_of_findConflict_eq_none hfree hq (hblank task htask q hq) hc
    · rw [Pattern.intersects_comm]
      exact intersects_of_findConflict_eq_none hfree hp (hblank task htask p hp) hd
    · exact absurd rfl hne

/-- Claims of different workers do not overlap in reachable documents. -/
theorem Reachable.claimsApart {k : Kanban} {b : Books} (h : Reachable k b)
    (hblank : k.BlankFree) : ClaimsApart b.state.registry := by
  have hboth := h.invariant
    (P := fun b => b.kanban.plainTasks = k.plainTasks ∧ ClaimsApart b.state.registry)
    (fun alive => ⟨Books.plainTasks_after ⟨{}, k⟩ _,
      ClaimsApart.after (b := ⟨{}, k⟩) (fun c hc => absurd hc List.not_mem_nil) hblank _⟩)
    (fun c m ih _ => ⟨(c.plainTasks_after m).trans ih.1,
      ih.2.after (hblank.of_plainTasks_eq ih.1) m⟩)
  exact hboth.2

/-! ## 3. Tasks in progress

From claims back to tasks.  Two different tasks have different workers, and their claims are
apart. -/

/-- A task in progress has a worker that holds every pattern of its footprint. -/
theorem Accord.exists_holder {b : Books} (h : Accord b) {t : Task} (ht : t ∈ b.kanban.tasks)
    (hprogress : t.status = .inProgress) :
    ∃ w ∈ b.state.workers, w.taskId = t.id ∧ ∀ p ∈ t.footprint,
      ∃ c ∈ b.state.registry.claims, c.workerId = w.id ∧ c.pattern = Pattern.normalize p := by
  obtain ⟨w, hw, hwt, hact⟩ := State.hasActiveWorker_iff.mp ((h.status t ht).mp hprogress)
  refine ⟨w, hw, hwt, fun p hp => ?_⟩
  have hholds := h.tidy.holds w hw
  rw [hact, if_pos rfl, hwt,
    Kanban.footprintOf_eq ((Kanban.find?_eq_some_iff h.distinct).mpr ⟨ht, rfl⟩)] at hholds
  have hmem : (⟨w.id, t.id, Pattern.normalize p⟩ : ClaimRef) ∈
      (b.state.registry.claimsOf w.id).map Claim.ref := by
    rw [hholds]
    exact List.mem_map_of_mem hp
  obtain ⟨c, hc, href⟩ := List.mem_map.mp hmem
  obtain ⟨hc, hcw⟩ := Registry.mem_claimsOf.mp hc
  exact ⟨c, hc, hcw, congrArg ClaimRef.pattern href⟩

/-- **Tasks in progress do not overlap.**  In all documents that come about from a backlog with
distinct identifiers and patterns without blanks, no two tasks in progress have footprints that
meet. -/
theorem in_progress_disjoint {k : Kanban} {b : Books} (hids : k.HasDistinctIds)
    (hblank : k.BlankFree) (h : Reachable k b) {t u : Task} (ht : t ∈ b.kanban.tasks)
    (hu : u ∈ b.kanban.tasks) (hne : t ≠ u) (htp : t.status = .inProgress)
    (hup : u.status = .inProgress) :
    Footprint.intersection? t.footprint u.footprint = none := by
  have hacc := h.accord hids
  have hblank' : b.kanban.BlankFree := hblank.of_plainTasks_eq h.plainTasks_eq
  obtain ⟨v, hv, hvt, hvholds⟩ := hacc.exists_holder ht htp
  obtain ⟨w, hw, hwu, hwholds⟩ := hacc.exists_holder hu hup
  have hvw : v.id ≠ w.id := by
    intro hid
    have heq : v = w := List.inj_on_of_nodup_map hacc.tidy.distinct hv hw hid
    refine hne (List.inj_on_of_nodup_map hacc.distinct ht hu ?_)
    rw [← hvt, ← hwu, heq]
  rw [Footprint.intersection?_eq_none_iff]
  intro p hp q hq
  obtain ⟨c, hc, hcv, hcp⟩ := hvholds p hp
  obtain ⟨d, hd, hdw, hdq⟩ := hwholds q hq
  have hapart := h.claimsApart hblank c hc d hd (by rw [hcv, hdw]; exact hvw)
  rw [hcp, hdq, Pattern.intersects_normalize_right _ (hblank' u hu q hq), Pattern.intersects_comm,
    Pattern.intersects_normalize_right _ (hblank' t ht p hp), Pattern.intersects_comm] at hapart
  exact hapart

theorem Sample.board_blankFree : board.BlankFree := by decide +kernel

/-- The two tasks of a backlog that are in progress at one time. -/
theorem busy_disjoint :
    ∃ t ∈ Sample.busy.kanban.tasks, ∃ u ∈ Sample.busy.kanban.tasks,
      Sample.board.HasDistinctIds ∧ Sample.board.BlankFree ∧ Reachable Sample.board Sample.busy ∧
      t ≠ u ∧ t.status = .inProgress ∧ u.status = .inProgress ∧
      Footprint.intersection? t.footprint u.footprint = none := by
  let t : Task := { id := "T-1", status := .inProgress, footprint := ["./src/"] }
  let u : Task := { id := "T-2", status := .inProgress, footprint := ["docs/**", "README.md"] }
  have ht : t ∈ Sample.busy.kanban.tasks := by decide +kernel
  have hu : u ∈ Sample.busy.kanban.tasks := by decide +kernel
  exact ⟨t, ht, u, hu, Sample.board_hasDistinctIds, Sample.board_blankFree, Sample.busy_reachable,
    by decide, rfl, rfl, in_progress_disjoint Sample.board_hasDistinctIds Sample.board_blankFree
      Sample.busy_reachable ht hu (by decide) rfl rfl⟩

end Foreman
