/-
# The order of merges

Two candidates that touch a common directory are neighbours, and a group is what can be reached
from a candidate by going from neighbour to neighbour.  The candidates are sorted by completion
first, so the root of a group, its smallest position, is its earliest candidate; and to list the
groups by their roots is to list them by their earliest completion.

* `Knows.touch`, `sameGroup_iff_root`: the forest has one root for each group, however late a
  candidate joins two groups.
* `isOrderOn_completesBefore_iff`: completion is an order of the candidates unless identifiers stand
  in a circle at one instant; with distinct times they cannot.
* `positions_pairwise`: the candidates are listed by the root of their group and then by position.
* `arrange_perm`, `arrange_together`: no candidate is lost, none is added and groups stay together,
  whatever the sorting routine has made of the candidates.
* `arrange_isGrouped`: if it has put them in the order of completion, the groups stand in the order
  of their earliest completion, and each is in the order of completion.
* `mergeOrder_eq_of_perm`: with distinct times the order does not depend on how the candidates come.
* `mergeOrder_groups`: all of it at once, for every sorting routine.

The order is made in two stages, as `order_merges` has it: the candidates are sorted by
completion, and the sorted ones are arranged by groups.  Only the first stage needs the
comparison to be an order.  So what the second stage sees to, that no candidate is lost and no
group is split, is proved for whatever list comes to it, and holds of whatever the sorting
routine has made of the candidates; what rests on their order is proved where there is one.
-/
import Foreman.Merge.Order
import Foreman.Proofs.Distinct
import Foreman.Proofs.Merge.Forest
import Foreman.Proofs.Table
import Foreman.Proofs.Task.NaturalOrder
import Foreman.Proofs.Time.Instant
import Mathlib.Data.List.NodupEquivFin
import Mathlib.Logic.Relation

namespace Foreman

/-! ## 1. Sorted by completion

When the comparison is an order of the candidates, and what sorting then comes to. -/

namespace Candidate

variable {cands : List Candidate}

theorem completesBefore_iff {a b : Candidate} : completesBefore a b = true ↔
    a.completedAt.before b.completedAt = true ∨
      a.completedAt = b.completedAt ∧ TaskId.order a.taskId b.taskId = .lt := by
  unfold completesBefore Instant.order
  split
  · rename_i hbefore
    simp [hbefore]
  · rename_i hnot
    split
    · rename_i hafter
      have hne : a.completedAt ≠ b.completedAt := by
        intro heq
        rw [heq] at hnot hafter
        exact hnot hafter
      simp [hnot, hne]
    · rename_i hnot'
      have heq : a.completedAt = b.completedAt :=
        Instant.NotAfter.antisymm (Bool.eq_false_iff.mpr hnot') (Bool.eq_false_iff.mpr hnot)
      rw [heq] at hnot
      simp [hnot, heq]

/-- At one time the identifiers decide. -/
theorem completesBefore_iff_of_eq {a b : Candidate} (h : a.completedAt = b.completedAt) :
    completesBefore a b = true ↔ TaskId.order b.taskId a.taskId = .gt := by
  have hsame : a.completedAt.before b.completedAt = false := by
    rw [h]
    exact Instant.NotAfter.refl _
  rw [completesBefore_iff, hsame, TaskId.order_gt_iff]
  simp [h]

theorem notAfter_of_completesBefore {a b : Candidate} (h : completesBefore a b = true) :
    a.completedAt.NotAfter b.completedAt := by
  rcases completesBefore_iff.mp h with hbefore | ⟨heq, -⟩
  · exact Instant.notAfter_of_before hbefore
  · rw [heq]
    exact Instant.NotAfter.refl _

theorem notAfter_of_not_completesBefore {a b : Candidate} (h : completesBefore a b = false) :
    b.completedAt.NotAfter a.completedAt := by
  refine Bool.eq_false_iff.mpr fun hbefore => ?_
  cases h.symm.trans (completesBefore_iff.mpr (.inl hbefore))

theorem completesBefore_asymm {a b : Candidate} (h : completesBefore a b = true) :
    completesBefore b a = false := by
  refine Bool.eq_false_iff.mpr fun hba => ?_
  have heq : a.completedAt = b.completedAt :=
    (notAfter_of_completesBefore h).antisymm (notAfter_of_completesBefore hba)
  have hgt := (completesBefore_iff_of_eq heq).mp h
  have hlt := TaskId.order_gt_iff.mp ((completesBefore_iff_of_eq heq.symm).mp hba)
  cases hlt.symm.trans hgt

/-- The times do not fall. -/
def Ascending (cands : List Candidate) : Prop :=
  cands.Pairwise fun a b => a.completedAt.NotAfter b.completedAt

/-- The candidates sorted by completion. -/
def sorted (cands : List Candidate) : List Candidate := sortBy completesBefore cands

/-- The times do not fall, however the identifiers at one time compare. -/
theorem sorted_ascending (cands : List Candidate) : Ascending (sorted cands) :=
  sortBy_pairwise (fun _ _ _ _ _ _ hab hbc => hab.trans hbc)
    (fun _ _ _ _ => notAfter_of_completesBefore) (fun _ _ _ _ => notAfter_of_not_completesBefore)

theorem Ascending.notAfter (h : Ascending cands) {i j : Fin cands.length} (hij : i ≤ j) :
    (cands.get i).completedAt.NotAfter (cands.get j).completedAt := by
  rcases Nat.lt_or_eq_of_le hij with hlt | heq
  · exact List.pairwise_iff_get.mp h i j hlt
  · rw [Fin.ext heq]
    exact Instant.NotAfter.refl _

/-- Three candidates of one instant, whose identifiers stand in a circle. -/
def Circles (cands : List Candidate) : Prop :=
  ∃ a ∈ cands, ∃ b ∈ cands, ∃ c ∈ cands,
    a.completedAt = b.completedAt ∧ b.completedAt = c.completedAt ∧
      TaskId.Wedged a.taskId b.taskId c.taskId

/-- **Completion is an order of the candidates, but for circles**: times are ordered, and so are
the identifiers at one time unless one is wedged between two others. -/
theorem isOrderOn_completesBefore_iff : IsOrderOn completesBefore cands ↔ ¬ Circles cands := by
  constructor
  · rintro h ⟨a, ha, b, hb, c, hc, hab, hbc, hwedged⟩
    obtain ⟨hle, hle', hgt⟩ := TaskId.inCircle_iff_not_trans.mp hwedged.inCircle
    have hba : completesBefore b a = false :=
      Bool.eq_false_iff.mpr (mt (completesBefore_iff_of_eq hab.symm).mp hle)
    have hcb : completesBefore c b = false :=
      Bool.eq_false_iff.mpr (mt (completesBefore_iff_of_eq hbc.symm).mp hle')
    have hca : completesBefore c a = true :=
      (completesBefore_iff_of_eq (hab.trans hbc).symm).mpr hgt
    cases (h.trans a ha b hb c hc hba hcb).symm.trans hca
  · refine fun h => ⟨fun _ _ _ _ => completesBefore_asymm, fun a ha b hb c hc hba hcb => ?_⟩
    refine Bool.eq_false_iff.mpr fun hca => h ?_
    have hle := notAfter_of_not_completesBefore hba
    have hle' := notAfter_of_not_completesBefore hcb
    -- no time passes from the first to the third, so all three are of one instant
    have hac : a.completedAt = c.completedAt :=
      (hle.trans hle').antisymm (notAfter_of_completesBefore hca)
    have hab : a.completedAt = b.completedAt := hle.antisymm (hac ▸ hle')
    have hbc : b.completedAt = c.completedAt := hab.symm.trans hac
    have hcircle : TaskId.InCircle a.taskId b.taskId c.taskId :=
      TaskId.inCircle_iff_not_trans.mpr
        ⟨mt (completesBefore_iff_of_eq hab.symm).mpr (Bool.eq_false_iff.mp hba),
          mt (completesBefore_iff_of_eq hbc.symm).mpr (Bool.eq_false_iff.mp hcb),
          (completesBefore_iff_of_eq hac.symm).mp hca⟩
    rcases TaskId.inCircle_iff.mp hcircle with hwedged | hwedged | hwedged
    · exact ⟨a, ha, b, hb, c, hc, hab, hbc, hwedged⟩
    · exact ⟨b, hb, c, hc, a, ha, hbc, hac.symm, hwedged⟩
    · exact ⟨c, hc, a, ha, b, hb, hac.symm, hab, hwedged⟩

/-- With distinct times there is no circle. -/
theorem not_circles_of_nodup (h : (cands.map completedAt).Nodup) : ¬ Circles cands := by
  rintro ⟨a, ha, b, hb, c, hc, hab, hbc, hwedged⟩
  obtain rfl := List.inj_on_of_nodup_map h ha hb hab
  obtain rfl := List.inj_on_of_nodup_map h ha hc hbc
  exact hwedged.plain hwedged.first

/-! ## 2. Groups

The groups as the claim has them, without a forest: positions that a chain of candidates with
common directories leads to.  They are of positions, as one candidate may be there twice. -/

/-- Two candidates touch a common directory. -/
def Adjacent (a b : Candidate) : Prop :=
  ∃ p ∈ a.footprint, ∃ q ∈ b.footprint, Pattern.directory p = Pattern.directory q

instance (a b : Candidate) : Decidable (Adjacent a b) :=
  inferInstanceAs (Decidable (∃ p ∈ a.footprint, ∃ q ∈ b.footprint, _ = _))

/-- One position is reached from the other by going from neighbour to neighbour. -/
def SameGroup (cands : List Candidate) : Fin cands.length → Fin cands.length → Prop :=
  Relation.ReflTransGen fun i j => Adjacent (cands.get i) (cands.get j)

theorem SameGroup.map {cands' : List Candidate} (e : Fin cands.length → Fin cands'.length)
    (he : ∀ i, cands.get i = cands'.get (e i)) {i j : Fin cands.length}
    (h : SameGroup cands i j) : SameGroup cands' (e i) (e j) := by
  refine Relation.ReflTransGen.lift e (fun k l hkl => ?_) _ _ h
  show Adjacent (cands'.get (e k)) (cands'.get (e l))
  rw [← he, ← he]
  exact hkl

/-- Groups do not depend on where their candidates stand. -/
theorem sameGroup_congr {cands' : List Candidate} (e : Fin cands.length ≃ Fin cands'.length)
    (he : ∀ i, cands.get i = cands'.get (e i)) {i j : Fin cands.length} :
    SameGroup cands i j ↔ SameGroup cands' (e i) (e j) := by
  refine ⟨SameGroup.map e he, fun h => ?_⟩
  have hback := h.map e.symm fun k => by rw [he, e.apply_symm_apply]
  rwa [e.symm_apply_apply, e.symm_apply_apply] at hback

/-! ## 3. The forest finds the groups

The invariant is on the touches that were done so far (`Knows`): the forest joins exactly those
that they link.  After all touches these are the groups. -/

section Touches

variable {n : Nat} {g : Grouping} {done : List (Fin n × String)}

/-- Candidates that have touched a common directory, directly or through others. -/
def Linked (done : List (Fin n × String)) : Fin n → Fin n → Prop :=
  Relation.ReflTransGen fun i j => ∃ d, (i, d) ∈ done ∧ (j, d) ∈ done

theorem Linked.mono {done' : List (Fin n × String)} (hsub : done ⊆ done') {i j : Fin n}
    (h : Linked done i j) : Linked done' i j :=
  Relation.ReflTransGen.mono (fun _ _ ⟨d, hi, hj⟩ => ⟨d, hsub hi, hsub hj⟩) _ _ h

/-- What a grouping knows when some directories have been touched: who was the first to touch each,
and who is linked with whom. -/
structure Knows (g : Grouping) (done : List (Fin n × String)) : Prop where
  size : g.forest.parents.size = n
  owner : ∀ {d o}, g.owners.get? d = some o → ∃ i : Fin n, i = o ∧ (i, d) ∈ done
  owned : ∀ {i d}, (i, d) ∈ done →
    ∃ o, g.owners.get? d = some o ∧ g.forest.root o = g.forest.root i
  linked : ∀ {i j : Fin n}, g.forest.root i = g.forest.root j → Linked done i j

theorem knows_nothing : Knows ⟨.empty, .discrete n⟩ ([] : List (Fin n × String)) where
  size := Array.size_range
  owner := nofun
  owned := nofun
  linked {i j} h := by
    rw [Forest.root_discrete, Forest.root_discrete] at h
    rw [Fin.ext h]
    exact Relation.ReflTransGen.refl

/-- A candidate joins the owner of a directory: the two groups meet in it. -/
theorem Knows.join (h : Knows g done) {i o : Fin n} {d : String}
    (howner : g.owners.get? d = some o.val) (ho : (o, d) ∈ done) :
    Knows { g with forest := g.forest.union i o } (done ++ [(i, d)]) := by
  have hsub : done ⊆ done ++ [(i, d)] := List.subset_append_left _ _
  have hnew : (i, d) ∈ done ++ [(i, d)] := List.mem_append_right _ List.mem_cons_self
  have hroots := Forest.root_union_eq_iff (i.isLt.trans_eq h.size.symm)
    (o.isLt.trans_eq h.size.symm)
  constructor
  · exact (Forest.size_union ..).trans h.size
  · intro d' o' hget
    obtain ⟨k, hk, hin⟩ := h.owner hget
    exact ⟨k, hk, hsub hin⟩
  · intro k d' hin
    rcases List.mem_append.mp hin with hin | hin
    · obtain ⟨o', hget, hroot⟩ := h.owned hin
      exact ⟨o', hget, (hroots _ _).mpr (Or.inl hroot)⟩
    · cases List.mem_singleton.mp hin
      exact ⟨o, howner, (hroots _ _).mpr (Or.inr (Or.inr ⟨rfl, rfl⟩))⟩
  · intro j k hroot
    rcases (hroots j k).mp hroot with hsame | ⟨hj, hk⟩ | ⟨hj, hk⟩
    · exact (h.linked hsame).mono hsub
    · exact (((h.linked hj).mono hsub).tail ⟨d, hnew, hsub ho⟩).trans ((h.linked hk).mono hsub)
    · exact (((h.linked hj).mono hsub).tail ⟨d, hsub ho, hnew⟩).trans ((h.linked hk).mono hsub)

/-- A candidate becomes the owner of a directory that nobody has touched: no groups meet. -/
theorem Knows.own (h : Knows g done) {i : Fin n} {d : String} (hfree : g.owners.get? d = none) :
    Knows { g with owners := g.owners.insert d i } (done ++ [(i, d)]) := by
  have hsub : done ⊆ done ++ [(i, d)] := List.subset_append_left _ _
  constructor
  · exact h.size
  · intro d' o' hget
    rw [Table.get?_insert] at hget
    split at hget
    · subst d'
      exact ⟨i, Option.some.inj hget, List.mem_append_right _ List.mem_cons_self⟩
    · obtain ⟨k, hk, hin⟩ := h.owner hget
      exact ⟨k, hk, hsub hin⟩
  · intro k d' hin
    rcases List.mem_append.mp hin with hin | hin
    · obtain ⟨o', hget, hroot⟩ := h.owned hin
      have hne : d' ≠ d := by
        rintro rfl
        rw [hfree] at hget
        cases hget
      refine ⟨o', ?_, hroot⟩
      rw [Table.get?_insert, if_neg hne, hget]
    · cases List.mem_singleton.mp hin
      refine ⟨i, ?_, rfl⟩
      rw [Table.get?_insert, if_pos rfl]
  · intro j k hroot
    exact (h.linked hroot).mono hsub

/-- **A touch keeps what is known.**  It joins two groups if the directory has an owner, and else
it makes the candidate the owner. -/
theorem Knows.touch (h : Knows g done) (i : Fin n) (d : String) :
    Knows (g.touch i d) (done ++ [(i, d)]) := by
  unfold Grouping.touch
  cases howner : g.owners.get? d with
  | none => exact h.own howner
  | some o =>
    obtain ⟨o, rfl, ho⟩ := h.owner howner
    exact h.join howner ho

theorem Knows.foldl : ∀ (touches : List (Fin n × String)) {g : Grouping}
    {done : List (Fin n × String)}, Knows g done →
      Knows (touches.foldl (fun g t => g.touch t.1 t.2) g) (done ++ touches)
  | [], _, _, h => by
    rw [List.append_nil]
    exact h
  | (i, d) :: rest, _, _, h => by
    rw [List.append_cons]
    exact Knows.foldl rest (h.touch i d)

/-- Linked candidates have one root, and no others have it. -/
theorem Knows.linked_iff (h : Knows g done) {i j : Fin n} :
    Linked done i j ↔ g.forest.root i = g.forest.root j := by
  refine ⟨fun hlink => ?_, h.linked⟩
  induction hlink with
  | refl => rfl
  | tail _ hstep ih =>
    obtain ⟨d, hk, hl⟩ := hstep
    obtain ⟨o, ho, hroot⟩ := h.owned hk
    obtain ⟨o', ho', hroot'⟩ := h.owned hl
    cases ho.symm.trans ho'
    rw [ih, ← hroot, hroot']

end Touches

theorem mem_directories {d : String} {footprint : List String} :
    d ∈ Pattern.directories footprint ↔ ∃ p ∈ footprint, Pattern.directory p = d := by
  rw [Pattern.directories, Table.mem_keys_ofList]
  simp

/-- The directories that the candidates touch, one after the other. -/
def touches (cands : List Candidate) : List (Fin cands.length × String) :=
  (List.finRange cands.length).flatMap fun i =>
    (Pattern.directories (cands.get i).footprint).map fun d => (i, d)

theorem mem_touches {i : Fin cands.length} {d : String} :
    (i, d) ∈ touches cands ↔ ∃ p ∈ (cands.get i).footprint, Pattern.directory p = d := by
  rw [touches, ← mem_directories]
  simp

theorem linked_touches {i j : Fin cands.length} :
    Linked (touches cands) i j ↔ SameGroup cands i j := by
  have hstep : (fun i j : Fin cands.length => ∃ d, (i, d) ∈ touches cands ∧ (j, d) ∈ touches cands)
      = fun i j => Adjacent (cands.get i) (cands.get j) := by
    funext i j
    refine propext ⟨?_, ?_⟩
    · rintro ⟨d, hi, hj⟩
      obtain ⟨p, hp, rfl⟩ := mem_touches.mp hi
      obtain ⟨q, hq, hpq⟩ := mem_touches.mp hj
      exact ⟨p, hp, q, hq, hpq.symm⟩
    · rintro ⟨p, hp, q, hq, hpq⟩
      exact ⟨_, mem_touches.mpr ⟨p, hp, rfl⟩, mem_touches.mpr ⟨q, hq, hpq.symm⟩⟩
  rw [Linked, hstep, SameGroup]

theorem zipIdx_eq_map (cands : List Candidate) :
    cands.zipIdx = (List.finRange cands.length).map fun i => (cands.get i, i.val) := by
  rw [← List.zip_map', List.map_get_finRange, List.map_coe_finRange_eq_range,
    List.zipIdx_eq_zip_range', List.range_eq_range']

theorem grouping_eq (cands : List Candidate) :
    grouping cands = (touches cands).foldl (fun g t => g.touch t.1 t.2)
      ⟨.empty, .discrete cands.length⟩ := by
  rw [grouping, zipIdx_eq_map, List.foldl_map, touches, List.foldl_flatMap]
  simp only [List.foldl_map]

/-- **Two candidates are in one group exactly if they have one root.** -/
theorem sameGroup_iff_root {i j : Fin cands.length} :
    SameGroup cands i j ↔
      (grouping cands).forest.root i = (grouping cands).forest.root j := by
  rw [← linked_touches, grouping_eq]
  exact (knows_nothing.foldl (touches cands)).linked_iff

/-! ## 4. The positions, group by group

The roots are listed in the order in which they are met, and a root is met at its own position,
so they stand from the smallest on. -/

section Seen

variable {f : Forest} {start : Nat} {seen : List Nat}

/-- The numbers are the roots of all positions below `start`. -/
def Seen (f : Forest) (start : Nat) (seen : List Nat) : Prop :=
  ∀ r, r ∈ seen ↔ ∃ k < start, f.root k = r

/-- A root is met at its own position, since no other of its group stands in front of it. -/
theorem Seen.root_mem_iff (h : Seen f start seen) : f.root start ∈ seen ↔ f.root start ≠ start := by
  rw [h]
  constructor
  · rintro ⟨k, hk, hsame⟩ heq
    have hle := f.root_le k
    omega
  · intro hne
    exact ⟨f.root start, Nat.lt_of_le_of_ne (f.root_le start) hne, f.root_root start⟩

theorem Seen.cons (h : Seen f start seen) : Seen f (start + 1) (f.root start :: seen) := by
  intro r
  rw [List.mem_cons, h]
  constructor
  · rintro (rfl | ⟨k, hk, hkr⟩)
    · exact ⟨start, Nat.lt_succ_self _, rfl⟩
    · exact ⟨k, Nat.lt_succ_of_lt hk, hkr⟩
  · rintro ⟨k, hk, hkr⟩
    rcases Nat.lt_succ_iff_lt_or_eq.mp hk with hk | rfl
    · exact Or.inr ⟨k, hk, hkr⟩
    · exact Or.inl hkr.symm

theorem Seen.of_mem (h : Seen f start seen) (hin : f.root start ∈ seen) :
    Seen f (start + 1) seen := by
  intro r
  rw [← h.cons r, List.mem_cons]
  constructor
  · exact Or.inr
  · rintro (rfl | hr)
    · exact hin
    · exact hr

theorem distinct_map_root (count : Nat) : ∀ {start : Nat} {seen : List Nat}, Seen f start seen →
    distinct seen ((List.range' start count).map f.root) =
      (List.range' start count).filter fun i => f.root i = i := by
  induction count with
  | zero => intros; rfl
  | succ count ih =>
    intro start seen h
    rw [List.range'_succ, List.map_cons, distinct]
    by_cases hroot : f.root start = start
    · have hnew : f.root start ∉ seen := fun hin => h.root_mem_iff.mp hin hroot
      rw [if_neg hnew, List.filter_cons_of_pos (by simpa using hroot), ih h.cons, hroot]
    · have hold : f.root start ∈ seen := h.root_mem_iff.mpr hroot
      rw [if_pos hold, List.filter_cons_of_neg (by simpa using hroot), ih (h.of_mem hold)]

end Seen

/-- The roots that are listed are those of the groups, from the smallest on. -/
theorem distinct_roots (f : Forest) (n : Nat) :
    distinct [] (f.roots n) = (List.range n).filter fun i => f.root i = i := by
  have hnothing : Seen f 0 [] := fun r => by simp
  rw [Forest.roots_eq, List.range_eq_range', distinct_map_root n hnothing]

/-- The positions below `n`, group by group. -/
def positions (f : Forest) (n : Nat) : List (Fin n) :=
  ((List.range n).filter fun r => f.root r = r).flatMap fun r =>
    (List.finRange n).filter fun i => f.root i = r

/-- Every position is listed once. -/
theorem positions_perm (f : Forest) (n : Nat) : (positions f n).Perm (List.finRange n) := by
  have hnodup : (((List.range n).filter fun r => f.root r = r).map id).Nodup := by
    rw [List.map_id]
    exact List.nodup_range.filter _
  refine (perm_flatMap_filter_key (fun i : Fin n => f.root i) hnodup fun i _ => ?_).symm
  have hlt : f.root i < n := Nat.lt_of_le_of_lt (f.root_le i) i.isLt
  rw [List.map_id, List.mem_filter]
  exact ⟨List.mem_range.mpr hlt, decide_eq_true (f.root_root i)⟩

/-- **The positions are listed by the root of their group**, and by themselves in a group. -/
theorem positions_pairwise (f : Forest) (n : Nat) :
    (positions f n).Pairwise fun i j : Fin n =>
      f.root i < f.root j ∨ (f.root i = f.root j ∧ i < j) := by
  rw [positions, List.pairwise_flatMap]
  refine ⟨fun r _ => ?_, ?_⟩
  · refine List.Pairwise.imp_of_mem (fun {i j} hi hj hlt => Or.inr ⟨?_, hlt⟩)
      ((List.pairwise_lt_finRange n).filter _)
    have hir := of_decide_eq_true (List.mem_filter.mp hi).2
    have hjr := of_decide_eq_true (List.mem_filter.mp hj).2
    exact hir.trans hjr.symm
  · refine (List.pairwise_lt_range.filter _).imp ?_
    intro r r' hlt i hi j hj
    have hir := of_decide_eq_true (List.mem_filter.mp hi).2
    have hjr := of_decide_eq_true (List.mem_filter.mp hj).2
    exact Or.inl (by rwa [hir, hjr])

theorem arrange_eq (cands : List Candidate) :
    arrange cands = (positions (grouping cands).forest cands.length).map cands.get := by
  unfold arrange
  dsimp only
  have hzip : ∀ (f : Forest) (cands : List Candidate), (f.roots cands.length).zip cands =
      (List.finRange cands.length).map fun i => (f.root i.val, cands.get i) := by
    intro f cands
    rw [← List.zip_map', List.map_get_finRange, Forest.roots_eq,
      ← List.map_coe_finRange_eq_range, List.map_map]
    rfl
  rw [hzip, distinct_roots, positions, List.map_flatMap]
  refine List.flatMap_congr fun r _ => ?_
  rw [List.filter_map, List.map_map]
  rfl

/-- **Arranged by groups no candidate is lost and none is added.** -/
theorem arrange_perm (cands : List Candidate) : (arrange cands).Perm cands := by
  have hlisted := (positions_perm (grouping cands).forest _).map cands.get
  rwa [← arrange_eq, List.map_get_finRange] at hlisted

/-- Where the candidates of a list stand once they are arranged by groups. -/
theorem exists_position (cands : List Candidate) :
    let f := (grouping cands).forest
    ∃ e : Fin (arrange cands).length ≃ Fin cands.length,
      (∀ i, (arrange cands).get i = cands.get (e i)) ∧
      ∀ i j, i < j → f.root (e i) < f.root (e j) ∨ (f.root (e i) = f.root (e j) ∧ e i < e j) := by
  intro f
  have hperm := positions_perm f cands.length
  have hnodup : (positions f cands.length).Nodup :=
    hperm.nodup_iff.mpr (List.nodup_finRange _)
  have hall : ∀ i, i ∈ positions f cands.length := fun i =>
    hperm.mem_iff.mpr (List.mem_finRange i)
  have hlength : (arrange cands).length = (positions f cands.length).length := by
    rw [arrange_eq, List.length_map]
  refine ⟨(finCongr hlength).trans (hnodup.getEquivOfForallMemList _ hall), fun i => ?_,
    fun i j hij => ?_⟩
  · rw [List.get_of_eq (arrange_eq cands), List.get_eq_getElem, List.getElem_map]
    rfl
  · exact List.pairwise_iff_get.mp (positions_pairwise f _) (Fin.cast hlength i)
      (Fin.cast hlength j) hij

/-! ## 5. The order of merges

What was proved of positions is carried over to the candidates that stand there. -/

/-- Between two candidates of a group there is no other candidate. -/
def Together (cands : List Candidate) : Prop :=
  ∀ {i j k : Fin cands.length}, i ≤ j → j ≤ k → SameGroup cands i k → SameGroup cands i j

/-- The groups of the candidates stand one after the other.  Between two of a group there is no
other candidate; in a group the times do not fall; and of two candidates the first one's group has
a member that is not completed after any of the other's group. -/
structure IsGrouped (cands : List Candidate) : Prop where
  together : Together cands
  ascending : ∀ {i j : Fin cands.length}, i ≤ j → SameGroup cands i j →
    (cands.get i).completedAt.NotAfter (cands.get j).completedAt
  byEarliest : ∀ {i j : Fin cands.length}, i ≤ j → ∃ first, SameGroup cands i first ∧
    ∀ k, SameGroup cands j k → (cands.get first).completedAt.NotAfter (cands.get k).completedAt

section Arranged

variable {f : Forest} {e : Fin (arrange cands).length ≃ Fin cands.length}
  (hf : (grouping cands).forest = f) (hget : ∀ i, (arrange cands).get i = cands.get (e i))
  (hbefore : ∀ i j, i < j →
    f.root (e i) < f.root (e j) ∨ (f.root (e i) = f.root (e j) ∧ e i < e j))

include hf hget in
theorem sameGroup_arrange_iff {i j : Fin (arrange cands).length} :
    SameGroup (arrange cands) i j ↔ f.root (e i) = f.root (e j) := by
  rw [sameGroup_congr e hget, sameGroup_iff_root, hf]

include hbefore in
theorem root_le_of_le {i j : Fin (arrange cands).length} (hij : i ≤ j) :
    f.root (e i) ≤ f.root (e j) := by
  rcases hij.lt_or_eq with hlt | rfl
  · rcases hbefore i j hlt with hroot | ⟨hroot, -⟩
    · exact hroot.le
    · exact hroot.le
  · exact Nat.le_refl _

end Arranged

/-- **Groups stay together**, in whatever order the candidates come. -/
theorem arrange_together (cands : List Candidate) : Together (arrange cands) := by
  obtain ⟨e, hget, hbefore⟩ := exists_position cands
  intro i j k hij hjk hik
  rw [sameGroup_arrange_iff rfl hget] at hik ⊢
  exact Nat.le_antisymm (root_le_of_le hbefore hij)
    ((root_le_of_le hbefore hjk).trans_eq hik.symm)

/-- **If the candidates come in the order of completion**, so they do in each group, and the groups
follow each other by their earliest completion. -/
theorem arrange_isGrouped (h : Ascending cands) : IsGrouped (arrange cands) := by
  obtain ⟨e, hget, hbefore⟩ := exists_position cands
  generalize hf : (grouping cands).forest = f at hbefore
  refine ⟨arrange_together cands, fun {i j} hij hgrp => ?_, fun {i j} hij => ?_⟩
  · rw [hget, hget]
    refine h.notAfter ?_
    rcases hij.lt_or_eq with hlt | rfl
    · rcases hbefore i j hlt with hroot | ⟨-, hle⟩
      · exact absurd ((sameGroup_arrange_iff hf hget).mp hgrp) hroot.ne
      · exact hle.le
    · exact le_refl _
  · -- the root of a group is the position of its earliest candidate
    let root : Fin cands.length :=
      ⟨f.root (e i), Nat.lt_of_le_of_lt (f.root_le _) (e i).isLt⟩
    have hfirst : e (e.symm root) = root := e.apply_symm_apply root
    refine ⟨e.symm root, (sameGroup_arrange_iff hf hget).mpr ?_, fun k hk => ?_⟩
    · rw [hfirst]
      exact (f.root_root _).symm
    · rw [hget, hget, hfirst]
      refine h.notAfter ?_
      calc f.root (e i) ≤ f.root (e j) := root_le_of_le hbefore hij
        _ = f.root (e k) := (sameGroup_arrange_iff hf hget).mp hk
        _ ≤ e k := f.root_le _

theorem mergeOrder_perm (cands : List Candidate) : (mergeOrder cands).Perm cands :=
  (arrange_perm _).trans (sortBy_perm _ _)

theorem mergeOrder_isGrouped (cands : List Candidate) : IsGrouped (mergeOrder cands) :=
  arrange_isGrouped (sorted_ascending cands)

/-- **With distinct times the order does not depend on how the candidates come.** -/
theorem mergeOrder_eq_of_perm {cands' : List Candidate}
    (hnodup : (cands.map completedAt).Nodup) (h : cands'.Perm cands) :
    mergeOrder cands' = mergeOrder cands := by
  have hperm : ∀ cs, (sorted cs).Perm cs := fun cs => sortBy_perm completesBefore cs
  have hsorted : sorted cands' = sorted cands := by
    refine List.Perm.eq_of_pairwise (fun a b ha hb hab hba => ?_) (sorted_ascending cands')
      (sorted_ascending cands) ((hperm cands').trans (h.trans (hperm cands).symm))
    exact List.inj_on_of_nodup_map hnodup (h.mem_iff.mp ((hperm cands').mem_iff.mp ha))
      ((hperm cands).mem_iff.mp hb) (hab.antisymm hba)
  exact congrArg arrange hsorted

/-- Whatever routine has sorted the candidates, none is lost and none is added, and groups stay
together. -/
theorem mergeOrderBy_eq_some {sort : Sorter} {order : List Candidate}
    (h : mergeOrderBy sort cands = some order) : order.Perm cands ∧ Together order := by
  obtain ⟨listed, hsorted, rfl⟩ := Option.map_eq_some_iff.mp h
  exact ⟨(arrange_perm listed).trans (sort.perm hsorted), arrange_together listed⟩

/-- Without circles every routine gives the order that insertion gives. -/
theorem mergeOrderBy_eq (sort : Sorter) (h : ¬ Circles cands) :
    mergeOrderBy sort cands = some (mergeOrder cands) := by
  rw [mergeOrderBy, sort.sort?_eq (isOrderOn_completesBefore_iff.mpr h)]
  rfl

/-- **The order of merges groups and orders, and loses nothing.**  Whatever routine has sorted the
candidates,

* what it gives is a permutation of them, in which no group is split;
* it gives an order, and one only, unless identifiers stand in a circle at one instant; in that
  order the groups stand one after the other by their earliest completion, and each is in the order
  of completion;
* if no two candidates were completed at one time, it gives that order for every permutation of
  them. -/
theorem mergeOrder_groups (sort : Sorter) (cands : List Candidate) :
    (∀ order, mergeOrderBy sort cands = some order → order.Perm cands ∧ Together order) ∧
      (¬ Circles cands → mergeOrderBy sort cands = some (mergeOrder cands)) ∧
      (mergeOrder cands).Perm cands ∧ IsGrouped (mergeOrder cands) ∧
      ((cands.map completedAt).Nodup → ∀ cands' : List Candidate, cands'.Perm cands →
        mergeOrderBy sort cands' = some (mergeOrder cands)) := by
  refine ⟨fun _ => mergeOrderBy_eq_some, mergeOrderBy_eq sort, mergeOrder_perm cands,
    mergeOrder_isGrouped cands, fun hnodup cands' hperm => ?_⟩
  have hnodup' : (cands'.map completedAt).Nodup := (hperm.map completedAt).nodup_iff.mpr hnodup
  rw [mergeOrderBy_eq sort (not_circles_of_nodup hnodup'), mergeOrder_eq_of_perm hnodup hperm]

end Candidate

namespace Sample

def offered (task : String) (second : Nat) (footprint : List String) : Candidate where
  taskId := task
  workerId := "worker-" ++ task
  branch := "wiggum/worker-" ++ task
  workspace := "/wt/worker-" ++ task
  footprint := footprint
  completedAt := ⟨20000, second, 0⟩

/-- The fourth candidate touches the directories of the first two, which are groups of their own
until it comes; the third touches another, and the last one none. -/
def latecomer : List Candidate :=
  [offered "T-1" 1 ["src/lib.rs"], offered "T-2" 2 ["docs/"], offered "T-3" 3 ["tests/**"],
    offered "T-4" 4 ["docs/guide.md", "src"], offered "T-5" 5 []]

end Sample

/-- The candidate that joins two groups is merged right behind them, from whatever side the
candidates come. -/
theorem latecomer_joins_groups :
    (Sample.latecomer.map Candidate.completedAt).Nodup ∧
      Sample.latecomer.reverse.Perm Sample.latecomer ∧
      Candidate.IsGrouped (Candidate.mergeOrder Sample.latecomer) ∧
      Candidate.mergeOrderBy .cautious Sample.latecomer.reverse =
        some (Candidate.mergeOrder Sample.latecomer) ∧
      (Candidate.mergeOrder Sample.latecomer).map Candidate.taskId =
        ["T-1", "T-2", "T-4", "T-3", "T-5"] := by
  have hnodup : (Sample.latecomer.map Candidate.completedAt).Nodup := by decide
  obtain ⟨-, -, -, hgrouped, hsame⟩ := Candidate.mergeOrder_groups .cautious Sample.latecomer
  have hperm : Sample.latecomer.reverse.Perm Sample.latecomer := List.reverse_perm _
  exact ⟨hnodup, hperm, hgrouped, hsame hnodup _ hperm, by decide +kernel⟩

/-- Three branches that are finished at one instant stand in a circle, and a routine may give up. -/
example : Candidate.mergeOrderBy .cautious
    [Sample.offered "T-2" 1 [], Sample.offered "T-10" 1 [], Sample.offered "T-1x" 1 []] = none := by
  decide +kernel

end Foreman
