/-
# Looking a root up, step by step

A root is looked up in two loops: up the way to the root, and once more along the way to point each
number on it at the root.  Neither asks whether a number is in the forest, or whether the way ends.
Where no number points above itself both loops go down, so they end; they stay in the forest, and
what they write changes no root.

* `isRoot_iff`: there is one root above a number.
* `Underway.step`: what a step of the loops keeps, and that it leaves less to do.
* `exists_found`: the loops end with what `find` says.
* `pointsDown_point`: a number can be pointed at any smaller one.
* `stage_isLeast`: at every stage of the grouping the root is the smallest position of its group.
* `lookup_keeps_groups`: all of it at once.

The loops are those of `find`, with the tests they make and no others.  `Lookup.step` is one
round of them on any forest, and where a number is read that the forest does not have, the
look-up is lost for good.  So that they end in `found` says two things: that they end, and that
they never read outside of the forest.
-/
import Foreman.Proofs.Merge.Order
import Mathlib.Order.Bounds.Defs

namespace Foreman
namespace Forest

variable {f g : Forest} {i j k r a p : Nat}

/-! ## 1. The numbers above a number

A way up is a chain of parents, and the root is what stands at its end. -/

/-- One number points at another. -/
def Points (f : Forest) (i p : Nat) : Prop := f.parents[i]? = some p

/-- The number is met on the way up from `i`. -/
def Ancestor (f : Forest) (i a : Nat) : Prop := Relation.ReflTransGen f.Points i a

/-- The way up from `i` ends at the number, which points at itself. -/
def IsRoot (f : Forest) (i r : Nat) : Prop := f.Ancestor i r ∧ f.Points r r

/-- A number of the forest points at its parent. -/
theorem points_iff : f.Points i p ↔ i < f.parents.size ∧ f.parent i = p := by
  rw [Points, Array.getElem?_eq_some_iff, parent]
  constructor
  · rintro ⟨h, rfl⟩
    simp [h]
  · rintro ⟨h, rfl⟩
    simp [h]

theorem PointsDown.parent_le (h : f.PointsDown) (i : Nat) : f.parent i ≤ i := by
  rw [parent]
  by_cases hi : i < f.parents.size
  · simpa [hi] using h i hi
  · simp [hi]

theorem pointsDown_iff : f.PointsDown ↔ ∀ i, f.parent i ≤ i := by
  refine ⟨PointsDown.parent_le, fun h i hi => ?_⟩
  simpa [parent, hi] using h i

/-- A number has the root of what it points at. -/
theorem Points.root (hdown : f.PointsDown) (h : f.Points i p) : f.root p = f.root i := by
  obtain ⟨-, rfl⟩ := points_iff.mp h
  rcases Nat.lt_or_eq_of_le (hdown.parent_le i) with hlt | heq
  · rw [root_of_parent_lt hlt]
  · rw [heq]

/-- All numbers on the way up have one root. -/
theorem Ancestor.root (hdown : f.PointsDown) (h : f.Ancestor i a) : f.root a = f.root i := by
  induction h with
  | refl => rfl
  | tail _ hstep ih => rw [hstep.root hdown, ih]

/-- The root is met on the way up. -/
theorem ancestor_root (hi : i < f.parents.size) : f.Ancestor i (f.root i) := by
  induction i using Nat.strongRecOn with
  | ind i ih =>
    by_cases h : f.parent i < i
    · rw [root_of_parent_lt h]
      exact .head (points_iff.mpr ⟨hi, rfl⟩) (ih _ h (Nat.lt_trans h hi))
    · rw [root_of_parent_ge h]
      exact .refl

theorem points_root (hdown : f.PointsDown) (hi : i < f.parents.size) :
    f.Points (f.root i) (f.root i) := by
  refine points_iff.mpr ⟨Nat.lt_of_le_of_lt (f.root_le i) hi, ?_⟩
  exact Nat.le_antisymm (hdown.parent_le _) (Nat.le_of_not_lt (f.parent_root_ge i))

theorem root_of_points (h : f.Points r r) : f.root r = r :=
  root_of_parent_ge (Nat.not_lt_of_le (Nat.le_of_eq (points_iff.mp h).2.symm))

/-- Only a number of the forest has a root above it. -/
theorem IsRoot.lt_size (h : f.IsRoot i r) : i < f.parents.size := by
  rcases Relation.ReflTransGen.cases_head h.1 with rfl | ⟨p, hstep, -⟩
  · exact (points_iff.mp h.2).1
  · exact (points_iff.mp hstep).1

/-- **There is one root above a number.** -/
theorem isRoot_iff (hdown : f.PointsDown) :
    f.IsRoot i r ↔ i < f.parents.size ∧ r = f.root i := by
  constructor
  · intro h
    exact ⟨h.lt_size, by rw [← h.1.root hdown, root_of_points h.2]⟩
  · rintro ⟨hi, rfl⟩
    exact ⟨ancestor_root hi, points_root hdown hi⟩

/-- **The root is the least number on the way up.** -/
theorem root_le_of_ancestor (hdown : f.PointsDown) (h : f.Ancestor i a) : f.root i ≤ a := by
  rw [← h.root hdown]
  exact f.root_le a

/-! ## 2. Numbers that are pointed elsewhere

What a change of one parent must not do, and that pointing down does not do it. -/

/-- **A number can be pointed at any smaller one.** -/
theorem pointsDown_point (hdown : f.PointsDown) (h : r ≤ i) : (f.point i r).PointsDown := by
  rw [pointsDown_iff]
  intro k
  rw [parent_point]
  split
  · rename_i hk
    exact hk.1 ▸ h
  · exact hdown.parent_le k

/-- Where every number points at itself, none points above itself. -/
theorem pointsDown_discrete (n : Nat) : (discrete n).PointsDown := by
  intro i hi
  simp [discrete]

/-- One forest is as good as the other: it has the same numbers with the same roots, and no number
points above itself. -/
structure Alike (f g : Forest) : Prop where
  down : g.PointsDown
  size : g.parents.size = f.parents.size
  root : ∀ k, g.root k = f.root k

theorem Alike.refl (hdown : f.PointsDown) : Alike f f := ⟨hdown, rfl, fun _ => rfl⟩

/-- To point a number at its root changes no root. -/
theorem Alike.point (h : Alike f g) (i : Nat) : Alike f (g.point i (f.root i)) where
  down := pointsDown_point h.down (f.root_le i)
  size := (size_point ..).trans h.size
  root k := by
    rw [← h.root i, root_point_root, h.root]

theorem Alike.isRoot_iff (h : Alike f g) (hdown : f.PointsDown) :
    g.IsRoot i r ↔ f.IsRoot i r := by
  rw [Forest.isRoot_iff hdown, Forest.isRoot_iff h.down, h.size, h.root]

/-! ## 3. The loops

A round keeps what is known of a look-up and leaves fewer rounds to come, so the look-up ends
after as many rounds as there were left at its start. -/

/-- A look-up under way. -/
inductive Lookup where
  /-- The first loop has come up from `start` to `here`. -/
  | climbing (f : Forest) (start here : Nat)
  /-- The second loop has come to `here`, on the same way, and knows the root. -/
  | shortening (f : Forest) (root here : Nat)
  /-- Both loops are over. -/
  | found (root : Nat) (f : Forest)
  /-- A number was to be read that the forest does not have. -/
  | lost
deriving DecidableEq, Repr

/-- One round of a loop, on any forest.  A loop that is over leads on to what comes next. -/
def Lookup.step : Lookup → Lookup
  | climbing f start here =>
    match f.parents[here]? with
    | none => lost
    | some p => if p = here then shortening f here start else climbing f start p
  | shortening f root here =>
    match f.parents[here]? with
    | none => lost
    | some p => if p = root then found root f else shortening (f.point here root) root p
  | found root f => found root f
  | lost => lost

/-- What holds of a look-up of `i` at every time: it is in the forest, on the way to the root of
`i`, has changed no root, and is to end with what `find` says. -/
inductive Underway (f : Forest) (i : Nat) : Lookup → Prop
  | climbing {here : Nat} : here < f.parents.size → f.root here = f.root i →
      Underway f i (.climbing f i here)
  | shortening {g : Forest} {here : Nat} : Alike f g → here < f.parents.size →
      f.root here = f.root i → g.compress (f.root i) here = (f.find i).2 →
      Underway f i (.shortening g (f.root i) here)
  | found : Alike f (f.find i).2 → Underway f i (.found (f.find i).1 (f.find i).2)

/-- At most so many rounds are left. -/
def Lookup.left : Lookup → Nat
  | climbing _ start here => start + here + 2
  | shortening _ _ here => here + 1
  | found .. => 0
  | lost => 0

theorem parents_getElem? (hi : i < f.parents.size) : f.parents[i]? = some (f.parent i) :=
  points_iff.mpr ⟨hi, rfl⟩

/-- **A round keeps what holds of a look-up, and leaves less to do.**  A number that does not point
at itself points below itself. -/
theorem Underway.step {l : Lookup} (hdown : f.PointsDown) (hi : i < f.parents.size)
    (h : Underway f i l) :
    Underway f i l.step ∧ (l.step.left < l.left ∨ l = .found (f.find i).1 (f.find i).2) := by
  -- both walks lead to smaller numbers, the one that looks and the one that shortens
  cases h with
  | @climbing here hhere hroot =>
    have hle := hdown.parent_le here
    rw [Lookup.step, parents_getElem? hhere]
    dsimp only
    split
    · rename_i hself
      have hend : f.root i = here := by
        rw [← hroot, root_of_parent_ge (by omega)]
      rw [← hend]
      exact ⟨.shortening (.refl hdown) hi rfl rfl, .inl (by simp only [Lookup.left]; omega)⟩
    · rename_i hup
      have hstep : f.root (f.parent here) = f.root i := by
        rw [← root_of_parent_lt (by omega), hroot]
      exact ⟨.climbing (by omega) hstep, .inl (by simp only [Lookup.left]; omega)⟩
  | @shortening g here hlike hhere hroot hend =>
    have hsize : here < g.parents.size := hlike.size ▸ hhere
    have hle := hlike.down.parent_le here
    have hgroot : g.root here = f.root i := by rw [hlike.root, hroot]
    rw [Lookup.step, parents_getElem? hsize]
    dsimp only
    rw [compress] at hend
    split
    · rename_i hlast
      rw [if_pos hlast] at hend
      subst hend
      exact ⟨.found hlike, .inl (by simp only [Lookup.left]; omega)⟩
    · rename_i hup
      have hlt : g.parent here < here := by
        refine Nat.lt_of_le_of_ne hle fun hself => hup ?_
        rw [hself, ← hgroot, root_of_parent_ge (by omega)]
      have hstep : f.root (g.parent here) = f.root i := by
        rw [← hlike.root, ← root_of_parent_lt hlt, hgroot]
      -- pointing at the root changes no root, so the forest is still alike
      have hpoint : Alike f (g.point here (f.root i)) := hroot ▸ hlike.point here
      rw [if_neg hup, if_pos hlt] at hend
      exact ⟨.shortening hpoint (by omega) hstep hend, .inl (by simp only [Lookup.left]; omega)⟩
  | found hlike => exact ⟨.found hlike, .inr rfl⟩

/-- What holds of a look-up at its start holds of it after any number of rounds. -/
theorem Underway.iterate {l : Lookup} (hdown : f.PointsDown) (hi : i < f.parents.size)
    (h : Underway f i l) (n : Nat) : Underway f i (Lookup.step^[n] l) := by
  induction n generalizing l with
  | zero => exact h
  | succ n ih => exact ih (h.step hdown hi).1

/-- **The loops end, and with what `find` says.** -/
theorem Underway.exists_found {l : Lookup} (hdown : f.PointsDown) (hi : i < f.parents.size)
    (h : Underway f i l) :
    ∃ n ≤ l.left, Lookup.step^[n] l = .found (f.find i).1 (f.find i).2 := by
  induction hleft : l.left using Nat.strongRecOn generalizing l with
  | ind left ih =>
    obtain ⟨hstep, hless | hfound⟩ := h.step hdown hi
    · obtain ⟨n, hn, hend⟩ := ih _ (hleft ▸ hless) hstep rfl
      exact ⟨n + 1, by omega, hend⟩
    · exact ⟨0, Nat.zero_le _, hfound⟩

/-- A look-up that starts is under way. -/
theorem underway_start (hi : i < f.parents.size) : Underway f i (.climbing f i i) :=
  .climbing hi rfl

/-- **What is left of a look-up is as good a forest.** -/
theorem find_alike (hdown : f.PointsDown) (hi : i < f.parents.size) : Alike f (f.find i).2 := by
  obtain ⟨n, -, hend⟩ := (underway_start hi).exists_found hdown hi
  have hlast := (underway_start hi).iterate hdown hi n
  rw [hend] at hlast
  cases hlast with
  | found hlike => exact hlike

/-- What a look-up of `i` has to give: the loops end in so many rounds with the least number on the
way up, which points at itself, and with a forest where every number has the root it had. -/
structure Found (f : Forest) (i r : Nat) (g : Forest) : Prop where
  ends : ∃ n ≤ 2 * i + 2, Lookup.step^[n] (.climbing f i i) = .found r g
  fixed : f.Points r r
  least : IsLeast {a | f.Ancestor i a} r
  down : g.PointsDown
  size : g.parents.size = f.parents.size
  roots : ∀ k r, g.IsRoot k r ↔ f.IsRoot k r

/-- **A look-up gives what `Found` says.** -/
theorem find_found (hdown : f.PointsDown) (hi : i < f.parents.size) :
    Found f i (f.find i).1 (f.find i).2 := by
  have hlike := find_alike hdown hi
  obtain ⟨n, hn, hend⟩ := (underway_start hi).exists_found hdown hi
  exact
    { ends := ⟨n, by simp only [Lookup.left] at hn; omega, hend⟩
      fixed := points_root hdown hi
      least := ⟨ancestor_root hi, fun a ha => root_le_of_ancestor hdown ha⟩
      down := hlike.down
      size := hlike.size
      roots := fun k r => hlike.isRoot_iff hdown }

/-! ## 4. Joining

To join is to look up twice and to link. -/

/-- What it means to have linked a root to another: no number points above itself, and the numbers
of the first root have the second. -/
structure IsLink (f : Forest) (b a : Nat) (g : Forest) : Prop where
  down : g.PointsDown
  size : g.parents.size = f.parents.size
  roots : ∀ k r, g.IsRoot k r ↔ ∃ r', f.IsRoot k r' ∧ r = if r' = b then a else r'

/-- **The greater of two roots can be linked to the smaller.** -/
theorem point_isLink (hdown : f.PointsDown) {b : Nat} (ha : f.Points a a) (hb : f.Points b b)
    (hlt : a < b) : IsLink f b a (f.point b a) where
  down := pointsDown_point hdown (Nat.le_of_lt hlt)
  size := size_point ..
  roots k r := by
    have hroot := root_point_link hlt (points_iff.mp hb).1 (root_of_points ha) (root_of_points hb) k
    rw [isRoot_iff (pointsDown_point hdown (Nat.le_of_lt hlt)), size_point, hroot]
    simp only [isRoot_iff hdown]
    constructor
    · rintro ⟨hk, rfl⟩
      exact ⟨_, ⟨hk, rfl⟩, rfl⟩
    · rintro ⟨_, ⟨hk, rfl⟩, rfl⟩
      exact ⟨hk, rfl⟩

/-- To join two groups is to look up their roots, and to link the greater to the smaller. -/
theorem pointsDown_union (hdown : f.PointsDown) (hi : i < f.parents.size)
    (hj : j < f.parents.size) : (f.union i j).PointsDown := by
  have hfirst := find_alike hdown hi
  have hsecond := find_alike hfirst.down (hfirst.size ▸ hj)
  unfold union
  dsimp only
  split
  · exact pointsDown_point hsecond.down (Nat.le_of_lt ‹_›)
  · split
    · exact pointsDown_point hsecond.down (Nat.le_of_lt ‹_›)
    · exact hsecond.down

end Forest

/-! ## 5. The stages of a grouping

The directories are touched one after the other, and what was proved of any forest holds of each
of those in between. -/

namespace Candidate

variable {cands : List Candidate}

theorem touch_pointsDown {n : Nat} {g : Grouping} {done : List (Fin n × String)}
    (h : Knows g done) (hdown : g.forest.PointsDown) (i : Fin n) (d : String) :
    (g.touch i d).forest.PointsDown := by
  unfold Grouping.touch
  cases howner : g.owners.get? d with
  | none => exact hdown
  | some o =>
    obtain ⟨k, rfl, -⟩ := h.owner howner
    exact Forest.pointsDown_union hdown (i.isLt.trans_eq h.size.symm) (k.isLt.trans_eq h.size.symm)

theorem foldl_pointsDown {n : Nat} (touches : List (Fin n × String)) :
    ∀ {g : Grouping} {done : List (Fin n × String)}, Knows g done → g.forest.PointsDown →
      (touches.foldl (fun g t => g.touch t.1 t.2) g).forest.PointsDown := by
  induction touches with
  | nil => exact fun _ hdown => hdown
  | cons t rest ih => exact fun h hdown => ih (h.touch t.1 t.2) (touch_pointsDown h hdown t.1 t.2)

/-- The grouping when the first `m` directories have been touched. -/
def stage (cands : List Candidate) (m : Nat) : Grouping :=
  ((touches cands).take m).foldl (fun g t => g.touch t.1 t.2) ⟨.empty, .discrete cands.length⟩

/-- At the last stage all directories have been touched. -/
theorem stage_length (cands : List Candidate) :
    stage cands (touches cands).length = grouping cands := by
  rw [stage, List.take_length, grouping_eq]

theorem stage_knows (cands : List Candidate) (m : Nat) :
    Knows (stage cands m) ((touches cands).take m) :=
  knows_nothing.foldl ((touches cands).take m)

/-- At no stage does a number point above itself. -/
theorem stage_pointsDown (cands : List Candidate) (m : Nat) :
    (stage cands m).forest.PointsDown :=
  foldl_pointsDown _ knows_nothing (Forest.pointsDown_discrete _)

/-- The positions that are in the group of `i` when the first `m` directories have been touched. -/
def groupAt (cands : List Candidate) (m : Nat) (i : Fin cands.length) : Set Nat :=
  {j | ∃ k : Fin cands.length, k = j ∧ Linked ((touches cands).take m) i k}

/-- **At every stage a root is the smallest position of its group.** -/
theorem stage_isLeast (cands : List Candidate) (m : Nat) (i : Fin cands.length) :
    IsLeast (groupAt cands m i) ((stage cands m).forest.root i) := by
  have hknows := stage_knows cands m
  generalize stage cands m = g at hknows
  have hlt : g.forest.root i < cands.length := Nat.lt_of_le_of_lt (g.forest.root_le i) i.isLt
  constructor
  · exact ⟨⟨_, hlt⟩, rfl, hknows.linked_iff.mpr (g.forest.root_root i).symm⟩
  · rintro j ⟨k, rfl, hlinked⟩
    rw [hknows.linked_iff.mp hlinked]
    exact g.forest.root_le k

/-- **A look-up ends and changes no group.**  In a forest where no number points above itself the
look-up of each number gives what `Found` says, and the greater of two roots can be linked to the
smaller.  Such a forest is that of every stage of a grouping, from the one where no directory has
been touched to the one that the order of merges is made of; and there the number above a position
that points at itself is the smallest position of its group. -/
theorem lookup_keeps_groups {f : Forest} (hdown : f.PointsDown) :
    (∀ i < f.parents.size, f.Found i (f.find i).1 (f.find i).2) ∧
      (∀ a b, f.Points a a → f.Points b b → a < b → f.IsLink b a (f.point b a)) ∧
      ∀ cands : List Candidate,
        (∀ m, let g := (stage (sorted cands) m).forest
          g.PointsDown ∧ g.parents.size = (sorted cands).length ∧
            ∀ i : Fin (sorted cands).length, ∃ r, g.IsRoot i r ∧
              IsLeast (groupAt (sorted cands) m i) r) ∧
        stage (sorted cands) (touches (sorted cands)).length = grouping (sorted cands) := by
  refine ⟨fun i => Forest.find_found hdown, fun a b => Forest.point_isLink hdown, fun cands =>
    ⟨fun m => ?_, stage_length _⟩⟩
  have hstage := stage_pointsDown (sorted cands) m
  have hsize := (stage_knows (sorted cands) m).size
  refine ⟨hstage, hsize, fun i => ⟨_, (Forest.isRoot_iff hstage).mpr ⟨?_, rfl⟩, ?_⟩⟩
  · exact i.isLt.trans_eq hsize.symm
  · exact stage_isLeast _ m i

end Candidate

namespace Sample

/-- Three numbers stand above the fourth, one above the other, and the last two are apart. -/
def ladder : Forest := ⟨#[0, 0, 1, 2, 4, 4]⟩

end Sample

/-- The fourth number is looked up, and the others on its way point at the root afterwards; and the
root of the last two is linked to the first. -/
theorem ladder_shortened : Sample.ladder.PointsDown ∧
    Sample.ladder.Found 3 0 ⟨#[0, 0, 0, 0, 4, 4]⟩ ∧
    Sample.ladder.IsLink 4 0 ⟨#[0, 0, 1, 2, 0, 4]⟩ := by
  have hdown : Sample.ladder.PointsDown := by decide +kernel
  obtain ⟨hfind, hlink, -⟩ := Candidate.lookup_keeps_groups hdown
  have hfound : Sample.ladder.find 3 = (0, ⟨#[0, 0, 0, 0, 4, 4]⟩) := by decide +kernel
  have hthird := hfind 3 (by decide)
  rw [hfound] at hthird
  exact ⟨hdown, hthird, hlink 0 4 rfl rfl (by decide)⟩

end Foreman
