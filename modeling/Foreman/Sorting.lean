/-
# Sorting

A list is sorted by a comparison, which says of two elements whether the first has to stand in
front of the second.  A sorting routine relies on the comparison being an order of the elements at
hand (`IsOrderOn`).  If it is one, there is a single arrangement in which no element stands behind
one it comes before and elements that tie keep their places (`IsStableSort.unique`), and the
routine finds it.  If it is none, nothing is promised about the arrangement, and a routine that
notices may give up: the call does not return.

Not every comparison of this library is an order of every list.  The natural order of task
identifiers goes in circles where some identifiers have a number behind the dash and others have
none, and a score that is no number ties with all others.  So `Sorter` states no more than the
contract, and what is proved of plans and of merges is proved for every `Sorter`:

* whatever it returns is a rearrangement of what it was given;
* where the comparison is an order it returns, and with the stable arrangement.

`sortBy` is insertion, which never gives up.  It meets the contract (`Sorter.insertion`), and it is
the routine that the definitions here run with.  `Sorter.cautious` is the other extreme: it gives up
wherever the contract lets it.

* `sortBy_pairwise`: the elements stand in every preorder that the comparison respects.
* `sortBy_isStableSort`: insertion is stable, where the comparison is an order.
* `Sorter.sort?_eq`: so every routine agrees with it there.
-/

namespace Foreman

/-! ## 1. What a sorted list is

An order here is one of the elements at hand, not of the type.  A stable arrangement is known
from the list alone, so all routines that find one agree. -/

section Contract

variable {α : Type}

/-- Neither of two elements comes before the other. -/
def tied (before : α → α → Bool) (a b : α) : Bool := !before a b && !before b a

/-- **The comparison is an order of the elements of a list**: none comes before one that comes
before it, and not to come before is transitive. -/
structure IsOrderOn (before : α → α → Bool) (xs : List α) : Prop where
  asymm : ∀ a ∈ xs, ∀ b ∈ xs, before a b = true → before b a = false
  trans : ∀ a ∈ xs, ∀ b ∈ xs, ∀ c ∈ xs,
    before b a = false → before c b = false → before c a = false

instance (before : α → α → Bool) (xs : List α) : Decidable (IsOrderOn before xs) :=
  decidable_of_iff
    ((∀ a ∈ xs, ∀ b ∈ xs, before a b = true → before b a = false) ∧
      ∀ a ∈ xs, ∀ b ∈ xs, ∀ c ∈ xs, before b a = false → before c b = false → before c a = false)
    ⟨fun h => ⟨h.1, h.2⟩, fun h => ⟨h.asymm, h.trans⟩⟩

/-- The elements in order, those that tie as they stood before. -/
structure IsStableSort (before : α → α → Bool) (xs ys : List α) : Prop where
  perm : ys.Perm xs
  ascending : ys.Pairwise fun a b => before b a = false
  stable : ∀ a ∈ xs, ys.filter (tied before a) = xs.filter (tied before a)

namespace IsOrderOn

variable {before : α → α → Bool} {xs : List α} (h : IsOrderOn before xs)

include h

theorem irrefl {a : α} (ha : a ∈ xs) : before a a = false := by
  cases haa : before a a with
  | false => rfl
  | true => exact haa.symm.trans (h.asymm a ha a ha haa)

/-- What ties with an element that another one comes before does not tie with that one. -/
theorem tied_eq_false {a x y : α} (ha : a ∈ xs) (hx : x ∈ xs) (hy : y ∈ xs)
    (hax : tied before a x = true) (hxy : before x y = true) : tied before a y = false := by
  refine Bool.eq_false_iff.mpr fun hay => ?_
  simp only [tied, Bool.and_eq_true, Bool.not_eq_true'] at hax hay
  have hnot : before x y = false := h.trans y hy a ha x hx hay.1 hax.2
  cases hxy.symm.trans hnot

end IsOrderOn

/-- A list in order is known from its elements and from those that tie with each. -/
theorem eq_of_ascending {before : α → α → Bool} {ys zs : List α} (hperm : ys.Perm zs)
    (hirrefl : ∀ a ∈ ys, before a a = false)
    (hys : ys.Pairwise fun a b => before b a = false)
    (hzs : zs.Pairwise fun a b => before b a = false)
    (htied : ∀ a ∈ ys, ys.filter (tied before a) = zs.filter (tied before a)) : ys = zs := by
  induction ys generalizing zs with
  | nil => exact hperm.nil_eq
  | cons y ys ih =>
    cases zs with
    | nil => exact hperm.eq_nil
    | cons z zs =>
      obtain ⟨hy, hys'⟩ := List.pairwise_cons.mp hys
      obtain ⟨hz, hzs'⟩ := List.pairwise_cons.mp hzs
      have hyy : before y y = false := hirrefl y List.mem_cons_self
      -- each of the two heads stands somewhere in the other list
      have hyz : tied before y z = true := by
        have hzy : before z y = false := by
          rcases List.mem_cons.mp (hperm.mem_iff.mpr List.mem_cons_self) with rfl | hmem
          · exact hyy
          · exact hy z hmem
        have hyz : before y z = false := by
          rcases List.mem_cons.mp (hperm.mem_iff.mp List.mem_cons_self) with rfl | hmem
          · exact hyy
          · exact hz y hmem
        rw [tied, hyz, hzy]
        rfl
      obtain rfl : y = z := by
        have hheads := htied y List.mem_cons_self
        rw [List.filter_cons_of_pos (by simp [tied, hyy]), List.filter_cons_of_pos hyz] at hheads
        exact (List.cons.inj hheads).1
      congr 1
      refine ih hperm.cons_inv (fun a ha => hirrefl a (List.mem_cons_of_mem _ ha)) hys' hzs'
        fun a ha => ?_
      have hfilters := htied a (List.mem_cons_of_mem _ ha)
      rw [List.filter_cons, List.filter_cons] at hfilters
      split at hfilters
      · exact (List.cons.inj hfilters).2
      · exact hfilters

/-- **There is one stable arrangement.** -/
theorem IsStableSort.unique {before : α → α → Bool} {xs ys zs : List α}
    (h : IsOrderOn before xs) (hys : IsStableSort before xs ys) (hzs : IsStableSort before xs zs) :
    ys = zs := by
  refine eq_of_ascending (hys.perm.trans hzs.perm.symm) (fun a ha => ?_) hys.ascending
    hzs.ascending fun a ha => ?_
  · exact h.irrefl (hys.perm.mem_iff.mp ha)
  · have hmem : a ∈ xs := hys.perm.mem_iff.mp ha
    exact (hys.stable a hmem).trans (hzs.stable a hmem).symm

end Contract

/-! ## 2. Insertion

The routine is stable because an element stops behind the first that it does not come before,
and moves past no other of its tie. -/

section Insertion

variable {α : Type} {before : α → α → Bool}

/-- Insertion into a list that is sorted from its last element to its first. -/
def insertFromEnd {α : Type} (before : α → α → Bool) (x : α) : List α → List α
  | [] => [x]
  | y :: earlier => if before x y then y :: insertFromEnd before x earlier else x :: y :: earlier

/-- Each element in turn moves forward from the end of what is sorted already, past every element
it comes before, up to the first one it does not. -/
def sortBy {α : Type} (before : α → α → Bool) (xs : List α) : List α :=
  (xs.foldl (fun sorted x => insertFromEnd before x sorted) []).reverse

theorem insertFromEnd_perm (before : α → α → Bool) (x : α) (ys : List α) :
    (insertFromEnd before x ys).Perm (x :: ys) := by
  induction ys with
  | nil => exact List.Perm.refl _
  | cons y earlier ih =>
    unfold insertFromEnd
    split
    · exact (ih.cons y).trans (List.Perm.swap x y earlier)
    · exact List.Perm.refl _

theorem foldl_insertFromEnd_perm (before : α → α → Bool) (xs acc : List α) :
    (xs.foldl (fun sorted x => insertFromEnd before x sorted) acc).Perm (xs ++ acc) := by
  induction xs generalizing acc with
  | nil => exact List.Perm.refl _
  | cons x rest ih =>
    refine (ih (insertFromEnd before x acc)).trans ?_
    refine ((insertFromEnd_perm before x acc).append_left rest).trans ?_
    exact List.perm_middle

/-- Nothing is lost and nothing is added. -/
theorem sortBy_perm (before : α → α → Bool) (xs : List α) : (sortBy before xs).Perm xs := by
  have h := foldl_insertFromEnd_perm before xs []
  simp only [List.append_nil] at h
  exact (List.reverse_perm _).trans h

section Pairwise

variable {le : α → α → Prop} {l : List α}
  (htrans : ∀ a ∈ l, ∀ b ∈ l, ∀ c ∈ l, le a b → le b c → le a c)
  (hbefore : ∀ a ∈ l, ∀ b ∈ l, before a b = true → le a b)
  (hnot : ∀ a ∈ l, ∀ b ∈ l, before a b = false → le b a)

include htrans hbefore hnot in
theorem insertFromEnd_pairwise {x : α} (hx : x ∈ l) {ys : List α} (hsub : ys ⊆ l)
    (h : ys.Pairwise fun a b => le b a) :
    (insertFromEnd before x ys).Pairwise fun a b => le b a := by
  induction ys with
  | nil => exact List.pairwise_singleton _ _
  | cons y earlier ih =>
    obtain ⟨hy, hearlier⟩ := List.pairwise_cons.mp h
    have hyl : y ∈ l := hsub List.mem_cons_self
    have hsub' : earlier ⊆ l := fun z hz => hsub (List.mem_cons_of_mem _ hz)
    rw [insertFromEnd]
    split
    · rename_i hpasses
      refine List.pairwise_cons.mpr ⟨fun z hz => ?_, ih hsub' hearlier⟩
      rcases List.mem_cons.mp ((insertFromEnd_perm before x earlier).mem_iff.mp hz) with rfl | hz
      · exact hbefore _ hx _ hyl hpasses
      · exact hy z hz
    · rename_i hstops
      have hyx : le y x := hnot _ hx _ hyl (Bool.eq_false_iff.mpr hstops)
      refine List.pairwise_cons.mpr ⟨fun z hz => ?_, h⟩
      rcases List.mem_cons.mp hz with rfl | hz
      · exact hyx
      · exact htrans _ (hsub' hz) _ hyl _ hx (hy z hz) hyx

include htrans hbefore hnot in
theorem foldl_insertFromEnd_pairwise {xs acc : List α} (hxs : xs ⊆ l) (hacc : acc ⊆ l)
    (h : acc.Pairwise fun a b => le b a) :
    (xs.foldl (fun sorted x => insertFromEnd before x sorted) acc).Pairwise
      fun a b => le b a := by
  induction xs generalizing acc with
  | nil => exact h
  | cons x rest ih =>
    have hx : x ∈ l := hxs List.mem_cons_self
    refine ih (fun z hz => hxs (List.mem_cons_of_mem _ hz)) (fun z hz => ?_)
      (insertFromEnd_pairwise htrans hbefore hnot hx hacc h)
    rcases List.mem_cons.mp ((insertFromEnd_perm before x acc).mem_iff.mp hz) with rfl | hz
    · exact hx
    · exact hacc hz

end Pairwise

/-- **The elements stand in every preorder that the comparison respects**, even if the comparison
is no order itself. -/
theorem sortBy_pairwise {le : α → α → Prop} {xs : List α}
    (htrans : ∀ a ∈ xs, ∀ b ∈ xs, ∀ c ∈ xs, le a b → le b c → le a c)
    (hbefore : ∀ a ∈ xs, ∀ b ∈ xs, before a b = true → le a b)
    (hnot : ∀ a ∈ xs, ∀ b ∈ xs, before a b = false → le b a) : (sortBy before xs).Pairwise le :=
  List.pairwise_reverse.mpr (foldl_insertFromEnd_pairwise htrans hbefore hnot
    (List.Subset.refl xs) (List.nil_subset _) List.Pairwise.nil)

/-- A part of the list keeps its places, if no element of it moves past another one. -/
theorem filter_insertFromEnd {p : α → Bool} {x : α} {ys : List α}
    (h : p x = true → ∀ y ∈ ys, before x y = true → p y = false) :
    (insertFromEnd before x ys).filter p = (x :: ys).filter p := by
  induction ys with
  | nil => rfl
  | cons y earlier ih =>
    rw [insertFromEnd]
    split
    · rename_i hpasses
      rw [List.filter_cons, ih fun hx z hz => h hx z (List.mem_cons_of_mem _ hz)]
      cases hx : p x with
      | false => simp [hx, List.filter_cons]
      | true =>
        have hy : p y = false := h hx y List.mem_cons_self hpasses
        simp [hx, hy]
    · rfl

theorem filter_foldl_insertFromEnd {p : α → Bool} {xs acc : List α}
    (h : ∀ x ∈ xs, p x = true → ∀ y ∈ xs ++ acc, before x y = true → p y = false) :
    (xs.foldl (fun sorted x => insertFromEnd before x sorted) acc).filter p =
      (xs.filter p).reverse ++ acc.filter p := by
  induction xs generalizing acc with
  | nil => rfl
  | cons x rest ih =>
    have hmem : ∀ z ∈ rest ++ insertFromEnd before x acc, z ∈ x :: rest ++ acc := by
      intro z hz
      rcases List.mem_append.mp hz with hz | hz
      · exact List.mem_append_left _ (List.mem_cons_of_mem _ hz)
      · rcases List.mem_cons.mp ((insertFromEnd_perm before x acc).mem_iff.mp hz) with rfl | hz
        · exact List.mem_append_left _ List.mem_cons_self
        · exact List.mem_append_right _ hz
    have hnew : (insertFromEnd before x acc).filter p = (x :: acc).filter p :=
      filter_insertFromEnd fun hx y hy =>
        h x List.mem_cons_self hx y (List.mem_append_right _ hy)
    rw [List.foldl_cons, ih fun z hz hp y hy =>
      h z (List.mem_cons_of_mem _ hz) hp y (hmem y hy), hnew]
    cases hx : p x <;> simp [hx]

/-- **Insertion gives the stable arrangement**, where the comparison is an order. -/
theorem sortBy_isStableSort {xs : List α} (h : IsOrderOn before xs) :
    IsStableSort before xs (sortBy before xs) where
  perm := sortBy_perm before xs
  ascending := sortBy_pairwise h.trans h.asymm fun _ _ _ _ hnot => hnot
  stable a ha := by
    rw [sortBy, List.filter_reverse, filter_foldl_insertFromEnd]
    · simp
    · intro x hx hax y hy hxy
      rw [List.append_nil] at hy
      exact h.tied_eq_false ha hx hy hax hxy

end Insertion

/-! ## 3. Sorting routines

The contract allows for two ends.  `insertion` never gives up and `cautious` gives up as often as
it may, so what holds of every routine holds of both. -/

/-- **A sorting routine**, by its contract.  It may give up (`none`), but not where the comparison
is an order; and it loses no element and adds none, whatever the comparison is. -/
structure Sorter where
  sort? : {α : Type} → (α → α → Bool) → List α → Option (List α)
  perm : ∀ {α : Type} {before : α → α → Bool} {xs ys : List α},
    sort? before xs = some ys → ys.Perm xs
  sorts : ∀ {α : Type} {before : α → α → Bool} {xs : List α}, IsOrderOn before xs →
    ∃ ys, sort? before xs = some ys ∧ IsStableSort before xs ys

namespace Sorter

/-- The routine that inserts. -/
def insertion : Sorter where
  sort? before xs := some (sortBy before xs)
  perm h := Option.some.inj h ▸ sortBy_perm _ _
  sorts h := ⟨_, rfl, sortBy_isStableSort h⟩

/-- The routine that gives up wherever it may. -/
def cautious : Sorter where
  sort? before xs := if IsOrderOn before xs then some (sortBy before xs) else none
  perm {_ before xs ys} h := by
    split at h
    · exact Option.some.inj h ▸ sortBy_perm before xs
    · cases h
  sorts h := ⟨_, if_pos h, sortBy_isStableSort h⟩

/-- **Where the comparison is an order, all routines give one result.** -/
theorem sort?_eq (sort : Sorter) {α : Type} {before : α → α → Bool} {xs : List α}
    (h : IsOrderOn before xs) : sort.sort? before xs = some (sortBy before xs) := by
  obtain ⟨ys, hys, hstable⟩ := sort.sorts h
  rw [hys, hstable.unique h (sortBy_isStableSort h)]

end Sorter
end Foreman
