/-
# Groups of numbers

A forest is told by its roots: two numbers are in one group exactly if they have the same root,
and the root is the smallest of its group.  To look a root up changes parents but no root, so it
can be left out of every argument about groups; to join two numbers changes the roots of one group
only, the one whose root is greater.

* `root_le`, `root_root`: a root is the smallest of its group, and its own root.
* `find_root`: looking up changes no root.
* `root_union`, `root_union_eq_iff`: joining makes one group of two and leaves the others alone.
* `roots_eq`: the roots, looked up one after the other, are the roots.

Looking up and joining both write to the forest, so it is the roots that are followed and not
the parents: `root` is the same function before and after a look-up, and joining changes it in
one place.  What the parents are in between does not come up again.
-/
import Foreman.Merge.Forest

namespace Foreman
namespace Forest

variable {f : Forest} {i j k r : Nat}

/-! ## 1. The way down

The root is defined on any forest: the way ends at the first number that does not point below
itself. -/

/-- A number that points below itself has the root of what it points at. -/
theorem root_of_parent_lt (h : f.parent i < i) : f.root i = f.root (f.parent i) := by
  rw [root, if_pos h]

/-- Any other number is its own root. -/
theorem root_of_parent_ge (h : ¬ f.parent i < i) : f.root i = i := by
  rw [root, if_neg h]

/-- The way ends at a number that does not point below itself. -/
theorem parent_root_ge (f : Forest) (i : Nat) : ¬ f.parent (f.root i) < f.root i := by
  induction i using Nat.strongRecOn with
  | ind i ih =>
    by_cases h : f.parent i < i
    · rw [root_of_parent_lt h]
      exact ih _ h
    · rw [root_of_parent_ge h]
      exact h

/-- **A root is the smallest of its group.** -/
theorem root_le (f : Forest) (i : Nat) : f.root i ≤ i := by
  induction i using Nat.strongRecOn with
  | ind i ih =>
    by_cases h : f.parent i < i
    · rw [root_of_parent_lt h]
      exact Nat.le_trans (ih _ h) (Nat.le_of_lt h)
    · exact Nat.le_of_eq (root_of_parent_ge h)

/-- **A root is its own root.** -/
@[simp] theorem root_root (f : Forest) (i : Nat) : f.root (f.root i) = f.root i :=
  root_of_parent_ge (parent_root_ge f i)

@[simp] theorem root_discrete (n i : Nat) : (discrete n).root i = i := by
  refine root_of_parent_ge ?_
  rw [parent, discrete, Array.getElem?_range]
  split <;> exact Nat.lt_irrefl i

/-! ## 2. One parent changed

The two changes of a parent that ever happen. -/

/-- The forest with `r` for the parent of `i`. -/
def point (f : Forest) (i r : Nat) : Forest := ⟨f.parents.setIfInBounds i r⟩

@[simp] theorem size_point (f : Forest) (i r : Nat) :
    (f.point i r).parents.size = f.parents.size := Array.size_setIfInBounds

/-- One parent changes, if the number is in the forest. -/
theorem parent_point (f : Forest) (i r k : Nat) :
    (f.point i r).parent k = if k = i ∧ i < f.parents.size then r else f.parent k := by
  unfold parent point
  rw [Array.getElem?_setIfInBounds]
  by_cases hk : i = k
  · subst hk
    by_cases hi : i < f.parents.size
    · simp [hi]
    · simp [hi]
  · rw [if_neg hk, if_neg fun h => hk h.1.symm]

theorem parent_point_of_ne (h : k ≠ i) : (f.point i r).parent k = f.parent k := by
  rw [parent_point, if_neg fun hk => h hk.1]

theorem parent_point_self (h : i < f.parents.size) : (f.point i r).parent i = r := by
  rw [parent_point, if_pos ⟨rfl, h⟩]

/-- To shorten a way changes no root. -/
theorem root_point_root (f : Forest) (i k : Nat) : (f.point i (f.root i)).root k = f.root k := by
  induction k using Nat.strongRecOn with
  | ind k ih =>
    by_cases hki : k = i ∧ i < f.parents.size
    · obtain ⟨rfl, hk⟩ := hki
      have hparent : (f.point k (f.root k)).parent k = f.root k := parent_point_self hk
      rcases Nat.lt_or_eq_of_le (f.root_le k) with hlt | heq
      · rw [root_of_parent_lt (by omega), hparent, ih _ hlt, root_root]
      · rw [root_of_parent_ge (by omega), heq]
    · have hparent : (f.point i (f.root i)).parent k = f.parent k := by
        rw [parent_point, if_neg hki]
      by_cases hlt : f.parent k < k
      · rw [root_of_parent_lt (hparent ▸ hlt), hparent, ih _ hlt, root_of_parent_lt hlt]
      · rw [root_of_parent_ge (hparent ▸ hlt), root_of_parent_ge hlt]

/-- To make a root point at a smaller one moves its group under that one. -/
theorem root_point_link (hlt : i < j) (hsize : j < f.parents.size) (hi : f.root i = i)
    (hj : f.root j = j) (k : Nat) :
    (f.point j i).root k = if f.root k = j then i else f.root k := by
  induction k using Nat.strongRecOn with
  | ind k ih =>
    by_cases hk : k = j
    · subst hk
      have hparent : (f.point k i).parent k = i := parent_point_self hsize
      rw [root_of_parent_lt (by omega), hparent, ih i hlt, hi, hj, if_neg (Nat.ne_of_lt hlt),
        if_pos rfl]
    · have hparent : (f.point j i).parent k = f.parent k := parent_point_of_ne hk
      by_cases hdown : f.parent k < k
      · rw [root_of_parent_lt (hparent ▸ hdown), hparent, ih _ hdown, root_of_parent_lt hdown]
      · rw [root_of_parent_ge (hparent ▸ hdown), root_of_parent_ge hdown, if_neg hk]

/-! ## 3. Looking up

A look-up is a chain of changes of the first kind. -/

/-- Only the ways get shorter: no root changes, and no number is added. -/
theorem compress_root {f : Forest} {r i : Nat} (h : f.root i = r) :
    (∀ k, (f.compress r i).root k = f.root k) ∧
      (f.compress r i).parents.size = f.parents.size := by
  induction i using Nat.strongRecOn generalizing f with
  | ind i ih =>
    subst h
    rw [compress]
    split
    · exact ⟨fun k => rfl, rfl⟩
    · split
      · rename_i hlt
        have hnext : (f.point i (f.root i)).root (f.parent i) = f.root i := by
          rw [root_point_root, ← root_of_parent_lt hlt]
        obtain ⟨hroots, hsize⟩ := ih _ hlt hnext
        exact ⟨fun k => (hroots k).trans (root_point_root f i k), hsize.trans (size_point ..)⟩
      · exact ⟨fun k => rfl, rfl⟩

/-- **Looking up changes no root.** -/
@[simp] theorem find_root (f : Forest) (i k : Nat) : (f.find i).2.root k = f.root k :=
  (compress_root rfl).1 k

@[simp] theorem size_find (f : Forest) (i : Nat) :
    (f.find i).2.parents.size = f.parents.size :=
  (compress_root rfl).2

/-- One more root is looked up, in the forest that the look-ups before have left. -/
def look (s : Forest × List Nat) (i : Nat) : Forest × List Nat :=
  ((s.1.find i).2, (s.1.find i).1 :: s.2)

theorem foldl_look : ∀ (is : List Nat) {g : Forest} {acc : List Nat}, g.root = f.root →
    (is.foldl look (g, acc)).2 = (is.map f.root).reverse ++ acc
  | [], _, _, _ => rfl
  | i :: rest, g, acc, hg => by
    have hsame : (g.find i).2.root = f.root := by
      funext k
      rw [find_root, hg]
    rw [List.foldl_cons, look, foldl_look rest hsame, List.map_cons, List.reverse_cons,
      List.append_assoc, List.singleton_append, ← hg]
    rfl

/-- **The roots, looked up one after the other, are the roots.** -/
theorem roots_eq (f : Forest) (n : Nat) : f.roots n = (List.range n).map f.root := by
  have hlook : f.roots n = ((List.range n).foldl look (f, [])).2.reverse := rfl
  rw [hlook, foldl_look _ rfl, List.append_nil, List.reverse_reverse]

/-! ## 4. Joining

A join is two look-ups and a change of the second kind. -/

/-- The forest in which `i` and `j` are looked up. -/
theorem union_eq (f : Forest) (i j : Nat) :
    ∃ g : Forest, g.root = f.root ∧ g.parents.size = f.parents.size ∧
      f.union i j =
        if f.root i < f.root j then g.point (f.root j) (f.root i)
        else if f.root j < f.root i then g.point (f.root i) (f.root j) else g := by
  have hroots : ((f.find i).2.find j).2.root = f.root := by
    funext k
    rw [find_root, find_root]
  have hfirst : ((f.find i).2.find j).1 = f.root j := find_root f i j
  refine ⟨((f.find i).2.find j).2, hroots, by rw [size_find, size_find], ?_⟩
  rw [← hfirst]
  rfl

/-- No number is added. -/
@[simp] theorem size_union (f : Forest) (i j : Nat) :
    (f.union i j).parents.size = f.parents.size := by
  obtain ⟨g, -, hsize, hunion⟩ := union_eq f i j
  rw [hunion, ← hsize]
  split
  · exact size_point ..
  · split
    · exact size_point ..
    · rfl

/-- **Joining moves the group with the greater root under the smaller root.** -/
theorem root_union (hi : i < f.parents.size) (hj : j < f.parents.size) (k : Nat) :
    (f.union i j).root k =
      if f.root k = max (f.root i) (f.root j) then min (f.root i) (f.root j) else f.root k := by
  obtain ⟨g, hroots, hsize, hunion⟩ := union_eq f i j
  have hgi : f.root i < g.parents.size := by
    rw [hsize]
    exact Nat.lt_of_le_of_lt (f.root_le i) hi
  have hgj : f.root j < g.parents.size := by
    rw [hsize]
    exact Nat.lt_of_le_of_lt (f.root_le j) hj
  have hself : ∀ l, g.root (f.root l) = f.root l := fun l => by rw [hroots, root_root]
  rw [hunion]
  rcases Nat.lt_trichotomy (f.root i) (f.root j) with hlt | heq | hgt
  · rw [if_pos hlt, root_point_link hlt hgj (hself i) (hself j), hroots,
      Nat.max_eq_right (Nat.le_of_lt hlt), Nat.min_eq_left (Nat.le_of_lt hlt)]
  · rw [heq, if_neg (Nat.lt_irrefl _), if_neg (Nat.lt_irrefl _), hroots, Nat.max_self,
      Nat.min_self]
    split
    · assumption
    · rfl
  · rw [if_neg (Nat.lt_asymm hgt), if_pos hgt, root_point_link hgt hgi (hself j) (hself i), hroots,
      Nat.max_eq_left (Nat.le_of_lt hgt), Nat.min_eq_right (Nat.le_of_lt hgt)]

/-- **Joining makes one group of two**, and leaves the others alone. -/
theorem root_union_eq_iff (hi : i < f.parents.size) (hj : j < f.parents.size) (x y : Nat) :
    (f.union i j).root x = (f.union i j).root y ↔
      f.root x = f.root y ∨ (f.root x = f.root i ∧ f.root j = f.root y) ∨
        (f.root x = f.root j ∧ f.root i = f.root y) := by
  rw [root_union hi hj, root_union hi hj]
  grind

end Forest
end Foreman
