/-
# Lists whose elements have distinct names

Tasks and workers are found by name, and where names are distinct a name stands for one element.
Three facts about a list `xs` with `(xs.map key).Nodup`:

* `find?_key_eq_some_iff`: a look-up finds exactly the element of that name;
* `List.inj_on_of_nodup_map`, of the library: two elements of one name are one element;
* `perm_flatMap_filter_key`: a list in which everything belongs to some element is the lists of
  what belongs to each, one after the other, up to order.

Both kinds of names, `Task.id` and `Worker.id`, are keys in this sense, and the lemmas on
look-ups of either are instances.
-/
import Mathlib.Data.List.Nodup

namespace Foreman

variable {α β : Type}

theorem find?_key_mem {key : α → String} {xs : List α} {name : String} {x : α}
    (h : (xs.find? fun y => key y = name) = some x) : x ∈ xs ∧ key x = name :=
  ⟨List.mem_of_find?_eq_some h, by simpa using List.find?_some h⟩

/-- A look-up by name finds exactly the element of that name. -/
theorem find?_key_eq_some_iff {key : α → String} {xs : List α} (h : (xs.map key).Nodup)
    {name : String} {x : α} :
    (xs.find? fun y => key y = name) = some x ↔ x ∈ xs ∧ key x = name := by
  refine ⟨find?_key_mem, fun ⟨hx, hname⟩ => ?_⟩
  cases hfind : xs.find? fun y => key y = name with
  | none => exact absurd hname (by simpa using List.find?_eq_none.mp hfind x hx)
  | some y =>
    obtain ⟨hy, hyname⟩ := find?_key_mem hfind
    rw [List.inj_on_of_nodup_map h hy hx (hyname.trans hname.symm)]

/-- Elements of a list that each belong to a named owner, gathered by owner. -/
theorem perm_flatMap_filter_key {γ : Type} [DecidableEq γ] {key : α → γ} (owner : β → γ)
    {ys : List β} :
    ∀ {xs : List α}, (xs.map key).Nodup → (∀ y ∈ ys, owner y ∈ xs.map key) →
      ys.Perm (xs.flatMap fun x => ys.filter fun y => owner y = key x)
  | [], _, hown => by
    cases ys with
    | nil => exact List.Perm.refl _
    | cons y ys => exact absurd (hown y List.mem_cons_self) List.not_mem_nil
  | x :: xs, hnd, hown => by
    rw [List.map_cons, List.nodup_cons] at hnd
    -- the rest owns what `x` does not own, and nothing else
    have hrest : ∀ y ∈ ys.filter fun y => !decide (owner y = key x), owner y ∈ xs.map key := by
      intro y hy
      obtain ⟨hmem, hne⟩ := List.mem_filter.mp hy
      exact (List.mem_cons.mp (hown y hmem)).resolve_left (by simpa using hne)
    have hsame : (xs.flatMap fun x' => (ys.filter fun y => !decide (owner y = key x)).filter
        fun y => owner y = key x') = xs.flatMap fun x' => ys.filter fun y => owner y = key x' := by
      refine List.flatMap_congr fun x' hx' => ?_
      rw [List.filter_filter]
      refine List.filter_congr fun y _ => ?_
      by_cases hy : owner y = key x'
      · have hne : key x' ≠ key x := fun e => hnd.1 (e ▸ List.mem_map_of_mem hx')
        simp [hy, hne]
      · simp [hy]
    have ih := perm_flatMap_filter_key owner hnd.2 hrest
    rw [hsame] at ih
    rw [List.flatMap_cons]
    exact (List.filter_append_perm (fun y => decide (owner y = key x)) ys).symm.trans
      (ih.append_left _)

end Foreman
