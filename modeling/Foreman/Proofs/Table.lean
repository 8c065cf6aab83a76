/-
# The order in a table

The keys of a table stand in order, and each of them once.  So a table is told by its entries: one
that is filled with them again, in their order, is the same table.

* `IsSorted.ofList_entries`: filled with its own entries, a table in order is itself.
* `IsSorted.insert_eq_self_iff`: an insertion changes a table in order unless the entry is there.

A table that is read from a document is filled entry by entry, and one that is written gives its
entries in order; so the two lemmas are what a round trip needs of tables.
-/
import Foreman.Table

namespace Foreman
namespace Table

variable {α : Type} {key : String} {value : α} {entries : List (String × α)} {t : Table α}

/-- Every key is less than those behind it. -/
def IsSorted (t : Table α) : Prop := t.entries.Pairwise fun a b => a.1 < b.1

instance (t : Table α) : Decidable t.IsSorted := inferInstanceAs (Decidable (List.Pairwise _ _))

/-- A key behind all others is put at the end. -/
theorem place_of_forall_lt : ∀ {entries : List (String × α)}, (∀ e ∈ entries, e.1 < key) →
    place key value entries = entries ++ [(key, value)]
  | [], _ => rfl
  | (k, v) :: rest, h => by
    have hk : k < key := h _ List.mem_cons_self
    have hne : k ≠ key := fun heq => String.lt_irrefl key (heq ▸ hk)
    rw [place, if_neg hne, if_neg (String.lt_asymm hk),
      place_of_forall_lt fun e he => h e (List.mem_cons_of_mem _ he)]
    rfl

theorem exists_of_lookup : ∀ {entries : List (String × α)}, lookup key entries = some value →
    ∃ e ∈ entries, e.1 = key
  | [], h => by cases h
  | (k, v) :: rest, h => by
    rw [lookup] at h
    split at h
    · exact ⟨_, List.mem_cons_self, ‹_›⟩
    · obtain ⟨e, he, hkey⟩ := exists_of_lookup h
      exact ⟨e, List.mem_cons_of_mem _ he, hkey⟩

theorem mem_keys_insert {k : String} : k ∈ (t.insert key value).keys ↔ k = key ∨ k ∈ t.keys := by
  obtain ⟨entries⟩ := t
  unfold keys Table.insert
  dsimp only
  induction entries with
  | nil => simp [place]
  | cons e rest ih => grind [place]

/-- A table that is filled from nothing has the keys it is filled with. -/
theorem mem_keys_ofList {k : String} : k ∈ (ofList entries).keys ↔ ∃ e ∈ entries, e.1 = k := by
  have hfold : ∀ (entries : List (String × α)) (t : Table α),
      k ∈ (entries.foldl (fun t e => t.insert e.1 e.2) t).keys ↔
        k ∈ t.keys ∨ ∃ e ∈ entries, e.1 = k := by
    intro entries
    induction entries with
    | nil => simp
    | cons e rest ih =>
      intro t
      rw [List.foldl_cons, ih, mem_keys_insert]
      grind
  rw [ofList, hfold]
  simp [keys, empty]

namespace IsSorted

/-- **Filled with its own entries, a table is itself.** -/
theorem ofList_entries (h : t.IsSorted) : Table.ofList t.entries = t := by
  have hfold : ∀ (rest front : List (String × α)),
      (front ++ rest).Pairwise (fun a b => a.1 < b.1) →
        rest.foldl (fun (t : Table α) e => t.insert e.1 e.2) ⟨front⟩ = ⟨front ++ rest⟩ := by
    intro rest
    induction rest with
    | nil => exact fun front _ => by rw [List.append_nil]; rfl
    | cons e rest ih =>
      intro front hsorted
      have hbehind : ∀ f ∈ front, f.1 < e.1 := fun f hf =>
        (List.pairwise_append.mp hsorted).2.2 f hf e List.mem_cons_self
      have hput : (Table.mk front).insert e.1 e.2 = ⟨front ++ [e]⟩ := by
        rw [Table.insert, place_of_forall_lt hbehind]
      have hassoc : front ++ e :: rest = front ++ [e] ++ rest := by simp
      rw [hassoc] at hsorted ⊢
      rw [List.foldl_cons, hput, ih _ hsorted]
  exact hfold t.entries [] h

/-- **To put in what a table has already changes nothing.** -/
theorem insert_eq_self_iff (h : t.IsSorted) :
    t.insert key value = t ↔ t.get? key = some value := by
  constructor
  · intro hsame
    rw [← hsame, get?_insert, if_pos rfl]
  · obtain ⟨entries⟩ := t
    unfold IsSorted at h
    rw [get?, Table.insert, mk.injEq]
    dsimp only at h ⊢
    induction entries with
    | nil => exact fun hget => by cases hget
    | cons e rest ih =>
      obtain ⟨k, v⟩ := e
      obtain ⟨hfront, hrest⟩ := List.pairwise_cons.mp h
      intro hget
      rw [lookup] at hget
      rw [place]
      split at hget
      · rename_i hk
        cases hget
        rw [if_pos hk, hk]
      · rename_i hne
        obtain ⟨e, he, rfl⟩ := exists_of_lookup hget
        rw [if_neg hne, if_neg (String.lt_asymm (hfront e he)), ih hrest hget]

end IsSorted
end Table
end Foreman
