/-
# Records that are written and read by their fields

A record is written from slots: each has a name and the value that stands in it, or none, and then
the field is left out.  Where no two slots have one name, the record is taken as one whose field
is what stands in the slot.

Values and lists are read back by what reads their parts back, and so are tables, whose keys stand
in order.

* `asFields?_filled`: the fields of a written record.
* `asList?_map`, `asTable?_map`: lists and tables.
* `need?_of_some`, `getD?_of_some`, `maybe?_of_map`: what is read of one field.

The lemmas on the parts of a state come down to these: a record is written as `filled` slots,
and a reader that asks for a slot by its name gets what stands in it.
-/
import Foreman.Proofs.Json.RoundTrip
import Foreman.Proofs.Table
import Foreman.Proofs.Time.Rfc3339
import Foreman.Task.Basic

namespace Foreman
namespace Json

variable {α : Type} {name : String} {slots : List (String × Option Json)}

/-! ## 1. Slots

A list of names with values, some of which are missing. -/

/-- The fields of the slots in which a value stands. -/
def filled (slots : List (String × Option Json)) : List (String × Json) :=
  slots.filterMap fun s => s.2.map (s.1, ·)

/-- What stands in the slot of that name. -/
def slot (slots : List (String × Option Json)) (name : String) : Option Json :=
  (slots.find? fun s => s.1 = name).bind Prod.snd

@[simp] theorem filled_nil : filled [] = [] := rfl

@[simp] theorem filled_cons_some (name : String) (j : Json) (slots : List (String × Option Json)) :
    filled ((name, some j) :: slots) = (name, j) :: filled slots := rfl

@[simp] theorem filled_cons_map (name : String) (w : α → Json) (v : Option α)
    (slots : List (String × Option Json)) :
    filled ((name, v.map w) :: slots) = optional name w v ++ filled slots := by
  cases v <;> rfl

theorem mem_filled {f : String × Json} : f ∈ filled slots ↔ (f.1, some f.2) ∈ slots := by
  rw [filled, List.mem_filterMap]
  constructor
  · rintro ⟨⟨k, o⟩, hs, heq⟩
    obtain ⟨j, rfl, rfl⟩ := Option.map_eq_some_iff.mp heq
    exact hs
  · exact fun hs => ⟨_, hs, rfl⟩

theorem names_filled_sublist (slots : List (String × Option Json)) :
    ((filled slots).map Prod.fst).Sublist (slots.map Prod.fst) := by
  induction slots with
  | nil => exact List.Sublist.refl _
  | cons s slots ih =>
    obtain ⟨k, _ | j⟩ := s
    · exact ih.cons _
    · exact ih.cons_cons _

theorem countField_le_one {fields : List (String × Json)} (h : (fields.map Prod.fst).Nodup)
    (name : String) : countField name fields ≤ 1 := by
  have hcount := List.nodup_iff_count.mp h name
  rwa [List.count, List.countP_map] at hcount

theorem slot_cons (k : String) (o : Option Json) (slots : List (String × Option Json))
    (name : String) :
    slot ((k, o) :: slots) name = if k = name then o else slot slots name := by
  by_cases hk : k = name
  · simp [slot, hk]
  · simp [slot, hk]

theorem lastField?_filled (h : (slots.map Prod.fst).Nodup) (name : String) :
    lastField? name (filled slots) = slot slots name := by
  induction slots with
  | nil => rfl
  | cons s slots ih =>
    obtain ⟨k, o⟩ := s
    obtain ⟨hk, hrest⟩ := List.nodup_cons.mp h
    rw [slot_cons]
    split
    · -- no field behind it has the name
      subst k
      have hnone : slot slots name = none := by
        have hfind : slots.find? (fun s => s.1 = name) = none :=
          List.find?_eq_none.mpr fun s hs => by
            simpa using fun heq : s.1 = name => hk (List.mem_map.mpr ⟨s, hs, heq⟩)
        rw [slot, hfind]
        rfl
      cases o with
      | none => exact (ih hrest).trans hnone
      | some j =>
        rw [filled_cons_some, lastField?, ih hrest, hnone]
        exact if_pos rfl
    · rename_i hne
      cases o with
      | none => exact ih hrest
      | some j =>
        rw [filled_cons_some, lastField?, ih hrest]
        cases slot slots name with
        | none => exact if_neg hne
        | some w => rfl

/-- **The fields of a record are what stands in its slots.** -/
theorem asFields?_filled (names : List String) (h : (slots.map Prod.fst).Nodup) :
    asFields? names (.record (filled slots)) = some (slot slots) := by
  have hfields : ((filled slots).map Prod.fst).Nodup := (names_filled_sublist slots).nodup h
  rw [asFields?, if_pos (by simp [countField_le_one hfields])]
  exact congrArg some (funext fun name => lastField?_filled h name)

/-! ## 2. Values

Numbers, texts and instants, each with its reader. -/

variable {f : Fields} {item : Json → Option α} {w : α → Json} {j : Json} {v : α}

theorem asNat?_ofNat {n bound : Nat} (h : n < bound) : asNat? bound (ofNat n) = some n := by
  rw [ofNat, asNat?, if_pos (by omega), Int.toNat_natCast]

theorem asInstant?_ofInstant {t : Instant} (h : t.IsWritable) :
    asInstant? (ofInstant t) = some t :=
  (Rfc3339.read?_write_iff h.1).mpr h.2

/-- Parts are read back together if each of them is. -/
theorem mapM_map {β : Type} {f : β → Option α} {g : α → β} : ∀ {xs : List α},
    (∀ x ∈ xs, f (g x) = some x) → (xs.map g).mapM f = some xs
  | [], _ => rfl
  | x :: xs, h => by
    rw [List.map_cons, List.mapM_cons, h x List.mem_cons_self,
      mapM_map fun y hy => h y (List.mem_cons_of_mem _ hy)]
    rfl

theorem asList?_map {xs : List α} (h : ∀ x ∈ xs, item (w x) = some x) :
    asList? item (.list (xs.map w)) = some xs := mapM_map h

theorem asTable?_map {t : Table α} (hsorted : t.IsSorted)
    (h : ∀ e ∈ t.entries, item (w e.2) = some e.2) :
    asTable? item (.record (t.map w).entries) = some t := by
  have hentries : (t.map w).entries.mapM
      (fun (e : String × Json) => (item e.2).map (e.1, ·)) = some t.entries :=
    mapM_map fun e he => by rw [h e he]; rfl
  rw [asTable?, hentries, Option.map_some, hsorted.ofList_entries]

/-! ## 3. What is read of a slot

The three ways to ask for a field: it has to be there, it has a default, or it may be missing. -/

/-- What is read of one field, and then what is read of the others. -/
theorem bind_of_eq_some {β : Type} {o : Option α} {g : α → Option β} {b : β} (ho : o = some v)
    (hg : g v = some b) : (o >>= g) = some b := by
  rw [ho]
  exact hg

theorem getD?_of_some {default : α} (hf : f name = some j) (hj : item j = some v) :
    f.getD? name item default = some v := by
  rw [Fields.getD?, hf]
  exact hj

theorem getD?_nat {n default bound : Nat} (hf : f name = some (ofNat n)) (h : n < bound) :
    f.getD? name (asNat? bound) default = some n :=
  getD?_of_some hf (asNat?_ofNat h)

theorem need?_of_some (hf : f name = some j) (hj : item j = some v) :
    f.need? name item = some v := by
  rw [Fields.need?, hf, Option.bind_some, hj]

theorem need?_text {s : String} (hf : f name = some (.text s)) : f.need? name asText? = some s :=
  need?_of_some hf rfl

theorem need?_instant {t : Instant} (hf : f name = some (ofInstant t)) (h : t.IsWritable) :
    f.need? name asInstant? = some t :=
  need?_of_some hf (asInstant?_ofInstant h)

/-- A value that may be missing is read back if null is no value. -/
theorem maybe?_of_map {o : Option α} (hf : f name = o.map w) (hnull : item .null = none)
    (hitem : ∀ v ∈ o, item (w v) = some v) : f.maybe? name item = some o := by
  cases o with
  | none =>
    rw [Fields.maybe?, Fields.getD?, hf]
    rfl
  | some v =>
    have hv : item (w v) = some v := hitem v rfl
    have hoption : asOption? item (w v) = some (some v) := by
      unfold asOption?
      split
      · rename_i heq
        rw [heq, hnull] at hv
        cases hv
      · rw [hv]
        rfl
    exact getD?_of_some hf hoption

theorem maybe?_text {o : Option String} (hf : f name = o.map .text) :
    f.maybe? name asText? = some o :=
  maybe?_of_map hf rfl fun _ _ => rfl

theorem maybe?_nat {o : Option Nat} {bound : Nat} (hf : f name = o.map ofNat)
    (h : ∀ n ∈ o, n < bound) : f.maybe? name (asNat? bound) = some o :=
  maybe?_of_map hf rfl fun n hn => asNat?_ofNat (h n hn)

theorem maybe?_instant {o : Option Instant} (hf : f name = o.map ofInstant)
    (h : ∀ t ∈ o, t.IsWritable) : f.maybe? name asInstant? = some o :=
  maybe?_of_map hf rfl fun t ht => asInstant?_ofInstant (h t ht)

/-! ## 4. Nothing is lost

Which values keep all of their digits in the text. -/

theorem isExact_filled (h : ∀ s ∈ slots, ∀ j ∈ s.2, IsExact j) : IsExact (.record (filled slots)) :=
  .record fun f hf => h _ (mem_filled.mp hf) f.2 rfl

theorem isExact_list {xs : List α} (h : ∀ x ∈ xs, IsExact (w x)) :
    IsExact (.list (xs.map w)) := by
  refine .list fun j hj => ?_
  obtain ⟨x, hx, rfl⟩ := List.mem_map.mp hj
  exact h x hx

theorem isExact_table {t : Table α} (h : ∀ e ∈ t.entries, IsExact (w e.2)) :
    IsExact (.record (t.map w).entries) := by
  refine .record fun f hf => ?_
  obtain ⟨e, he, rfl⟩ := List.mem_map.mp hf
  exact h e he

theorem isExact_ofNat {n : Nat} (h : n < Text.bound64) : IsExact (ofNat n) := by
  refine .integer ?_ ?_ <;> omega

theorem isExact_ofInstant (t : Instant) : IsExact (ofInstant t) := .text _

end Json
end Foreman
