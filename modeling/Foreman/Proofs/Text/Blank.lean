/-
# Trimming

A text is trimmed by dropping its blanks from the front and then from the end.

* `trimChars_eq_self_iff`: a text is left as it is exactly if no blank is at either end.
* `exists_trimmed`: what trimming takes away are blanks at the ends.
-/
import Foreman.Text.Blank
import Mathlib.Data.List.DropRight
import Mathlib.Data.List.TakeWhile

namespace Foreman.Text

/-- The text has no blank at either end. -/
def IsTrimmed (cs : List Char) : Prop :=
  (∀ c ∈ cs.head?, isBlank c = false) ∧ ∀ c ∈ cs.getLast?, isBlank c = false

instance (cs : List Char) : Decidable (IsTrimmed cs) :=
  decidable_of_iff
    ((cs.head?.all fun c => !isBlank c) && (cs.getLast?.all fun c => !isBlank c))
    (by simp [IsTrimmed, Option.all_eq_true])

theorem dropBlanks_suffix (cs : List Char) : dropBlanks cs <:+ cs := List.dropWhile_suffix _

theorem dropBlanksEnd_eq_rdropWhile (cs : List Char) :
    dropBlanksEnd cs = cs.rdropWhile isBlank := by
  induction cs with
  | nil => rfl
  | cons c cs ih =>
    rw [dropBlanksEnd, ih, List.rdropWhile, List.rdropWhile, List.reverse_cons,
      List.dropWhile_append]
    cases hrest : cs.reverse.dropWhile isBlank with
    | nil => cases hblank : isBlank c <;> simp [List.dropWhile, hblank]
    | cons d ds =>
      have hsome : (d :: ds).reverse ≠ [] := by simp
      split
      · rename_i hnil
        exact absurd hnil hsome
      · simp

theorem dropBlanksEnd_isPrefix (cs : List Char) : dropBlanksEnd cs <+: cs := by
  rw [dropBlanksEnd_eq_rdropWhile]
  exact List.rdropWhile_prefix _ _

theorem dropBlanks_eq_self_iff {cs : List Char} :
    dropBlanks cs = cs ↔ ∀ c ∈ cs.head?, isBlank c = false := by
  cases cs with
  | nil => simp [dropBlanks]
  | cons c cs => simp [dropBlanks, List.dropWhile_eq_self_iff]

theorem dropBlanksEnd_eq_self_iff {cs : List Char} :
    dropBlanksEnd cs = cs ↔ ∀ c ∈ cs.getLast?, isBlank c = false := by
  rw [dropBlanksEnd_eq_rdropWhile, List.rdropWhile_eq_self_iff]
  refine ⟨fun h c hc => ?_, fun h hne => ?_⟩
  · obtain ⟨hne, rfl⟩ := List.mem_getLast?_eq_getLast hc
    simpa using h hne
  · simpa using h _ (List.getLast_mem_getLast? hne)

theorem trimChars_sublist (cs : List Char) : (trimChars cs).Sublist cs :=
  (dropBlanksEnd_isPrefix _).sublist.trans (dropBlanks_suffix cs).sublist

/-- **A text is its own trimming exactly if no blank is at either end.** -/
theorem trimChars_eq_self_iff {cs : List Char} : trimChars cs = cs ↔ IsTrimmed cs := by
  rw [IsTrimmed, ← dropBlanks_eq_self_iff, ← dropBlanksEnd_eq_self_iff]
  refine ⟨fun h => ?_, fun ⟨hfront, hend⟩ => by rw [trimChars, hfront, hend]⟩
  have hfront : dropBlanks cs = cs := by
    refine (dropBlanks_suffix cs).eq_of_length_le ?_
    calc cs.length = (trimChars cs).length := by rw [h]
      _ ≤ (dropBlanks cs).length := (dropBlanksEnd_isPrefix _).length_le
  exact ⟨hfront, by rw [trimChars, hfront] at h; exact h⟩

/-- What trimming takes away: blanks at either end, and at the front if one is there. -/
theorem exists_trimmed (cs : List Char) : ∃ front back, cs = front ++ trimChars cs ++ back ∧
    (∀ c ∈ front, isBlank c = true) ∧ (∀ c ∈ back, isBlank c = true) ∧
    (front = [] ↔ ∀ c ∈ cs.head?, isBlank c = false) := by
  refine ⟨cs.takeWhile isBlank, (dropBlanks cs).rtakeWhile isBlank, ?_,
    fun c hc => List.mem_takeWhile_imp hc, fun c hc => List.mem_rtakeWhile_imp hc, ?_⟩
  · rw [trimChars, dropBlanksEnd_eq_rdropWhile, List.append_assoc,
      List.rdropWhile_append_rtakeWhile, dropBlanks, List.takeWhile_append_dropWhile]
  · cases cs with
    | nil => simp
    | cons c cs => cases hblank : isBlank c <;> simp [hblank]

end Foreman.Text
