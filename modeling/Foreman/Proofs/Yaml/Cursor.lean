/-
# Moving over a known text

What a cursor does where the text in front of it is known: over a run of characters of one class,
over the end of a line, and over the blanks that indent the next one.

* `skipN_append`, `skipWhile_append`, `takeWhile_append`: a run, with something else behind it.
* `readLine_break`: the end of a line, if it is one of the three that a document is written with.
* `exists_run`, `exists_spaces`: a text is a run and what follows it.

These lemmas are what all others on scanning begin with: the text is a run and something behind
it, and the cursor comes to stand there.
-/
import Foreman.Yaml.Cursor
import Foreman.Yaml.Printer
import Mathlib.Data.List.TakeWhile

namespace Foreman
namespace Yaml

variable {p : Char → Bool} {pre rest : List Char} {i l k n : Nat} {x : Char}

/-! ## 1. Classes of characters

Which characters end a run. -/

/-- A character that neither ends a line nor stands between words. -/
def isInk (x : Char) : Bool := !isGap x && !isBreak x

theorem isInk_iff : isInk x = true ↔ isGap x = false ∧ isBreak x = false := by
  simp [isInk]

theorem not_isInk_iff : ¬isInk x = true ↔ (isGap x || isBreak x) = true := by
  unfold isInk
  cases isGap x <;> cases isBreak x <;> decide

/-- A line end that can be written as it is. -/
def isPlainBreak (x : Char) : Bool := isBreak x && isPrintable x

theorem isPlainBreak_iff : isPlainBreak x = true ↔ x = '\n' ∨ x = '\u2028' ∨ x = '\u2029' := by
  constructor
  · intro h
    simp only [isPlainBreak, isBreak, Bool.and_eq_true, Bool.or_eq_true, decide_eq_true_eq] at h
    obtain ⟨(((h | h) | h) | h) | h, hprint⟩ := h
    · exact Or.inl h
    · subst h
      cases hprint
    · subst h
      cases hprint
    · exact Or.inr (Or.inl h)
    · exact Or.inr (Or.inr h)
  · rintro (rfl | rfl | rfl) <;> rfl

theorem isBreak_of_isPlainBreak (h : isPlainBreak x = true) : isBreak x = true :=
  (Bool.and_eq_true _ _ ▸ h).1

theorem not_isGap_of_isBreak (h : isBreak x = true) : isGap x = false := by
  simp only [isBreak, Bool.or_eq_true, decide_eq_true_eq] at h
  rcases h with (((rfl | rfl) | rfl) | rfl) | rfl <;> rfl

/-- A gap that can be written as it is, is a space. -/
theorem eq_space_of_isGap (h : isGap x = true) (hprint : isPrintable x = true) : x = ' ' := by
  simp only [isGap, Bool.or_eq_true, decide_eq_true_eq] at h
  rcases h with rfl | rfl
  · rfl
  · cases hprint

/-- The text begins with ink, or is over. -/
def StartsInk (rest : List Char) : Prop := ∀ x ∈ rest.head?, isInk x = true

theorem startsInk_nil : StartsInk [] := nofun

@[simp] theorem startsInk_cons : StartsInk (x :: rest) ↔ isInk x = true := by simp [StartsInk]

@[simp] theorem spaces_zero : spaces 0 = [] := rfl

theorem spaces_succ (n : Nat) : spaces (n + 1) = ' ' :: spaces n := rfl

@[simp] theorem length_spaces (n : Nat) : (spaces n).length = n := List.length_replicate

theorem eq_space_of_mem_spaces (h : x ∈ spaces n) : x = ' ' := List.eq_of_mem_replicate h

/-- A text begins with a run of a class, which may be empty. -/
theorem exists_run {α : Type} (p : α → Bool) (cs : List α) :
    ∃ run more, cs = run ++ more ∧ (∀ x ∈ run, p x = true) ∧ ∀ x ∈ more.head?, p x = false := by
  refine ⟨cs.takeWhile p, cs.dropWhile p, List.takeWhile_append_dropWhile.symm,
    fun x => List.mem_takeWhile_imp, fun x hx => ?_⟩
  have h := List.head?_dropWhile_not p cs
  rw [Option.mem_def.mp hx] at h
  exact h

theorem exists_spaces (cs : List Char) :
    ∃ n more, cs = spaces n ++ more ∧ more.head? ≠ some ' ' := by
  obtain ⟨run, more, rfl, hrun, hmore⟩ := exists_run (· = ' ') cs
  refine ⟨run.length, more, ?_, fun h => by simpa using hmore ' ' h⟩
  rw [spaces, ← List.eq_replicate_of_mem fun x hx => of_decide_eq_true (hrun x hx)]

/-! ## 2. Over a run

Skipping and taking, with the counts of the cursor. -/

namespace Cursor

theorem skipN_append : ∀ (pre rest : List Char) (i l k : Nat),
    skipN pre.length ⟨pre ++ rest, i, l, k⟩ = ⟨rest, i + pre.length, l, k + pre.length⟩
  | [], rest, i, l, k => rfl
  | x :: pre, rest, i, l, k => by
    have ih := skipN_append pre rest (i + 1) l (k + 1)
    rw [List.length_cons, skipN]
    simp only [skip, List.cons_append, ih, Cursor.mk.injEq, true_and]
    omega

theorem takeWhile_run (h : ∀ x ∈ pre, p x = true) (hrest : ∀ x ∈ rest.head?, p x = false) :
    (pre ++ rest).takeWhile p = pre := by
  rw [List.takeWhile_append_of_pos h]
  cases rest with
  | nil => exact List.append_nil _
  | cons x rest => rw [List.takeWhile_cons_of_neg (by simp [hrest x rfl]), List.append_nil]

theorem skipWhile_append (h : ∀ x ∈ pre, p x = true) (hrest : ∀ x ∈ rest.head?, p x = false)
    (i l k : Nat) :
    skipWhile p ⟨pre ++ rest, i, l, k⟩ = ⟨rest, i + pre.length, l, k + pre.length⟩ := by
  rw [skipWhile, takeWhile_run h hrest, skipN_append]

theorem takeWhile_append (h : ∀ x ∈ pre, p x = true) (hrest : ∀ x ∈ rest.head?, p x = false)
    (i l k : Nat) :
    takeWhile p ⟨pre ++ rest, i, l, k⟩ = (pre, ⟨rest, i + pre.length, l, k + pre.length⟩) := by
  rw [takeWhile, takeWhile_run h hrest, skipN_append]

/-- Nothing is passed where the run is empty. -/
theorem skipWhile_self (hrest : ∀ x ∈ rest.head?, p x = false) (i l k : Nat) :
    skipWhile p ⟨rest, i, l, k⟩ = ⟨rest, i, l, k⟩ :=
  skipWhile_append (List.forall_mem_nil _) hrest i l k

theorem gapOrStopAt_one (x : Char) (rest : List Char) (i l k : Nat) :
    gapOrStopAt ⟨x :: rest, i, l, k⟩ 1 = isApart rest.head? := by
  cases rest <;> rfl

/-! ## 3. Over the end of a line

A line feed moves the cursor to the first column of the next line. -/

theorem readLine_break (h : isPlainBreak x = true) (rest : List Char) (i l k : Nat) :
    readLine ⟨x :: rest, i, l, k⟩ = ([x], ⟨rest, i + 1, l + 1, 0⟩) := by
  rcases isPlainBreak_iff.mp h with rfl | rfl | rfl <;> rfl

/-- A marker of documents stands at the start of a line. -/
theorem not_isDocumentMarker {c : Cursor} (h : c.column ≠ 0) : c.isDocumentMarker = false := by
  simp [isDocumentMarker, isMarker, h]

end Cursor
end Yaml
end Foreman
