/-
# Pieces and lines

To cut a text at a separator and to join the pieces undo each other, as they do for lists in the
library, so its lemmas are taken over here.

The lines of a text are the pieces between its line feeds, but an empty piece at the end is no
line, and a carriage return in front of a line feed belongs to no line.  Who trims the lines and
has no use for a blank one sees no difference, and can look at the pieces.

* `splitOnChar_eq_splitOn`, `toList_joinWith`: the library's operations.
* `split_append`, `joinWith_split`: joining pieces, and cutting them apart.
* `filterMap_lines`: what is taken from trimmed lines is what is taken from trimmed pieces.
-/
import Foreman.Proofs.Text.Blank
import Foreman.Text.Search

namespace Foreman.Text

variable {sep : Char} {cs : List Char}

/-! ## 1. Pieces

Cutting and joining at one character. -/

theorem splitOnChar_eq_splitOn (sep : Char) (cs : List Char) :
    splitOnChar sep cs = cs.splitOn sep := by
  induction cs with
  | nil => rfl
  | cons c cs ih =>
    rw [splitOnChar, List.splitOn_cons_eq_if_modifyHead, ih]
    by_cases hc : c = sep
    · simp [hc]
    · simp only [hc, if_false, beq_iff_eq]
      cases hpieces : cs.splitOn sep with
      | nil => exact absurd hpieces (List.splitOn_ne_nil sep cs)
      | cons piece rest => rfl

theorem toList_joinWith (sep : String) : ∀ pieces : List String,
    (joinWith sep pieces).toList = sep.toList.intercalate (pieces.map String.toList)
  | [] => rfl
  | [s] => List.intercalate_singleton.symm
  | s :: t :: rest => by
    rw [joinWith, List.map_cons, List.map_cons, List.intercalate_cons_cons, String.toList_append,
      String.toList_append, toList_joinWith sep (t :: rest), List.map_cons]
    exact List.cons_ne_nil _ _

theorem joinWith_concat (sep last : String) : ∀ pieces : List String, pieces ≠ [] →
    joinWith sep (pieces ++ [last]) = joinWith sep pieces ++ sep ++ last
  | [], h => absurd rfl h
  | [s], _ => rfl
  | s :: u :: rest, _ => by
    have ih := joinWith_concat sep last (u :: rest) (List.cons_ne_nil _ _)
    show s ++ sep ++ joinWith sep (u :: rest ++ [last]) =
      s ++ sep ++ joinWith sep (u :: rest) ++ sep ++ last
    rw [ih, ← String.append_assoc, ← String.append_assoc]

/-- The pieces of a text that is put together at a separator. -/
theorem split_append (a b : String) (sep : Char) :
    split (a ++ String.singleton sep ++ b) sep = split a sep ++ split b sep := by
  have hchars : (a ++ String.singleton sep ++ b).toList = a.toList ++ sep :: b.toList := by simp
  rw [split, hchars, splitOnChar_eq_splitOn, List.splitOn_append_cons_self, List.map_append,
    ← splitOnChar_eq_splitOn, ← splitOnChar_eq_splitOn, split, split]

theorem split_of_notMem {s : String} (h : sep ∉ s.toList) : split s sep = [s] := by
  rw [split, splitOnChar_eq_splitOn, List.splitOn_eq_singleton h]
  simp

theorem notMem_of_mem_splitOnChar : ∀ {cs piece : List Char},
    piece ∈ splitOnChar sep cs → sep ∉ piece
  | [], piece, h => by
    rw [List.mem_singleton.mp h]
    exact List.not_mem_nil
  | c :: cs, piece, h => by
    have ih : ∀ {p : List Char}, p ∈ splitOnChar sep cs → sep ∉ p := notMem_of_mem_splitOnChar
    rw [splitOnChar] at h
    split at h
    · rcases List.mem_cons.mp h with rfl | h
      · exact List.not_mem_nil
      · exact ih h
    · rename_i hc
      split at h
      · rw [List.mem_singleton.mp h, List.mem_singleton]
        exact Ne.symm hc
      · rename_i front rest hpieces
        rcases List.mem_cons.mp h with rfl | h
        · rw [List.mem_cons, not_or]
          exact ⟨Ne.symm hc, ih (hpieces ▸ List.mem_cons_self)⟩
        · exact ih (hpieces ▸ List.mem_cons_of_mem _ h)

/-- No piece has the separator. -/
theorem notMem_of_mem_split {s p : String} (h : p ∈ split s sep) : sep ∉ p.toList := by
  obtain ⟨piece, hpiece, rfl⟩ := List.mem_map.mp h
  rw [String.toList_ofList]
  exact notMem_of_mem_splitOnChar hpiece

/-- **The pieces of a text make up the text.** -/
theorem joinWith_split (s : String) (sep : Char) :
    joinWith (String.singleton sep) (split s sep) = s := by
  have hpieces : (split s sep).map String.toList = s.toList.splitOn sep := by
    rw [split, splitOnChar_eq_splitOn, List.map_map]
    simp [Function.comp_def]
  rw [← String.toList_inj, toList_joinWith, String.toList_singleton, hpieces,
    List.intercalate_splitOn]

/-! ## 2. Lines

Pieces at line feeds, as `Text.lines` has them. -/

/-- A blank at the end is trimmed away. -/
theorem trimChars_concat {c : Char} (hc : isBlank c = true) (cs : List Char) :
    trimChars (cs ++ [c]) = trimChars cs := by
  rw [trimChars, trimChars, dropBlanksEnd_eq_rdropWhile, dropBlanksEnd_eq_rdropWhile, dropBlanks,
    dropBlanks, List.dropWhile_append]
  cases hrest : cs.dropWhile isBlank with
  | nil => simp [hc]
  | cons d rest =>
    rw [List.isEmpty_cons, if_neg Bool.false_ne_true]
    exact List.rdropWhile_concat_pos isBlank _ _ hc

theorem dropReturn_eq_or (cs : List Char) :
    dropReturn cs = cs ∨ cs = dropReturn cs ++ ['\r'] := by
  fun_induction dropReturn cs with
  | case1 => exact Or.inl rfl
  | case2 => exact Or.inr rfl
  | case3 c cs _ ih =>
    rcases ih with ih | ih
    · exact Or.inl (by rw [ih])
    · exact Or.inr (congrArg (c :: ·) ih)

/-- A carriage return at the end is trimmed away. -/
theorem trimChars_dropReturn (cs : List Char) : trimChars (dropReturn cs) = trimChars cs := by
  rcases dropReturn_eq_or cs with heq | heq
  · rw [heq]
  · conv_rhs => rw [heq]
    exact (trimChars_concat (by decide) _).symm

theorem filterMap_linesOfPieces {α : Type} {f : List Char → Option α} (hblank : f [] = none) :
    ∀ pieces : List (List Char), (linesOfPieces pieces).filterMap (fun l => f (trimChars l)) =
      pieces.filterMap fun l => f (trimChars l)
  | [] => rfl
  | [last] => by
    rw [linesOfPieces]
    split
    · rename_i hlast
      have hnone : f (trimChars last) = none := by rw [hlast]; exact hblank
      simp [hnone]
    · rfl
  | piece :: next :: rest => by
    rw [linesOfPieces, List.filterMap_cons, List.filterMap_cons, trimChars_dropReturn,
      filterMap_linesOfPieces hblank (next :: rest)]
    exact List.cons_ne_nil _ _

/-- **What is taken from the trimmed lines of a text is what is taken from its pieces**, if
nothing is taken from a blank one. -/
theorem filterMap_lines {α : Type} {f : String → Option α} (hblank : f "" = none) (s : String) :
    (lines s).filterMap (fun l => f (trim l)) = (split s '\n').filterMap fun l => f (trim l) := by
  have hchars := filterMap_linesOfPieces (f := fun cs => f (String.ofList cs)) hblank
    (splitOnChar '\n' s.toList)
  rw [lines, linesChars, split, List.filterMap_map, List.filterMap_map]
  simpa [Function.comp_def, trim] using hchars

/-- Some trimmed line has a property exactly if some trimmed piece has it, if a blank one has it
not. -/
theorem any_lines {p : String → Bool} (hblank : p "" = false) (s : String) :
    (lines s).any (fun l => p (trim l)) = (split s '\n').any fun l => p (trim l) := by
  have hnone : ∀ pieces : List String, pieces.any (fun l => p (trim l)) = false ↔
      pieces.filterMap (fun l => if p (trim l) then some (trim l) else none) = [] := by
    simp [List.filterMap_eq_nil_iff]
  rw [← Bool.not_inj_iff, Bool.eq_iff_iff, Bool.not_eq_true', Bool.not_eq_true', hnone, hnone,
    filterMap_lines (f := fun l => if p l then some l else none) (by simp [hblank])]

end Foreman.Text
