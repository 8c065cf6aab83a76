/-
# How far a pattern reaches

Of a canonical pattern the overlap test uses less than its spelling: the text it begins with, up to
its first glob character, and whether anything may follow.  That is its `Reach`.  The root reaches
as far as the glob `*` does.

* `overlap_iff_meets`: the test in these words.  Two reaches meet if one stem begins with the
  other, and if both are closed only at the boundary of a path component.
* `intersects_congr_iff`: and it uses all of it.  Two patterns collide with the same patterns
  exactly if they have the same reach.

The second is proved by giving, for two reaches, a pattern that meets one of them only: the pattern
itself, or a stem that leaves the other one at the first character after it.

The reach is the abstraction between the spelling of a pattern and what it collides with.  It is
sound by `overlap_iff_meets`, and by `intersects_congr_iff` there is no coarser one.  So a
question about all patterns that a pattern collides with becomes one about two values.
-/
import Foreman.Proofs.Footprint.Canonical
import Foreman.Proofs.Text.Blank
import Mathlib.Data.List.Infix
import Mathlib.Data.List.TakeWhile

namespace Foreman
namespace Pattern

variable {a b q : List Char}

/-! ## 1. The reach of a pattern

The stem is what `literal_prefix` gives, and a pattern is open if `is_glob` holds of it. -/

/-- What the overlap test uses of a canonical pattern. -/
structure Reach where
  /-- The text in front of the first glob character. -/
  stem : List Char
  /-- Anything may follow. -/
  isOpen : Bool
deriving DecidableEq

/-- The reach of a canonical pattern. -/
def reach (q : List Char) : Reach := if q = ['.'] then ⟨[], true⟩ else ⟨literalStart q, isGlob q⟩

theorem reach_root : reach ['.'] = ⟨[], true⟩ := rfl

theorem reach_of_ne_root (h : q ≠ ['.']) : reach q = ⟨literalStart q, isGlob q⟩ := if_neg h

theorem literalStart_eq_self (h : isGlob q = false) : literalStart q = q := by
  refine List.takeWhile_eq_self_iff.mpr fun c hc => ?_
  rw [isGlob, List.any_eq_false] at h
  simpa using h c hc

/-- A literal pattern but the root is closed, and its stem is all of it. -/
theorem reach_of_literal (h : isGlob q = false) (hroot : q ≠ ['.']) : reach q = ⟨q, false⟩ := by
  rw [reach_of_ne_root hroot, literalStart_eq_self h, h]

theorem stem_isPrefix (q : List Char) : (reach q).stem <+: q := by
  unfold reach
  split
  · exact List.nil_prefix
  · exact List.takeWhile_prefix _

/-- A closed pattern is its stem. -/
theorem stem_eq_self (h : (reach q).isOpen = false) : (reach q).stem = q := by
  unfold reach at h ⊢
  split at h
  · cases h
  · rename_i hroot
    rw [if_neg hroot]
    exact literalStart_eq_self h

/-! ## 2. Reaches that meet

The four cases of `patterns_intersect` come down to one condition on two stems. -/

namespace Reach

/-- One text begins with the other. -/
def Comparable (a b : List Char) : Prop := a <+: b ∨ b <+: a

/-- The texts are the same path, or one is a path below the other. -/
def Nested (a b : List Char) : Prop := a = b ∨ a ++ ['/'] <+: b ∨ b ++ ['/'] <+: a

/-- Two reaches meet: their stems are comparable, and if both are closed, nested. -/
def Meets (r s : Reach) : Prop :=
  if r.isOpen = true ∨ s.isOpen = true then Comparable r.stem s.stem else Nested r.stem s.stem

theorem Nested.comparable (h : Nested a b) : Comparable a b := by
  rcases h with rfl | h | h
  · exact Or.inl (List.prefix_refl a)
  · exact Or.inl ((List.prefix_append a ['/']).trans h)
  · exact Or.inr ((List.prefix_append b ['/']).trans h)

/-- Whatever is open or not, stems that meet are comparable. -/
theorem Meets.comparable {r s : Reach} (h : Meets r s) : Comparable r.stem s.stem := by
  unfold Meets at h
  split at h
  · exact h
  · exact h.comparable

theorem meets_of_open {r s : Reach} (hopen : r.isOpen = true ∨ s.isOpen = true)
    (h : Comparable r.stem s.stem) : Meets r s := by
  unfold Meets
  rwa [if_pos hopen]

theorem meets_self (r : Reach) : Meets r r := by
  unfold Meets
  split
  · exact Or.inl (List.prefix_refl _)
  · exact Or.inl rfl

/-- Texts that differ after a common beginning are not comparable. -/
theorem not_comparable_of_split (stem : List Char) {c d : Char} (h : c ≠ d) (s t : List Char) :
    ¬ Comparable (stem ++ c :: s) (stem ++ d :: t) := by
  rintro (hp | hp)
  · rw [List.prefix_append_right_inj, List.cons_prefix_cons] at hp
    exact h hp.1
  · rw [List.prefix_append_right_inj, List.cons_prefix_cons] at hp
    exact h hp.1.symm

end Reach

theorem liesUnder_iff {dir path : List Char} :
    liesUnder dir path = true ↔ dir ++ ['/'] <+: path := by
  have hbegins : dir ++ ['/'] <+: path ↔
      ∃ rest, Text.afterPrefix? dir path = some ('/' :: rest) := by
    simp only [Text.afterPrefix?_eq_some_iff]
    exact exists_congr fun rest => by rw [List.append_assoc, List.singleton_append, eq_comm]
  rw [hbegins, liesUnder]
  split
  · rename_i rest hafter
    exact iff_of_true rfl ⟨rest, hafter⟩
  · rename_i hnone
    exact iff_of_false Bool.false_ne_true fun ⟨rest, hafter⟩ => hnone rest hafter

/-- **Patterns overlap exactly if their reaches meet.** -/
theorem overlap_iff_meets : overlap a b = true ↔ (reach a).Meets (reach b) := by
  unfold overlap
  split
  · rename_i h
    simp only [Bool.or_eq_true, decide_eq_true_eq, or_assoc] at h
    refine iff_of_true rfl ?_
    rcases h with rfl | rfl | rfl
    · exact Reach.meets_of_open (Or.inl rfl) (Or.inl List.nil_prefix)
    · exact Reach.meets_of_open (Or.inr rfl) (Or.inr List.nil_prefix)
    · exact Reach.meets_self _
  · rename_i h
    simp only [Bool.or_eq_true, decide_eq_true_eq, or_assoc, not_or] at h
    obtain ⟨ha, hb, hne⟩ := h
    rw [reach_of_ne_root ha, reach_of_ne_root hb, Reach.Meets]
    cases hglob : isGlob a || isGlob b with
    | true =>
      rw [if_pos rfl, if_pos (Bool.or_eq_true_iff.mp hglob), Bool.or_eq_true,
        Text.startsWithChars_iff, Text.startsWithChars_iff]
      exact or_comm
    | false =>
      rw [Bool.or_eq_false_iff] at hglob
      have hclosed : ¬ (isGlob a = true ∨ isGlob b = true) := by simp [hglob]
      rw [if_neg Bool.false_ne_true, if_neg hclosed, Bool.or_eq_true, liesUnder_iff, liesUnder_iff,
        literalStart_eq_self hglob.1, literalStart_eq_self hglob.2]
      exact (or_iff_right hne).symm

/-- Every pattern overlaps itself. -/
theorem overlap_self (a : List Char) : overlap a a = true :=
  overlap_iff_meets.mpr (Reach.meets_self _)

/-! ## 3. Patterns of a given spelling

To show that the test uses all of the reach, patterns are needed whose spelling is a given text. -/

/-- A pattern whose passes give a canonical text is spelled so. -/
theorem IsCanonical.canonical_of_passes (h : IsCanonical a) {cs : List Char}
    (hpasses : passes (Text.trimChars cs) = a) : canonical cs = a := by
  rw [canonical_eq_passes, hpasses, if_neg]
  rintro (hnil | hslash)
  · exact h.nonempty hnil
  · exact h.noTail (hslash ▸ List.suffix_refl _)

/-- With `./` in front a canonical text goes through the passes all the same. -/
theorem IsCanonical.passes_dotted (h : IsCanonical a) (hhead : a.head? ≠ some '/') :
    passes ('.' :: '/' :: a) = a := by
  have hback : '\\' ∉ '.' :: '/' :: a := by simpa using h.noBackslash
  have hdouble : ¬ ['/', '/'] <:+: '.' :: '/' :: a := by
    rw [List.infix_cons_iff, List.infix_cons_iff, prefix_pair_iff, prefix_pair_iff]
    rintro (⟨hdot, -⟩ | ⟨-, hslash⟩ | hwithin)
    · exact absurd hdot (by decide)
    · exact hhead hslash
    · exact h.noDouble hwithin
  rw [passes, map_toSlash_eq_self hback, squeeze_eq_self hdouble, dropDots,
    dropDots_eq_self h.noDot, dropSlashes_eq_self h.noTail]

/-- **Every canonical text that ends in no blank is the spelling of some pattern.**  With `./` in
front of it, a blank at its beginning is not trimmed. -/
theorem IsCanonical.exists_canonical_eq (h : IsCanonical a)
    (hlast : ∀ c ∈ a.getLast?, Text.isBlank c = false) : ∃ p : String, canonical p.toList = a := by
  by_cases hhead : a.head? = some '/'
  · refine ⟨String.ofList a, ?_⟩
    rw [String.toList_ofList]
    refine h.canonical_eq (Text.trimChars_eq_self_iff.mpr ⟨fun c hc => ?_, hlast⟩)
    rw [hhead] at hc
    cases hc
    rfl
  · refine ⟨String.ofList ('.' :: '/' :: a), ?_⟩
    rw [String.toList_ofList]
    refine h.canonical_of_passes ?_
    have htrim : Text.trimChars ('.' :: '/' :: a) = '.' :: '/' :: a := by
      refine Text.trimChars_eq_self_iff.mpr ⟨fun c hc => ?_, fun c hc => hlast c ?_⟩
      · cases hc
        rfl
      · rwa [List.getLast?_cons_cons, List.getLast?_cons_of_ne_nil h.nonempty] at hc
    rw [htrim, h.passes_dotted hhead]

/-- A beginning of a canonical text may be followed by any character but a separator. -/
theorem IsCanonical.concat (h : IsCanonical q) {stem : List Char} (hstem : stem <+: q) {c : Char}
    (hslash : c ≠ '/') (hback : c ≠ '\\') : IsCanonical (stem ++ [c]) := by
  have hend : ∀ cs t : List Char, cs ++ ['/'] ≠ t ++ [c] := fun _ _ heq =>
    hslash (List.singleton_inj.mp (List.append_inj' heq rfl).2).symm
  have htail : ∀ cs : List Char, ¬ cs ++ ['/'] <:+ stem ++ [c] := by
    intro cs hsuffix
    rcases List.suffix_concat_iff.mp hsuffix with hnil | ⟨t, heq, -⟩
    · exact absurd hnil (by simp)
    · exact hend _ _ heq
  refine ⟨?_, ?_, ?_, htail [], by simp⟩
  · rw [List.mem_append, List.mem_singleton, not_or]
    exact ⟨fun hmem => h.noBackslash (hstem.subset hmem), Ne.symm hback⟩
  · rw [List.infix_concat_iff, not_or]
    exact ⟨htail ['/'], fun hwithin => h.noDouble (hwithin.trans hstem.isInfix)⟩
  · rw [List.prefix_concat_iff, not_or]
    exact ⟨hend ['.'] _, fun hbegins => h.noDot (hbegins.trans hstem)⟩

/-! ## 4. The test uses all of the reach

For two different reaches a pattern is found that tells them apart. -/

theorem isGlob_stem (q : List Char) : isGlob (reach q).stem = false := by
  unfold reach
  split
  · rfl
  · rw [isGlob, List.any_eq_false]
    intro c hc
    simpa using List.mem_takeWhile_imp hc

theorem literalStart_append {stem : List Char} (h : isGlob stem = false) (cs : List Char) :
    literalStart (stem ++ cs) = stem ++ literalStart cs := by
  rw [isGlob, List.any_eq_false] at h
  exact List.takeWhile_append_of_pos fun c hc => by simpa using h c hc

/-- A path a little longer than the stem tells whether the pattern is open. -/
theorem overlap_longer (q : List Char) :
    overlap ((reach q).stem ++ ['a']) q = (reach q).isOpen := by
  generalize hstem : (reach q).stem = stem
  have hliteral : isGlob (stem ++ ['a']) = false := by
    have hnone := isGlob_stem q
    rw [hstem] at hnone
    rw [isGlob, List.any_append, ← isGlob, hnone]
    rfl
  have hroot : stem ++ ['a'] ≠ ['.'] := fun heq => by
    simpa using congrArg List.getLast? heq
  rw [Bool.eq_iff_iff, overlap_iff_meets, reach_of_literal hliteral hroot, Reach.Meets, hstem]
  cases (reach q).isOpen with
  | true =>
    have hcomparable : Reach.Comparable (stem ++ ['a']) stem := Or.inr (List.prefix_append _ _)
    simpa using hcomparable
  | false =>
    simp only [Bool.false_eq_true, or_self, if_false, iff_false]
    rintro (heq | hbelow | hbelow)
    · simpa using congrArg List.length heq
    · have hlength := hbelow.length_le
      simp only [List.length_append, List.length_singleton] at hlength
      omega
    · rw [List.prefix_append_right_inj, List.cons_prefix_cons] at hbelow
      exact absurd hbelow.1 (by decide)

/-- **A pattern is found that overlaps one of two patterns of different reach only**, if the stem
of one begins with that of the other. -/
theorem exists_overlap_ne {x y : List Char} (hy : IsCanonical y) (hne : reach x ≠ reach y)
    (hstem : (reach y).stem <+: (reach x).stem) :
    ∃ a, IsCanonical a ∧ (∀ c ∈ a.getLast?, Text.isBlank c = false) ∧
      overlap a x ≠ overlap a y := by
  obtain ⟨rest, hrest⟩ := hstem
  cases rest with
  | nil =>
    -- the stems are the same, so one is open and the other is not
    rw [List.append_nil] at hrest
    refine ⟨(reach y).stem ++ ['a'], hy.concat (stem_isPrefix y) (by decide) (by decide), ?_, ?_⟩
    · intro c hc
      rw [List.getLast?_concat] at hc
      cases hc
      rfl
    · rw [overlap_longer y, hrest, overlap_longer x]
      exact fun hopen => hne (Reach.mk.injEq _ _ _ _ ▸ ⟨hrest.symm, hopen⟩)
  | cons d rest =>
    -- a glob whose stem leaves that of `x` where that of `y` ends
    obtain ⟨c, hcd, hliteral, hslash, hback⟩ : ∃ c : Char, c ≠ d ∧ isGlob [c] = false ∧
        c ≠ '/' ∧ c ≠ '\\' := by
      by_cases hd : d = 'a'
      · exact ⟨'b', by rw [hd]; decide, by decide, by decide, by decide⟩
      · exact ⟨'a', Ne.symm hd, by decide, by decide, by decide⟩
    have hreach : reach ((reach y).stem ++ [c] ++ ['*']) = ⟨(reach y).stem ++ [c], true⟩ := by
      have hstart : literalStart ((reach y).stem ++ [c] ++ ['*']) = (reach y).stem ++ [c] := by
        have hplain : isGlob ((reach y).stem ++ [c]) = false := by
          rw [isGlob, List.any_append, ← isGlob, ← isGlob, isGlob_stem, hliteral]
          rfl
        rw [literalStart_append hplain]
        exact List.append_nil _
      have hroot : (reach y).stem ++ [c] ++ ['*'] ≠ ['.'] := fun heq => by
        simpa using congrArg List.getLast? heq
      rw [reach_of_ne_root hroot, hstart, isGlob, List.any_append]
      simp [isMeta]
    have hcanonical := (hy.concat (stem_isPrefix y) hslash hback).concat (List.prefix_refl _)
      (c := '*') (by decide) (by decide)
    refine ⟨_, hcanonical, ?_, ?_⟩
    · intro c hc
      rw [List.getLast?_concat] at hc
      cases hc
      rfl
    · have hmeets : overlap ((reach y).stem ++ [c] ++ ['*']) y = true := by
        rw [overlap_iff_meets, hreach]
        exact Reach.meets_of_open (Or.inl rfl) (Or.inr (List.prefix_append _ _))
      have hapart : overlap ((reach y).stem ++ [c] ++ ['*']) x ≠ true := by
        rw [Ne, overlap_iff_meets, hreach]
        refine fun h => Reach.not_comparable_of_split (reach y).stem hcd [] rest ?_
        rw [hrest]
        exact h.comparable
      rw [hmeets]
      exact hapart

/-- **Two patterns collide with the same patterns exactly if they have the same reach.** -/
theorem intersects_congr_iff (q q' : String) :
    (∀ p, intersects p q = intersects p q') ↔
      reach (canonical q.toList) = reach (canonical q'.toList) := by
  constructor
  · intro h
    by_contra hne
    have htell : ∀ a, IsCanonical a → (∀ c ∈ a.getLast?, Text.isBlank c = false) →
        overlap a (canonical q.toList) = overlap a (canonical q'.toList) := by
      intro a ha hlast
      obtain ⟨p, rfl⟩ := ha.exists_canonical_eq hlast
      exact h p
    have hmeets : overlap (canonical q.toList) (canonical q'.toList) = true :=
      (h q).symm.trans (overlap_self _)
    rcases (overlap_iff_meets.mp hmeets).comparable with hstem | hstem
    · obtain ⟨a, ha, hlast, htold⟩ :=
        exists_overlap_ne (canonical_isCanonical _) (Ne.symm hne) hstem
      exact htold (htell a ha hlast).symm
    · obtain ⟨a, ha, hlast, htold⟩ := exists_overlap_ne (canonical_isCanonical _) hne hstem
      exact htold (htell a ha hlast)
  · intro h p
    rw [Bool.eq_iff_iff, intersects, intersects, overlap_iff_meets, overlap_iff_meets, h]

end Pattern
end Foreman
