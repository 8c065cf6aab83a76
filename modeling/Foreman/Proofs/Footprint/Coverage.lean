/-
# What a pattern covers

Whether two patterns overlap is decided on their spelling; what matters is whether a path can match
both.  `Covers` says what the spelling of a canonical pattern tells of the paths it matches: the
root matches all of them, a literal pattern itself and what lies under it, and a glob only paths
that begin with the text before its first glob character, whichever of those a matcher takes.

* `covers_iff`: a pattern covers the paths in its reach.
* `overlap_of_covers`: patterns that cover a common path overlap.
* `overlap_iff_covers`: literal patterns overlap only if they cover a common path.
* `intersects_iff_covers`: both, for patterns as they are written.

The converse is lost with globs: `web/ab*` and `web/a` overlap by their spelling, but no path that
begins with `web/ab` is `web/a` or lies under it.

How a glob is matched is not decided here, since the program never matches one against a path.
So `Covers` takes the largest set of paths that any matcher could: the test may find an overlap
where no file is, and it may not miss one.
-/
import Foreman.Proofs.Footprint.Reach

namespace Foreman
namespace Pattern

variable {a b q f : List Char}

/-! ## 1. Paths in the reach of a pattern

From the spelling to the reach, which is what the test uses. -/

/-- What the spelling of a canonical pattern tells of the paths it covers. -/
def Covers (q f : List Char) : Prop :=
  q = ['.'] ∨
    isGlob q = false ∧ (f = q ∨ q ++ ['/'] <+: f) ∨
    isGlob q = true ∧ literalStart q <+: f

/-- The path begins with the stem, at the boundary of a component if nothing else may follow. -/
def Reach.Holds (r : Reach) (f : List Char) : Prop :=
  if r.isOpen = true then r.stem <+: f else f = r.stem ∨ r.stem ++ ['/'] <+: f

theorem Reach.Holds.stem_prefix {r : Reach} (h : r.Holds f) : r.stem <+: f := by
  unfold Holds at h
  split at h
  · exact h
  · rcases h with rfl | hbelow
    · exact List.prefix_refl _
    · exact (List.prefix_append _ _).trans hbelow

/-- **A pattern covers the paths in its reach.** -/
theorem covers_iff : Covers q f ↔ (reach q).Holds f := by
  by_cases hroot : q = ['.']
  · rw [hroot, reach_root]
    exact iff_of_true (Or.inl rfl) List.nil_prefix
  · rw [Covers, or_iff_right hroot, reach_of_ne_root hroot, Reach.Holds]
    cases hglob : isGlob q with
    | true => simp
    | false => simp [literalStart_eq_self hglob]

/-- Of two directories at or above one path, one is at or above the other. -/
theorem nested_of_common (ha : f = a ∨ a ++ ['/'] <+: f) (hb : f = b ∨ b ++ ['/'] <+: f) :
    Reach.Nested a b := by
  rcases ha with rfl | ha
  · rcases hb with rfl | hb
    · exact Or.inl rfl
    · exact Or.inr (Or.inr hb)
  · rcases hb with rfl | hb
    · exact Or.inr (Or.inl ha)
    · rcases List.prefix_or_prefix_of_prefix ha hb with hab | hba
      · rcases List.prefix_concat_iff.mp hab with heq | hbelow
        · exact Or.inl (List.append_cancel_right heq)
        · exact Or.inr (Or.inl hbelow)
      · rcases List.prefix_concat_iff.mp hba with heq | hbelow
        · exact Or.inl (List.append_cancel_right heq).symm
        · exact Or.inr (Or.inr hbelow)

theorem Reach.meets_of_holds {r s : Reach} (hr : r.Holds f) (hs : s.Holds f) : r.Meets s := by
  by_cases hopen : r.isOpen = true ∨ s.isOpen = true
  · exact meets_of_open hopen (List.prefix_or_prefix_of_prefix hr.stem_prefix hs.stem_prefix)
  · rw [not_or] at hopen
    rw [Holds, if_neg hopen.1] at hr
    rw [Holds, if_neg hopen.2] at hs
    rw [Meets, if_neg (not_or.mpr hopen)]
    exact nested_of_common hr hs

/-! ## 2. Overlaps and common paths

A common path gives an overlap by the path itself; an overlap of literal patterns gives a common
path by the longer of the two. -/

/-- **Patterns that cover a common path overlap.** -/
theorem overlap_of_covers (ha : Covers a f) (hb : Covers b f) : overlap a b = true :=
  overlap_iff_meets.mpr (Reach.meets_of_holds (covers_iff.mp ha) (covers_iff.mp hb))

/-- **Literal patterns overlap exactly if they cover a common path**: the longer of the two is
one. -/
theorem overlap_iff_covers (ha : isGlob a = false) (hb : isGlob b = false) :
    overlap a b = true ↔ ∃ f, Covers a f ∧ Covers b f := by
  have hself : ∀ {q : List Char}, isGlob q = false → Covers q q :=
    fun hq => Or.inr (Or.inl ⟨hq, Or.inl rfl⟩)
  constructor
  · intro h
    by_cases hrootA : a = ['.']
    · exact ⟨b, Or.inl hrootA, hself hb⟩
    by_cases hrootB : b = ['.']
    · exact ⟨a, hself ha, Or.inl hrootB⟩
    rw [overlap_iff_meets, reach_of_literal ha hrootA, reach_of_literal hb hrootB] at h
    rcases h with rfl | hbelow | hbelow
    · exact ⟨a, hself ha, hself ha⟩
    · exact ⟨b, Or.inr (Or.inl ⟨ha, Or.inr hbelow⟩), hself hb⟩
    · exact ⟨a, hself ha, Or.inr (Or.inl ⟨hb, Or.inr hbelow⟩)⟩
  · rintro ⟨f, hfa, hfb⟩
    exact overlap_of_covers hfa hfb

/-- **The overlap test misses no overlap, and is exact on literal patterns.**  For all patterns, as
they are written:

* patterns whose canonical spellings cover a common path overlap;
* if neither is a glob, they overlap only if there is such a path;
* every pattern overlaps itself, and the test does not depend on the order of the two. -/
theorem intersects_iff_covers (a b : String) :
    ((∃ f : String, Covers (normalize a).toList f.toList ∧ Covers (normalize b).toList f.toList) →
      intersects a b = true) ∧
    (isGlob (normalize a).toList = false → isGlob (normalize b).toList = false →
      (intersects a b = true ↔ ∃ f : String,
        Covers (normalize a).toList f.toList ∧ Covers (normalize b).toList f.toList)) ∧
    intersects a a = true ∧ intersects a b = intersects b a := by
  have hspelled : ∀ p : String, (normalize p).toList = canonical p.toList :=
    fun p => String.toList_ofList
  rw [hspelled a, hspelled b]
  refine ⟨?_, fun ha hb => ?_, overlap_self _, intersects_comm a b⟩
  · rintro ⟨f, hfa, hfb⟩
    exact overlap_of_covers hfa hfb
  · rw [intersects, overlap_iff_covers ha hb]
    constructor
    · rintro ⟨f, hf⟩
      exact ⟨String.ofList f, by rwa [String.toList_ofList]⟩
    · rintro ⟨f, hf⟩
      exact ⟨f.toList, hf⟩

/-- A directory and a glob below it cover a common path, and so they overlap. -/
theorem directory_meets_glob :
    Covers (normalize "./src//db/").toList "src/db/schema.rs".toList ∧
      Covers (normalize "src\\db\\*.rs").toList "src/db/schema.rs".toList ∧
      intersects "./src//db/" "src\\db\\*.rs" = true := by
  have hdir : Covers (normalize "./src//db/").toList "src/db/schema.rs".toList :=
    Or.inr (Or.inl ⟨by decide, Or.inr (by decide)⟩)
  have hglob : Covers (normalize "src\\db\\*.rs").toList "src/db/schema.rs".toList :=
    Or.inr (Or.inr ⟨by decide, by decide⟩)
  exact ⟨hdir, hglob, (intersects_iff_covers _ _).1 ⟨"src/db/schema.rs", hdir, hglob⟩⟩

end Pattern
end Foreman
