/-
# Patterns that are spelled twice

A claim is stored in canonical spelling, and is brought into it again whenever it is compared.
The second spelling is meant to change nothing, and mostly does not; but the blanks around a
pattern are trimmed before its separators are, and so a blank that stood behind `./` or in front of
a slash at the end is at an end of the first spelling.  The second trims it away.

* `IsCanonical.canonical_eq_self_iff`: a canonical text is left as it is exactly if no blank is at
  either end.
* `IsCanonical.reach_canonical_eq_iff`: its reach is left as it is already if the blank stands at
  the end of a glob.
* `stored_claim_collides_iff`: so these are the patterns whose claims collide as the patterns do,
  and a claim of such a pattern keeps others from claiming it.
* `trailing_separator_bares_blank`: for other patterns two workers can claim the same one.

The claim of a pattern is stored by `claim` and compared by `patterns_intersect`, and both call
`normalize_pattern`.  Its comment promises the canonical form, of which a second call should
make nothing new; `stored_claim_collides_iff` says for which patterns that is so.
-/
import Foreman.Proofs.Footprint.Claims
import Foreman.Proofs.Footprint.Reach

namespace Foreman
namespace Pattern

variable {x : List Char}

/-! ## 1. What the second spelling takes away

A canonical text that is trimmed and passed again loses something at its ends, or nothing. -/

theorem isGlob_append (a b : List Char) : isGlob (a ++ b) = (isGlob a || isGlob b) :=
  List.any_append

/-- Behind a glob character nothing counts. -/
theorem literalStart_append_of_glob {y : List Char} (h : isGlob y = true) (cs : List Char) :
    literalStart (y ++ cs) = literalStart y := by
  rw [literalStart, List.takeWhile_append, if_neg]
  · rfl
  · intro hlength
    obtain ⟨c, hc, hmeta⟩ := List.any_eq_true.mp h
    have hall := (List.takeWhile_prefix fun c => !isMeta c).eq_of_length hlength
    have hplain := List.takeWhile_eq_self_iff.mp hall c hc
    simp [hmeta] at hplain

theorem isGlob_of_blank {cs : List Char} (h : ∀ c ∈ cs, Text.isBlank c = true) :
    isGlob cs = false := by
  rw [isGlob, List.any_eq_false]
  intro c hc hmeta
  have hblank := h c hc
  simp only [isMeta, Bool.or_eq_true, decide_eq_true_eq] at hmeta
  rcases hmeta with ((rfl | rfl) | rfl) | rfl <;> exact absurd hblank (by decide)

theorem exists_dropDots (cs : List Char) :
    ∃ dots, cs = dots ++ dropDots cs ∧ isGlob dots = false := by
  fun_induction dropDots cs with
  | case1 cs ih =>
    obtain ⟨dots, hcs, hliteral⟩ := ih
    refine ⟨['.', '/'] ++ dots, by rw [List.append_assoc, ← hcs]; rfl, ?_⟩
    rw [isGlob_append, hliteral]
    rfl
  | case2 cs _ => exact ⟨[], rfl, rfl⟩

/-- The passes over a canonical text that was trimmed take literal characters from its ends, and
from the front exactly if a blank is there. -/
theorem IsCanonical.exists_passes (h : IsCanonical x) :
    ∃ front back, x = front ++ passes (Text.trimChars x) ++ back ∧ isGlob front = false ∧
      isGlob back = false ∧ (front = [] ↔ ∀ c ∈ x.head?, Text.isBlank c = false) := by
  obtain ⟨front, back, hx, hfront, hback, hnone⟩ := Text.exists_trimmed x
  generalize Text.trimChars x = t at hx
  have hwithin : t <:+: x := ⟨front, back, hx.symm⟩
  have hpasses : passes t = dropSlashes (dropDots t) := by
    rw [passes, map_toSlash_eq_self fun hmem => h.noBackslash (hwithin.subset hmem),
      squeeze_eq_self fun hdouble => h.noDouble (hdouble.trans hwithin)]
  obtain ⟨dots, ht, hdots⟩ := exists_dropDots t
  obtain ⟨slashes, hrest, hslashes⟩ : ∃ slashes, dropDots t = dropSlashes (dropDots t) ++ slashes ∧
      isGlob slashes = false := by
    obtain ⟨n, hrest⟩ := exists_dropSlashes (dropDots t)
    exact ⟨_, hrest, List.any_eq_false.mpr fun c hc => by rw [List.eq_of_mem_replicate hc]; decide⟩
  have hend : isGlob (slashes ++ back) = false := by
    rw [isGlob_append, hslashes, isGlob_of_blank hback]
    rfl
  rw [hpasses]
  by_cases hnil : front = []
  · -- nothing was trimmed in front, so no `./` is bared
    have hbegins : t <+: x := ⟨back, by rw [hx, hnil, List.nil_append]⟩
    have hdot : dropDots t = t := dropDots_eq_self fun hdot => h.noDot (hdot.trans hbegins)
    refine ⟨[], slashes ++ back, ?_, rfl, hend, iff_of_true rfl (hnone.mp hnil)⟩
    rw [hdot] at hrest ⊢
    rw [List.nil_append, ← List.append_assoc, ← hrest, hx, hnil, List.nil_append]
  · refine ⟨front ++ dots, slashes ++ back, ?_, ?_, hend, ?_⟩
    · rw [List.append_assoc, List.append_assoc, ← List.append_assoc _ slashes, ← hrest,
        ← List.append_assoc dots, ← ht, ← List.append_assoc, ← hx]
    · rw [isGlob_append, hdots, isGlob_of_blank hfront]
      rfl
    · exact iff_of_false (by simp [hnil]) (mt hnone.mpr hnil)

/-! ## 2. When the second spelling changes nothing

As a text, and as a reach.  The second is less, since behind a glob character nothing counts. -/

/-- **A canonical text is left as it is exactly if no blank is at either end.** -/
theorem IsCanonical.canonical_eq_self_iff (h : IsCanonical x) :
    canonical x = x ↔ Text.IsTrimmed x := by
  refine ⟨fun heq => ?_, fun htrim => h.canonical_eq (Text.trimChars_eq_self_iff.mpr htrim)⟩
  rw [canonical_eq_passes] at heq
  split at heq
  · rw [← heq]
    decide
  · -- a text that lost a blank cannot get back its length
    refine Text.trimChars_eq_self_iff.mp ((Text.trimChars_sublist x).eq_of_length_le ?_)
    calc x.length = (passes (Text.trimChars x)).length := by rw [heq]
      _ ≤ ((Text.trimChars x).map toSlash).length := (passes_sublist _).length_le
      _ = (Text.trimChars x).length := List.length_map _

/-- The text has no blank in front, and none at its end unless anything may follow there. -/
def KeepsReach (x : List Char) : Prop :=
  (∀ c ∈ x.head?, Text.isBlank c = false) ∧
    (isGlob x = true ∨ ∀ c ∈ x.getLast?, Text.isBlank c = false)

instance (x : List Char) : Decidable (KeepsReach x) :=
  decidable_of_iff
    ((x.head?.all fun c => !Text.isBlank c) &&
      (isGlob x || x.getLast?.all fun c => !Text.isBlank c))
    (by simp [KeepsReach, Option.all_eq_true])

/-- The second spelling of a literal text has the reach of the first only if it is the first. -/
theorem IsCanonical.reach_canonical_of_literal (h : IsCanonical x) (hliteral : isGlob x = false) :
    reach (canonical x) = reach x ↔ Text.IsTrimmed x := by
  rw [← h.canonical_eq_self_iff]
  refine ⟨fun heq => ?_, fun heq => by rw [heq]⟩
  by_cases hroot : x = ['.']
  · rw [hroot]
    decide
  · rw [reach_of_literal hliteral hroot] at heq
    have hclosed : (reach (canonical x)).isOpen = false := by rw [heq]
    rw [← stem_eq_self hclosed, heq]

/-- The second spelling of a glob keeps its stem but for what is taken from the front. -/
theorem IsCanonical.reach_canonical_of_glob (h : IsCanonical x) (hglob : isGlob x = true) :
    reach (canonical x) = reach x ↔ ∀ c ∈ x.head?, Text.isBlank c = false := by
  obtain ⟨front, back, hx, hfront, hback, hnone⟩ := h.exists_passes
  rw [← hnone]
  have hcanonical := canonical_eq_passes x
  generalize passes (Text.trimChars x) = y at hx hcanonical
  have hy : isGlob y = true := by
    rw [hx, isGlob_append, isGlob_append, hfront, hback, Bool.or_false, Bool.false_or] at hglob
    exact hglob
  have hne : ∀ {cs : List Char}, isGlob cs = false → y ≠ cs := fun hcs heq =>
    Bool.false_ne_true (hcs.symm.trans (heq ▸ hy))
  rw [if_neg (not_or.mpr ⟨hne rfl, hne (by decide)⟩)] at hcanonical
  have hstart : literalStart x = front ++ literalStart y := by
    rw [hx, List.append_assoc, literalStart_append hfront, literalStart_append_of_glob hy]
  have hrootX : x ≠ ['.'] := fun heq => absurd hglob (by rw [heq]; decide)
  rw [hcanonical, reach_of_ne_root hrootX, reach_of_ne_root (hne rfl), hstart, hglob, hy,
    Reach.mk.injEq, and_iff_left rfl]
  exact List.self_eq_append_left

/-- **The second spelling keeps the reach of the first exactly if no blank is in front, and none at
the end but after a glob character.** -/
theorem IsCanonical.reach_canonical_eq_iff (h : IsCanonical x) :
    reach (canonical x) = reach x ↔ KeepsReach x := by
  cases hglob : isGlob x with
  | false =>
    rw [h.reach_canonical_of_literal hglob, KeepsReach, hglob]
    simp [Text.IsTrimmed]
  | true =>
    rw [h.reach_canonical_of_glob hglob, KeepsReach, hglob]
    simp

/-! ## 3. Claims that are stored

What it means for two workers that want the same files. -/

/-- A claim of a pattern whose spelling keeps its reach is in the way of whoever claims the same
pattern. -/
theorem findConflict_of_claimed {q : String}
    (hcollides : ∀ p, intersects p (normalize q) = intersects p q) {r r' : Registry}
    {ours theirs : List String} {workerId taskId : String} {now : Instant} (hours : q ∈ ours)
    (htheirs : q ∈ theirs) (hclaim : r.claim ours workerId taskId now = .ok r') :
    ∃ held, r'.findConflict theirs = some held := by
  obtain ⟨-, rfl⟩ := Registry.claim_eq_ok_iff.mp hclaim
  refine Option.isSome_iff_exists.mp (Option.isSome_iff_ne_none.mpr fun hfree => ?_)
  have hstored : ⟨normalize q, workerId, taskId, now⟩ ∈
      r.claims ++ Registry.claimsFor ours workerId taskId now :=
    List.mem_append_right _ (Registry.mem_claimsFor.mpr ⟨q, hours, rfl⟩)
  have hapart := Registry.conflictAmong_eq_none_iff.mp hfree q htheirs _ hstored
  rw [hcollides q, intersects, overlap_self] at hapart
  cases hapart

/-- **Which patterns may be stored in canonical spelling.**  For every pattern:

* spelling it twice is spelling it once exactly if its spelling has no blank at either end;
* what is stored collides with the patterns that it collides with itself exactly if its spelling
  has no blank in front, and none at its end but after a glob character;
* and then, once a footprint with it has been claimed, no other footprint with it is free. -/
theorem stored_claim_collides_iff (q : String) :
    (normalize (normalize q) = normalize q ↔ Text.IsTrimmed (normalize q).toList) ∧
    ((∀ p, intersects p (normalize q) = intersects p q) ↔ KeepsReach (normalize q).toList) ∧
    (KeepsReach (normalize q).toList →
      ∀ (r r' : Registry) (ours theirs : List String) (workerId taskId : String) (now : Instant),
        q ∈ ours → q ∈ theirs → r.claim ours workerId taskId now = .ok r' →
          ∃ held, r'.findConflict theirs = some held) := by
  have hspelled : (normalize q).toList = canonical q.toList := String.toList_ofList
  have hcanonical := canonical_isCanonical q.toList
  have hcollides : (∀ p, intersects p (normalize q) = intersects p q) ↔
      KeepsReach (normalize q).toList := by
    rw [intersects_congr_iff, hspelled]
    exact hcanonical.reach_canonical_eq_iff
  refine ⟨?_, hcollides, fun hkeeps r r' ours theirs workerId taskId now hours htheirs hclaim =>
    findConflict_of_claimed (hcollides.mpr hkeeps) hours htheirs hclaim⟩
  rw [hspelled, ← hcanonical.canonical_eq_self_iff, normalize, hspelled, normalize,
    String.ofList_inj]

namespace Sample

/-- The claim of a pattern by a worker, in an empty registry. -/
def claimed (p : String) : Except Failure Registry :=
  Registry.empty.claim [p] "worker-T-1-1700000000" "T-1" ⟨20000, 43200, 0⟩

end Sample

/-- A blank that follows a glob character is trimmed the second time, and a claim of the pattern is
in the way all the same. -/
theorem blank_behind_glob_kept :
    normalize (normalize "src/* /") ≠ normalize "src/* /" ∧
      KeepsReach (normalize "src/* /").toList ∧
      ∃ r held, Sample.claimed "src/* /" = .ok r ∧
        r.findConflict ["docs", "src/* /"] = some held := by
  have hkeeps : KeepsReach (normalize "src/* /").toList := by decide
  obtain ⟨r, hclaim⟩ : ∃ r, Sample.claimed "src/* /" = .ok r := ⟨_, rfl⟩
  obtain ⟨held, hheld⟩ := (stored_claim_collides_iff "src/* /").2.2 hkeeps _ r _
    ["docs", "src/* /"] _ _ _ List.mem_cons_self (List.mem_cons_of_mem _ List.mem_cons_self) hclaim
  refine ⟨?_, hkeeps, r, held, hclaim, hheld⟩
  rw [Ne, (stored_claim_collides_iff "src/* /").1]
  decide

/-- **A slash at the end can bare a blank, and then two workers claim the same pattern.**  The
second spelling of `docs /` is another one than the first, and the pattern does not collide with
what is stored of it. -/
theorem trailing_separator_bares_blank :
    normalize "docs /" = "docs " ∧ normalize (normalize "docs /") = "docs" ∧
      intersects "docs /" "docs /" = true ∧ intersects "docs /" (normalize "docs /") = false ∧
      ∃ r, Sample.claimed "docs /" = .ok r ∧ r.findConflict ["docs /"] = none := by
  refine ⟨by decide, by decide, by decide, by decide, _, rfl, by decide⟩

end Pattern
end Foreman
