/-
# The canonical spelling of a pattern

`Pattern.canonical` rewrites a pattern in five passes, as `normalize_pattern` does.  What the
passes leave behind is said once here, without them, as `IsCanonical`: a text that is not empty
and holds no backslash, no two slashes in a row, no `./` in front and no slash at the end.

* `canonical_isCanonical`: every canonical spelling is of this kind, whatever the pattern.
* `IsCanonical.canonical_eq`: a text of this kind without blanks at its ends is its own
  canonical spelling.
* `canonical_canonical`: so spelling a pattern twice is spelling it once, for a pattern without
  blanks.  Blanks are excluded because the passes can bare one: `a /` loses its slash and then
  ends in a blank that a second trimming takes away.
* `intersects_normalize_right`: hence a claim may be stored in canonical spelling without any
  change in what it collides with.

Texts are lists of characters throughout, and each pass is a recursion of its own, so what a
pass does to a text is proved by induction on the text and the passes are put together at the
end.  Later modules use `IsCanonical` and never a pass.
-/
import Foreman.Footprint.Pattern
import Foreman.Proofs.Text.Blank

namespace Foreman
namespace Pattern

/-! ## 1. One lemma a pass

For each pass, what it removes is gone afterwards, and what the passes before it have removed
does not come back. -/

theorem toSlash_ne_backslash (c : Char) : toSlash c ≠ '\\' := by
  unfold toSlash
  split
  · decide
  · assumption

theorem toSlash_eq_self {c : Char} (h : c ≠ '\\') : toSlash c = c := if_neg h

theorem map_toSlash_eq_self {cs : List Char} (h : '\\' ∉ cs) : cs.map toSlash = cs := by
  refine (List.map_congr_left ?_).trans (List.map_id cs)
  intro c hc
  exact toSlash_eq_self fun e => h (e ▸ hc)

theorem squeeze_sublist : ∀ cs : List Char, (squeeze cs).Sublist cs
  | [] => List.Sublist.refl _
  | c :: cs => by
    unfold squeeze
    split
    · exact (squeeze_sublist cs).cons c
    · exact (squeeze_sublist cs).cons_cons c

/-- Squeezing keeps the first character: of the slashes in front the last one stays. -/
theorem head?_squeeze : ∀ cs : List Char, (squeeze cs).head? = cs.head?
  | [] => rfl
  | c :: cs => by
    unfold squeeze
    split
    · rename_i h
      rw [head?_squeeze cs, h.2, h.1]
      rfl
    · rfl

theorem prefix_pair_iff {a b c : Char} {cs : List Char} :
    [a, b] <+: c :: cs ↔ a = c ∧ cs.head? = some b := by
  cases cs with
  | nil => simp [List.cons_prefix_cons]
  | cons d ds => simp [List.cons_prefix_cons, eq_comm]

/-- No two slashes stand in a row after squeezing. -/
theorem not_infix_squeeze : ∀ cs : List Char, ¬ ['/', '/'] <:+: squeeze cs
  | [] => by simp [squeeze]
  | c :: cs => by
    have ih := not_infix_squeeze cs
    unfold squeeze
    split
    · exact ih
    · rename_i h
      rw [List.infix_cons_iff, not_or]
      refine ⟨?_, ih⟩
      rw [prefix_pair_iff, head?_squeeze]
      exact fun ⟨hc, hd⟩ => h ⟨hc.symm, hd⟩

theorem squeeze_eq_self : ∀ {cs : List Char}, ¬ ['/', '/'] <:+: cs → squeeze cs = cs
  | [], _ => rfl
  | c :: cs, h => by
    rw [List.infix_cons_iff, not_or, prefix_pair_iff] at h
    have hpair : ¬ (c = '/' ∧ cs.head? = some '/') := fun ⟨hc, hd⟩ => h.1 ⟨hc.symm, hd⟩
    rw [squeeze, if_neg hpair, squeeze_eq_self h.2]

theorem dropDots_suffix : ∀ cs : List Char, dropDots cs <:+ cs := by
  intro cs
  fun_induction dropDots cs with
  | case1 cs ih => exact ih.trans (List.suffix_append ['.', '/'] cs)
  | case2 cs _ => exact List.suffix_refl cs

theorem not_prefix_dropDots (cs : List Char) : ¬ ['.', '/'] <+: dropDots cs := by
  fun_induction dropDots cs with
  | case1 cs ih => exact ih
  | case2 cs h => exact fun ⟨t, ht⟩ => h t ht.symm

theorem dropDots_eq_self {cs : List Char} (h : ¬ ['.', '/'] <+: cs) : dropDots cs = cs := by
  fun_cases dropDots cs with
  | case1 cs => exact absurd (List.prefix_append ['.', '/'] cs) h
  | case2 cs _ => rfl

theorem go_isPrefix : ∀ cs : List Char, dropSlashes.go cs <+: cs
  | [] => List.prefix_refl []
  | c :: cs => by
    have ih := go_isPrefix cs
    unfold dropSlashes.go
    split
    · split
      · exact List.nil_prefix
      · exact List.cons_prefix_cons.mpr ⟨rfl, List.nil_prefix⟩
    · exact List.cons_prefix_cons.mpr ⟨rfl, ih⟩

theorem not_suffix_go : ∀ cs : List Char, ¬ ['/'] <:+ dropSlashes.go cs
  | [] => by simp [dropSlashes.go]
  | c :: cs => by
    have ih := not_suffix_go cs
    unfold dropSlashes.go
    split
    · split
      · simp
      · rename_i hc
        simpa [List.suffix_cons_iff, eq_comm] using hc
    · rename_i hne
      rw [List.suffix_cons_iff, not_or]
      refine ⟨fun e => hne ?_, ih⟩
      exact (List.cons.inj e).2.symm

theorem go_eq_self : ∀ {cs : List Char}, ¬ ['/'] <:+ cs → dropSlashes.go cs = cs
  | [], _ => rfl
  | c :: cs, h => by
    rw [List.suffix_cons_iff, not_or] at h
    unfold dropSlashes.go
    rw [go_eq_self h.2]
    split
    · exact if_neg fun hc : c = '/' => h.1 (by rw [hc])
    · rfl

/-- Nothing but slashes is dropped. -/
theorem exists_go : ∀ cs : List Char, ∃ n, cs = dropSlashes.go cs ++ List.replicate n '/'
  | [] => ⟨0, rfl⟩
  | c :: cs => by
    obtain ⟨n, hcs⟩ := exists_go cs
    unfold dropSlashes.go
    split
    · rename_i hnil
      rw [hnil, List.nil_append] at hcs
      split
      · rename_i hc
        exact ⟨n + 1, by rw [hc, hcs]; rfl⟩
      · exact ⟨n, by rw [hcs]; rfl⟩
    · exact ⟨n, by rw [List.cons_append, ← hcs]⟩

theorem exists_dropSlashes (cs : List Char) :
    ∃ n, cs = dropSlashes cs ++ List.replicate n '/' := by
  cases cs with
  | nil => exact ⟨0, rfl⟩
  | cons c cs =>
    obtain ⟨n, hcs⟩ := exists_go cs
    exact ⟨n, by rw [dropSlashes, List.cons_append, ← hcs]⟩

theorem dropSlashes_isPrefix : ∀ cs : List Char, dropSlashes cs <+: cs
  | [] => List.prefix_refl []
  | _ :: cs => List.cons_prefix_cons.mpr ⟨rfl, go_isPrefix cs⟩

/-- A slash stays at the end only if nothing stands before it. -/
theorem not_suffix_dropSlashes {cs : List Char} (h : dropSlashes cs ≠ ['/']) :
    ¬ ['/'] <:+ dropSlashes cs := by
  cases cs with
  | nil => simp [dropSlashes]
  | cons c cs =>
    simp only [dropSlashes, ne_eq] at h ⊢
    rw [List.suffix_cons_iff, not_or]
    exact ⟨fun e => h e.symm, not_suffix_go cs⟩

theorem dropSlashes_eq_self {cs : List Char} (h : ¬ ['/'] <:+ cs) : dropSlashes cs = cs := by
  cases cs with
  | nil => rfl
  | cons c cs =>
    rw [List.suffix_cons_iff, not_or] at h
    rw [dropSlashes, go_eq_self h.2]

/-! ## 2. The kind of text the passes leave behind

What each pass takes away, the later ones do not bring back.  The four clauses say that, and the
last that something is left. -/

/-- What a canonical spelling looks like. -/
structure IsCanonical (p : List Char) : Prop where
  noBackslash : '\\' ∉ p
  noDouble : ¬ ['/', '/'] <:+: p
  noDot : ¬ ['.', '/'] <+: p
  noTail : ¬ ['/'] <:+ p
  nonempty : p ≠ []

/-- The spelling of the root is canonical. -/
theorem isCanonical_root : IsCanonical ['.'] :=
  ⟨by decide, by decide, by decide, by decide, by decide⟩

/-- The four passes after trimming. -/
def passes (cs : List Char) : List Char := dropSlashes (dropDots (squeeze (cs.map toSlash)))

theorem canonical_eq_passes (cs : List Char) :
    canonical cs = if passes (Text.trimChars cs) = [] ∨ passes (Text.trimChars cs) = ['/']
      then ['.'] else passes (Text.trimChars cs) := by
  exact ite_congr (by simp only [Bool.or_eq_true, decide_eq_true_eq, passes])
    (fun _ => rfl) (fun _ => rfl)

theorem passes_sublist (cs : List Char) : (passes cs).Sublist (cs.map toSlash) :=
  (dropSlashes_isPrefix _).sublist.trans ((dropDots_suffix _).sublist.trans (squeeze_sublist _))

/-- **Every canonical spelling is of this kind.**  Each later pass takes a prefix or a suffix of
what it is given, so it keeps what the earlier ones have reached. -/
theorem canonical_isCanonical (cs : List Char) : IsCanonical (canonical cs) := by
  rw [canonical_eq_passes]
  split
  · exact isCanonical_root
  · rename_i h
    rw [not_or] at h
    have hpre : passes (Text.trimChars cs) <+:
        dropDots (squeeze ((Text.trimChars cs).map toSlash)) :=
      dropSlashes_isPrefix _
    refine ⟨?_, ?_, ?_, not_suffix_dropSlashes h.2, h.1⟩
    · intro hmem
      obtain ⟨c, -, hc⟩ := List.mem_map.mp ((passes_sublist _).subset hmem)
      exact toSlash_ne_backslash c hc
    · intro hin
      exact not_infix_squeeze _ ((hin.trans hpre.isInfix).trans (dropDots_suffix _).isInfix)
    · exact fun hp => not_prefix_dropDots _ (hp.trans hpre)

theorem IsCanonical.passes_eq {p : List Char} (h : IsCanonical p) : passes p = p := by
  rw [passes, map_toSlash_eq_self h.noBackslash, squeeze_eq_self h.noDouble,
    dropDots_eq_self h.noDot, dropSlashes_eq_self h.noTail]

/-- **A text of this kind without blanks at its ends is its own canonical spelling.** -/
theorem IsCanonical.canonical_eq {p : List Char} (h : IsCanonical p)
    (htrim : Text.trimChars p = p) : canonical p = p := by
  rw [canonical_eq_passes, htrim, h.passes_eq, if_neg]
  rintro (hnil | hroot)
  · exact h.nonempty hnil
  · exact h.noTail (hroot ▸ List.suffix_refl _)

/-! ## 3. Patterns without blanks

Trimming does nothing to them, neither the first time nor the second. -/

/-- The pattern holds no blank character. -/
def BlankFree (p : String) : Prop := ∀ c ∈ p.toList, Text.isBlank c = false

instance (p : String) : Decidable (BlankFree p) :=
  decidable_of_iff (p.toList.all fun c => !Text.isBlank c) (by simp [BlankFree])

/-- A text without blanks has none at its ends. -/
theorem trimChars_eq_self {cs : List Char} (h : ∀ c ∈ cs, Text.isBlank c = false) :
    Text.trimChars cs = cs :=
  Text.trimChars_eq_self_iff.mpr ⟨fun c hc => h c (List.mem_of_mem_head? hc),
    fun c hc => h c (List.mem_of_mem_getLast? hc)⟩

/-- The passes bring in no character but the dot of the root and slashes. -/
theorem canonical_blankFree {cs : List Char} (h : ∀ c ∈ cs, Text.isBlank c = false) :
    ∀ c ∈ canonical cs, Text.isBlank c = false := by
  intro c hc
  rw [canonical_eq_passes, trimChars_eq_self h] at hc
  split at hc
  · rw [List.mem_singleton.mp hc]
    decide
  · obtain ⟨d, hd, rfl⟩ := List.mem_map.mp ((passes_sublist _).subset hc)
    unfold toSlash
    split
    · decide
    · exact h d hd

/-- **Spelling a pattern twice is spelling it once**, if no blank is in it. -/
theorem canonical_canonical {cs : List Char} (h : ∀ c ∈ cs, Text.isBlank c = false) :
    canonical (canonical cs) = canonical cs :=
  (canonical_isCanonical cs).canonical_eq (trimChars_eq_self (canonical_blankFree h))

/-! ## 4. What the spelling means for overlaps

The overlap test spells both of its patterns, so a pattern may be spelled beforehand if a second
spelling changes nothing. -/

/-- The test does not depend on the order of the two. -/
theorem overlap_comm (a b : List Char) : overlap a b = overlap b a := by
  have heq : decide (a = b) = decide (b = a) := decide_eq_decide.mpr eq_comm
  unfold overlap
  rw [heq, Bool.or_comm (decide (a = ['.'])), Bool.or_comm (isGlob a),
    Bool.or_comm (liesUnder a b), Bool.or_comm (Text.startsWithChars (literalStart b) _)]

/-- Nor does it for patterns as they are written. -/
theorem intersects_comm (a b : String) : intersects a b = intersects b a := overlap_comm _ _

/-- A claim collides with the same patterns in canonical spelling as in its own. -/
theorem intersects_normalize_right {b : String} (a : String) (hb : BlankFree b) :
    intersects a (normalize b) = intersects a b := by
  rw [intersects, intersects, normalize, String.toList_ofList, canonical_canonical hb]

end Pattern

namespace Footprint

theorem intersection?_eq_none_iff {ours theirs : List String} :
    intersection? ours theirs = none ↔
      ∀ a ∈ ours, ∀ b ∈ theirs, Pattern.intersects a b = false := by
  simp [intersection?, List.findSome?_eq_none_iff]

/-- Whether two footprints overlap does not depend on which of them is asked. -/
theorem intersection?_eq_none_comm {ours theirs : List String} :
    intersection? ours theirs = none ↔ intersection? theirs ours = none := by
  rw [intersection?_eq_none_iff, intersection?_eq_none_iff]
  constructor
  · intro h b hb a ha
    rw [Pattern.intersects_comm, h a ha b hb]
  · intro h a ha b hb
    rw [Pattern.intersects_comm, h b hb a ha]

/-- The patterns found are one of each footprint, and they overlap. -/
theorem intersection?_eq_some {ours theirs : List String} {a b : String}
    (h : intersection? ours theirs = some (a, b)) :
    a ∈ ours ∧ b ∈ theirs ∧ Pattern.intersects a b = true := by
  obtain ⟨a', ha', hfind⟩ := List.exists_of_findSome?_eq_some h
  obtain ⟨b', hb', hpair⟩ := Option.map_eq_some_iff.mp hfind
  cases hpair
  exact ⟨ha', List.mem_of_find?_eq_some hb', by simpa using List.find?_some hb'⟩

end Footprint
end Foreman
