/-
# The components of a pattern

A path can be spelled in many ways: with either separator, with several in a row or one at the end,
and with `.` among its components.  The canonical spelling drops empty components wherever they
stand, but `.` only in front.

* `kept_passes`: what the passes keep of a pattern is its `kept` components, and they keep nothing
  else (`canonical_eq_joined`).
* `respelled_collides_iff`: so two spellings collide with the same patterns exactly if the same
  components are kept of them, and for that it is enough that they name the same path and hold `.`
  in front only.
* `dot_inside_misses_overlap`: a `.` behind the first name hides the directory's files.

What a path names is decided by its components, of which empty ones and `.` name nothing.  The
overlap test never takes a pattern apart, and so it can only be right on spellings that the
passes bring together.  `kept` is what they leave of the components, so the two notions can be
compared:  `respelled_collides_iff` says for which spellings they agree.
-/
import Foreman.Proofs.Footprint.Reach

namespace Foreman
namespace Pattern

/-! ## 1. Components

A pattern is split at both separators.  Empty pieces are kept at first, since the passes have to
be followed piece by piece. -/

def isSeparator (c : Char) : Bool := c = '/' || c = '\\'

/-- The pieces between the separators, empty ones included. -/
def components (cs : List Char) : List (List Char) := cs.splitOnP isSeparator

def filled (pieces : List (List Char)) : List (List Char) := pieces.filter (· ≠ [])

/-- The components that name the path: neither empty nor `.`. -/
def named (cs : List Char) : List (List Char) := (filled (components cs)).filter (· ≠ ['.'])

/-- The components that the canonical spelling keeps: of those that are not empty, all from the
first on that is not `.`. -/
def kept (cs : List Char) : List (List Char) :=
  (filled (components cs)).dropWhile (· = ['.'])

theorem components_nil : components [] = [[]] := List.splitOnP_nil

theorem components_of_separator {c : Char} (h : isSeparator c = true) (cs : List Char) :
    components (c :: cs) = [] :: components cs := by
  rw [components, List.splitOnP_cons_eq_if_modifyHead, if_pos h, components]

theorem components_of_not_separator {c : Char} (h : isSeparator c = false) (cs : List Char) :
    components (c :: cs) = (components cs).modifyHead (c :: ·) := by
  rw [components, List.splitOnP_cons_eq_if_modifyHead, if_neg (by simp [h]), components]

theorem exists_components_eq (cs : List Char) : ∃ first rest, components cs = first :: rest :=
  List.exists_cons_of_ne_nil (List.splitOnP_ne_nil _ _)

/-- Components in front of which `.` is dropped name the path if no `.` is left. -/
theorem filter_kept (cs : List Char) : (kept cs).filter (· ≠ ['.']) = named cs := by
  unfold kept named
  induction filled (components cs) with
  | nil => rfl
  | cons piece pieces ih =>
    by_cases hdot : piece = ['.']
    · rw [List.dropWhile_cons_of_pos (by simpa using hdot), ih,
        List.filter_cons_of_neg (by simpa using hdot)]
    · rw [List.dropWhile_cons_of_neg (by simpa using hdot)]

theorem kept_eq_named {cs : List Char} (h : ['.'] ∉ kept cs) : kept cs = named cs := by
  rw [← filter_kept, List.filter_eq_self.mpr]
  intro piece hpiece
  exact decide_eq_true fun heq => h (heq ▸ hpiece)

/-! ## 2. What each pass does to the components

Each pass drops components that name nothing, and changes no other. -/

theorem isSeparator_toSlash (c : Char) : isSeparator (toSlash c) = isSeparator c := by
  unfold toSlash
  split
  · rename_i hc
    rw [hc]
    rfl
  · rfl

/-- Which separator it is does not matter. -/
theorem components_map_toSlash (cs : List Char) : components (cs.map toSlash) = components cs := by
  induction cs with
  | nil => rfl
  | cons c cs ih =>
    rw [List.map_cons]
    cases hc : isSeparator c with
    | true => rw [components_of_separator hc,
        components_of_separator (by rw [isSeparator_toSlash, hc]), ih]
    | false =>
      have hself : toSlash c = c := toSlash_eq_self fun heq => by
        rw [heq] at hc
        cases hc
      rw [hself, components_of_not_separator hc, components_of_not_separator hc, ih]

/-- Squeezing keeps the first component, and the others but for empty ones. -/
theorem components_squeeze (cs : List Char) : ∃ first rest rest', components cs = first :: rest ∧
    components (squeeze cs) = first :: rest' ∧ filled rest' = filled rest := by
  induction cs with
  | nil => exact ⟨[], [], [], components_nil, components_nil, rfl⟩
  | cons c cs ih =>
    obtain ⟨first, rest, rest', hcs, hsqueezed, hfilled⟩ := ih
    cases hc : isSeparator c with
    | false =>
      have hstays : squeeze (c :: cs) = c :: squeeze cs := if_neg fun h => by
        rw [h.1] at hc
        cases hc
      refine ⟨c :: first, rest, rest', ?_, ?_, hfilled⟩
      · rw [components_of_not_separator hc, hcs, List.modifyHead_cons]
      · rw [hstays, components_of_not_separator hc, hsqueezed, List.modifyHead_cons]
    | true =>
      refine ⟨[], components cs, ?_⟩
      -- the first of two slashes goes, and with it the empty component between them
      by_cases hpair : c = '/' ∧ cs.head? = some '/'
      · obtain ⟨ds, rfl⟩ : ∃ ds, cs = '/' :: ds := List.head?_eq_some_iff.mp hpair.2
        have hfirst : first = [] := by
          rw [components_of_separator rfl, List.cons.injEq] at hcs
          exact hcs.1.symm
        refine ⟨rest', components_of_separator hc _, ?_, ?_⟩
        · rw [squeeze, if_pos hpair, hsqueezed, hfirst]
        · rw [hfilled, hcs, hfirst]
          rfl
      · refine ⟨components (squeeze cs), components_of_separator hc _, ?_, ?_⟩
        · rw [squeeze, if_neg hpair, components_of_separator hc]
        · rw [hcs, hsqueezed, filled, filled, List.filter_cons, List.filter_cons, ← filled,
            ← filled, hfilled]

/-- Squeezing takes empty components away. -/
theorem kept_squeeze (cs : List Char) : kept (squeeze cs) = kept cs := by
  obtain ⟨first, rest, rest', hcs, hsqueezed, hfilled⟩ := components_squeeze cs
  rw [kept, kept, hcs, hsqueezed, filled, filled, List.filter_cons, List.filter_cons, ← filled,
    ← filled, hfilled]

/-- Dots in front are not kept anyway. -/
theorem kept_dropDots (cs : List Char) : kept (dropDots cs) = kept cs := by
  fun_induction dropDots cs with
  | case1 cs ih =>
    have hdot : components ('.' :: '/' :: cs) = ['.'] :: components cs := by
      rw [components_of_not_separator rfl, components_of_separator rfl, List.modifyHead_cons]
    rw [ih, kept, kept, hdot]
    rfl
  | case2 cs _ => rfl

theorem components_append_slash (cs : List Char) :
    components (cs ++ ['/']) = components cs ++ [[]] := by
  induction cs with
  | nil => rfl
  | cons c cs ih =>
    rw [List.cons_append]
    cases hc : isSeparator c with
    | true => rw [components_of_separator hc, components_of_separator hc, ih, List.cons_append]
    | false =>
      obtain ⟨first, rest, hcs⟩ := exists_components_eq cs
      rw [components_of_not_separator hc, components_of_not_separator hc, ih, hcs]
      rfl

/-- Nor is what stands behind slashes at the end. -/
theorem kept_append_slashes (cs : List Char) (n : Nat) :
    kept (cs ++ List.replicate n '/') = kept cs := by
  induction n with
  | zero => rw [List.replicate_zero, List.append_nil]
  | succ n ih =>
    rw [List.replicate_succ', ← List.append_assoc, ← ih, kept, kept, components_append_slash,
      filled, List.filter_append]
    simp [filled]

/-- **The passes keep the kept components.** -/
theorem kept_passes (cs : List Char) : kept (passes cs) = kept cs := by
  obtain ⟨n, hslashes⟩ := exists_dropSlashes (dropDots (squeeze (cs.map toSlash)))
  calc kept (passes cs) = kept (passes cs ++ List.replicate n '/') := (kept_append_slashes _ n).symm
    _ = kept (dropDots (squeeze (cs.map toSlash))) := by rw [passes, ← hslashes]
    _ = kept (cs.map toSlash) := by rw [kept_dropDots, kept_squeeze]
    _ = kept cs := by rw [kept, components_map_toSlash, kept]

/-! ## 3. The spelling of a list of components

The way back: a canonical text is put together from its components. -/

/-- The components with slashes between them; without any, the root. -/
def joined (pieces : List (List Char)) : List Char :=
  if pieces = [] then ['.'] else List.intercalate ['/'] pieces

theorem components_eq_splitOn {cs : List Char} (h : '\\' ∉ cs) :
    components cs = cs.splitOn '/' := by
  induction cs with
  | nil => rfl
  | cons c cs ih =>
    rw [List.mem_cons, not_or] at h
    have hc : isSeparator c = (c == '/') := by
      rw [isSeparator, decide_eq_false (Ne.symm h.1), Bool.or_false, beq_eq_decide]
    rw [components, List.splitOnP_cons_eq_if_modifyHead, hc, ← components, ih h.2, List.splitOn,
      List.splitOn, List.splitOnP_cons_eq_if_modifyHead]

/-- A text of which no separator is doubled or last has no empty component but the first. -/
theorem nil_not_mem_tail_components {cs : List Char} (hback : '\\' ∉ cs)
    (hdouble : ¬ ['/', '/'] <:+: cs) (htail : ¬ ['/'] <:+ cs) : [] ∉ (components cs).tail := by
  induction cs with
  | nil => simp [components_nil]
  | cons c cs ih =>
    rw [List.mem_cons, not_or] at hback
    rw [List.infix_cons_iff, not_or, prefix_pair_iff] at hdouble
    rw [List.suffix_cons_iff, not_or] at htail
    have hrest := ih hback.2 hdouble.2 htail.2
    cases hc : isSeparator c with
    | false => rwa [components_of_not_separator hc, List.tail_modifyHead]
    | true =>
      have hslash : c = '/' := by simpa [isSeparator, Ne.symm hback.1] using hc
      rw [components_of_separator hc, List.tail_cons]
      -- behind the separator another character stands, so its component is filled as well
      cases cs with
      | nil => exact absurd (by rw [hslash]) htail.1
      | cons d ds =>
        have hd : isSeparator d = false := by
          rw [List.mem_cons, not_or] at hback
          have hne : d ≠ '/' := fun heq => hdouble.1 ⟨hslash.symm, by rw [heq]; rfl⟩
          simp [isSeparator, hne, Ne.symm hback.2.1]
        obtain ⟨first, rest, hds⟩ := exists_components_eq ds
        rw [components_of_not_separator hd, hds, List.modifyHead_cons, List.tail_cons] at hrest
        rw [components_of_not_separator hd, hds, List.modifyHead_cons, List.mem_cons, not_or]
        exact ⟨by simp, hrest⟩

/-- The text does not begin with a separator. -/
def IsRelative (cs : List Char) : Prop := ∀ c ∈ cs.head?, isSeparator c = false

instance (cs : List Char) : Decidable (IsRelative cs) :=
  decidable_of_iff (cs.head?.all fun c => !isSeparator c) (by simp [IsRelative, Option.all_eq_true])

/-- **A canonical relative text is its kept components, joined.** -/
theorem IsCanonical.joined_kept {x : List Char} (h : IsCanonical x) (hrelative : IsRelative x) :
    joined (kept x) = x := by
  obtain ⟨c, cs, rfl⟩ := List.exists_cons_of_ne_nil h.nonempty
  have hc : isSeparator c = false := hrelative c rfl
  obtain ⟨first, rest, hcs⟩ := exists_components_eq cs
  have hcomponents : components (c :: cs) = (c :: first) :: rest := by
    rw [components_of_not_separator hc, hcs, List.modifyHead_cons]
  have hfilled : filled (components (c :: cs)) = components (c :: cs) := by
    have hrest := nil_not_mem_tail_components h.noBackslash h.noDouble h.noTail
    rw [hcomponents, List.tail_cons] at hrest
    rw [hcomponents, filled, List.filter_cons_of_pos (by simp), List.filter_eq_self.mpr]
    exact fun piece hpiece => decide_eq_true fun heq => hrest (heq ▸ hpiece)
  have htext : List.intercalate ['/'] (components (c :: cs)) = c :: cs := by
    rw [components_eq_splitOn h.noBackslash, List.intercalate_splitOn]
  -- a leading `.` is kept only as the whole text, as `./` is no canonical beginning
  by_cases hdot : c :: first = ['.']
  · cases rest with
    | nil =>
      rw [hcomponents, hdot, List.intercalate_singleton] at htext
      rw [← htext]
      rfl
    | cons second rest =>
      rw [hcomponents, hdot, List.intercalate_cons_cons] at htext
      exact absurd ⟨_, htext⟩ h.noDot
  · have hkept : kept (c :: cs) = components (c :: cs) := by
      rw [kept, hfilled, hcomponents, List.dropWhile_cons_of_neg (by simpa using hdot)]
    rw [joined, hkept, if_neg (by simp [hcomponents]), htext]

/-! ## 4. Patterns of one path

Where there is neither a glob nor a blank, the reach of a pattern is its text, so patterns that
collide alike are spelled alike. -/

/-- A pattern that names a path of the project: no glob, no blank, and not from the file system's
root. -/
structure IsPath (p : String) : Prop where
  literal : isGlob p.toList = false
  blankFree : BlankFree p
  relative : IsRelative p.toList

theorem head?_dropDots {cs : List Char} (hdouble : ¬ ['/', '/'] <:+: cs)
    (h : cs.head? ≠ some '/') : (dropDots cs).head? ≠ some '/' := by
  fun_induction dropDots cs with
  | case1 cs ih =>
    rw [List.infix_cons_iff, List.infix_cons_iff, prefix_pair_iff, prefix_pair_iff] at hdouble
    exact ih (fun hwithin => hdouble (Or.inr (Or.inr hwithin)))
      fun hhead => hdouble (Or.inr (Or.inl ⟨rfl, hhead⟩))
  | case2 cs _ => exact h

theorem head?_dropSlashes (cs : List Char) : (dropSlashes cs).head? = cs.head? := by
  cases cs <;> rfl

theorem IsRelative.passes {cs : List Char} (h : IsRelative cs) :
    (passes cs).head? ≠ some '/' := by
  rw [Pattern.passes, head?_dropSlashes]
  refine head?_dropDots (not_infix_squeeze _) ?_
  rw [head?_squeeze, List.head?_map, Ne, Option.map_eq_some_iff]
  rintro ⟨c, hc, hslash⟩
  have hnone := h c hc
  rw [← isSeparator_toSlash, hslash] at hnone
  cases hnone

variable {a a' : String}

theorem IsPath.kept_canonical (h : IsPath a) : kept (canonical a.toList) = kept a.toList := by
  rw [canonical_eq_passes, trimChars_eq_self h.blankFree]
  split
  · rename_i hroot
    rw [← kept_passes a.toList]
    rcases hroot with hnil | hslash
    · rw [hnil]
      rfl
    · exact absurd (by rw [hslash]; rfl) h.relative.passes
  · exact kept_passes _

/-- **The canonical spelling of a path is its kept components, joined.** -/
theorem IsPath.canonical_eq_joined (h : IsPath a) :
    canonical a.toList = joined (kept a.toList) := by
  rw [← h.kept_canonical]
  refine ((canonical_isCanonical _).joined_kept fun c hc => ?_).symm
  have hback : c ≠ '\\' := fun heq =>
    (canonical_isCanonical a.toList).noBackslash (heq ▸ List.mem_of_mem_head? hc)
  have hslash : c ≠ '/' := by
    rw [canonical_eq_passes, trimChars_eq_self h.blankFree] at hc
    split at hc
    · cases hc
      decide
    · exact fun heq => h.relative.passes (heq ▸ hc)
  simp [isSeparator, hback, hslash]

theorem IsPath.isGlob_canonical (h : IsPath a) : isGlob (canonical a.toList) = false := by
  rw [canonical_eq_passes, trimChars_eq_self h.blankFree]
  split
  · rfl
  · rw [isGlob, List.any_eq_false]
    intro c hc
    obtain ⟨d, hd, rfl⟩ := List.mem_map.mp ((passes_sublist _).subset hc)
    have hplain := List.any_eq_false.mp h.literal d hd
    unfold toSlash
    split
    · decide
    · exact hplain

/-- Literal patterns have the same reach only if they are the same. -/
theorem reach_inj_of_literal {x y : List Char} (hx : isGlob x = false) (hy : isGlob y = false) :
    reach x = reach y ↔ x = y := by
  refine ⟨fun heq => ?_, fun heq => by rw [heq]⟩
  by_cases hxroot : x = ['.'] <;> by_cases hyroot : y = ['.']
  · rw [hxroot, hyroot]
  · rw [hxroot, reach_of_literal hy hyroot] at heq
    cases heq
  · rw [hyroot, reach_of_literal hx hxroot] at heq
    cases heq
  · rw [reach_of_literal hx hxroot, reach_of_literal hy hyroot] at heq
    exact congrArg Reach.stem heq

theorem IsPath.canonical_eq_iff (ha : IsPath a) (ha' : IsPath a') :
    canonical a.toList = canonical a'.toList ↔ kept a.toList = kept a'.toList := by
  refine ⟨fun heq => ?_, fun heq => ?_⟩
  · rw [← ha.kept_canonical, heq, ha'.kept_canonical]
  · rw [ha.canonical_eq_joined, heq, ha'.canonical_eq_joined]

/-- **Which spellings of a path the overlap test takes for the same.**  For patterns that name
paths:

* two collide with the same patterns exactly if the same components are kept of them;
* so spellings of one path do, if they hold `.` in front of the first name only. -/
theorem respelled_collides_iff (ha : IsPath a) (ha' : IsPath a') :
    ((∀ b, intersects a b = intersects a' b) ↔ kept a.toList = kept a'.toList) ∧
    (named a.toList = named a'.toList → ['.'] ∉ kept a.toList → ['.'] ∉ kept a'.toList →
      ∀ b, intersects a b = intersects a' b) := by
  have hcollides : (∀ b, intersects a b = intersects a' b) ↔ kept a.toList = kept a'.toList := by
    simp only [intersects_comm a, intersects_comm a']
    rw [intersects_congr_iff, reach_inj_of_literal ha.isGlob_canonical ha'.isGlob_canonical,
      ha.canonical_eq_iff ha']
  refine ⟨hcollides, fun hnamed hnone hnone' => hcollides.mpr ?_⟩
  rw [kept_eq_named hnone, kept_eq_named hnone', hnamed]

/-- Separators of either kind and number, and `./` in front, make no difference. -/
theorem doubled_separators_collide_alike :
    IsPath ".//./src\\\\api/" ∧ IsPath "src/api" ∧
      ∀ b, intersects ".//./src\\\\api/" b = intersects "src/api" b := by
  have hleft : IsPath ".//./src\\\\api/" := ⟨by decide, by decide, by decide⟩
  have hright : IsPath "src/api" := ⟨by decide, by decide, by decide⟩
  exact ⟨hleft, hright, (respelled_collides_iff hleft hright).2 (by decide) (by decide) (by decide)⟩

/-- **A `.` behind the first name hides what lies below it.**  `src/./api` and `src/api` name the
same path, and only the second collides with a file in it. -/
theorem dot_inside_misses_overlap :
    named "src/./api".toList = [['s', 'r', 'c'], ['a', 'p', 'i']] ∧
      named "src/api".toList = [['s', 'r', 'c'], ['a', 'p', 'i']] ∧
      IsPath "src/./api" ∧ IsPath "src/api" ∧
      intersects "src/./api" "src/api/users.rs" = false ∧
      intersects "src/api" "src/api/users.rs" = true :=
  ⟨by decide, by decide, ⟨by decide, by decide, by decide⟩, ⟨by decide, by decide, by decide⟩,
    by decide, by decide⟩

end Pattern
end Foreman
