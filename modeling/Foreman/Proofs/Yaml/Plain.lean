/-
# Plain scalars

A plain scalar is a run of words with blanks between them.  It ends at a line that is not deeper
than the block around it, or at a colon with a blank behind it; a word that starts with a number
sign would be a comment.

* `plainRun_of_allowed`: what may be written plainly has none of these in it.
* `scanPlain_line`: it is read up to the first word of the next line.
* `scanPlain_key`: a word in front of a colon is read up to it.
-/
import Foreman.Proofs.Yaml.Quoted

namespace Foreman
namespace Yaml

variable {fuel i l k n : Nat} {b x : Char} {w r s cs rest : List Char} {f : Fold}

/-! ## 1. Marks

The characters with which a plain scalar may not start, and those that end it. -/

theorem isApart_append (h : isApart s.head? = false) (rest : List Char) :
    isApart (s ++ rest).head? = false := by
  cases s with
  | nil => cases h
  | cons x s => exact h

theorem hasInnerMark_right : ∀ {w : List Char} {b : Char}, hasInnerMark b (w ++ r) = false →
    ∃ b', hasInnerMark b' r = false
  | [], b, h => ⟨b, h⟩
  | x :: _, _, h => hasInnerMark_right (b := x) ((Bool.or_eq_false_iff.mp h).2)

theorem hasInnerMark_spaces : ∀ {n : Nat} {b : Char}, hasInnerMark b (spaces (n + 1) ++ s) = false →
    hasInnerMark ' ' s = false
  | 0, _, h => (Bool.or_eq_false_iff.mp h).2
  | _ + 1, _, h => hasInnerMark_spaces (b := ' ') ((Bool.or_eq_false_iff.mp h).2)

/-- Words with blanks between them that hold no mark. -/
structure PlainRun (cs : List Char) : Prop where
  start : ∃ x r, cs = x :: r ∧ isInk x = true ∧ x ≠ '#'
  solid : ∀ x ∈ cs, isInk x = true ∨ x = ' '
  last : cs.getLast? ≠ some ' '
  unmarked : ∃ b, hasInnerMark b cs = false

theorem plainRun_of_allowed (hne : cs ≠ []) (h : allowsPlain cs = true) : PlainRun cs := by
  simp only [allowsPlain, needsEscapes, Bool.and_eq_true, Bool.not_eq_true', Bool.or_eq_false_iff,
    List.any_eq_false, Bool.not_eq_false] at h
  obtain ⟨⟨⟨⟨⟨⟨hprint, -⟩, -⟩, hmark⟩, hbreak⟩, hhead⟩, hlast⟩ := h
  obtain ⟨x, r, rfl⟩ := List.exists_cons_of_ne_nil hne
  have hsolid : ∀ y ∈ x :: r, isInk y = true ∨ y = ' ' := by
    intro y hy
    by_cases hgap : isGap y = true
    · exact Or.inr (eq_space_of_isGap hgap (hprint y hy))
    · exact Or.inl (isInk_iff.mpr ⟨by simpa using hgap, by simpa using hbreak y hy⟩)
  obtain ⟨hlead, hinner⟩ := Bool.or_eq_false_iff.mp hmark
  have hx : x ≠ '#' := by
    rintro rfl
    simp [isLeadMark] at hlead
  have hspace : x ≠ ' ' := by
    rintro rfl
    simp [isSpaceOrBreak] at hhead
  refine ⟨⟨x, r, rfl, (hsolid x List.mem_cons_self).resolve_right hspace, hx⟩, hsolid, ?_, 'x', ?_⟩
  · intro hend
    simp [hend, isSpaceOrBreak] at hlast
  · -- a colon in front would be a mark there too
    refine Bool.or_eq_false_iff.mpr ⟨?_, hinner⟩
    simp only [isLeadMark, Bool.or_eq_false_iff] at hlead
    by_cases hcolon : x = ':'
    · simp [isInnerMark, hcolon] at hlead ⊢
      exact hlead
    · simp [isInnerMark, hcolon, hx]

/-- A line end behind the text does not make a mark of its first character. -/
theorem not_isLeadMark_of_allowed (h : allowsPlain (x :: r) = true) (rest : List Char) :
    isLeadMark x (r ++ '\n' :: rest).head? = false := by
  simp only [allowsPlain, hasMark, Bool.and_eq_true, Bool.not_eq_true', Bool.or_eq_false_iff] at h
  have hlead := h.1.1.1.2.1
  cases r with
  | nil => exact hlead
  | cons y r => exact hlead

/-- What stands behind a blank is a run again. -/
theorem PlainRun.more (h : PlainRun (w ++ (spaces (n + 1) ++ s))) (hs : s.head? ≠ some ' ') :
    PlainRun s := by
  have hsolid : ∀ x ∈ s, isInk x = true ∨ x = ' ' := fun x hx => h.solid x (by simp [hx])
  obtain ⟨b, hmark⟩ := h.unmarked
  obtain ⟨b', hmark'⟩ := hasInnerMark_right hmark
  have hunmarked := hasInnerMark_spaces hmark'
  rcases s with - | ⟨x, s⟩
  · exact absurd (by simp [spaces, List.getLast?_append, List.getLast?_replicate]) h.last
  · have hx : x ≠ ' ' := fun hx => hs (congrArg some hx)
    refine ⟨⟨x, s, rfl, (hsolid x List.mem_cons_self).resolve_right hx, ?_⟩, hsolid, ?_, ' ',
      hunmarked⟩
    · rintro rfl
      exact absurd hunmarked (by simp [hasInnerMark, isInnerMark, isApart, isGap])
    · have hlast := h.last
      rwa [List.getLast?_append_of_ne_nil _ (by simp),
        List.getLast?_append_of_ne_nil _ (by simp)] at hlast

/-! ## 2. Words

A word is read up to a blank or a mark. -/

/-- A word is read up to a gap or a line end. -/
theorem scanPlainWord_append (hrest : ∃ y q, r ++ rest = y :: q ∧ isInk y = false) :
    ∀ {w : List Char} (acc : List Char) {b : Char} {fuel i k : Nat}, (∀ x ∈ w, isInk x = true) →
      hasInnerMark b (w ++ r) = false → w.length < fuel →
      scanPlainWord false fuel acc ⟨w ++ (r ++ rest), i, l, k⟩ =
        some (acc.reverse ++ w, ⟨r ++ rest, i + w.length, l, k + w.length⟩)
  | [], acc, b, fuel + 1, i, k, _, _, _ => by
    obtain ⟨y, q, heq, hy⟩ := hrest
    have hstop : (isGap y || isBreak y) = true := not_isInk_iff.mp (by simp [hy])
    simp [heq, scanPlainWord, Cursor.peek, hstop]
  | x :: w, acc, b, fuel + 1, i, k, hw, hmark, hfuel => by
    rw [List.forall_mem_cons] at hw
    obtain ⟨hgap, hbreak⟩ := isInk_iff.mp hw.1
    obtain ⟨hhere, hmore⟩ := Bool.or_eq_false_iff.mp hmark
    have hcolon : (x = ':' && isApart (w ++ (r ++ rest)).head?) = false := by
      by_cases hx : x = ':'
      · have hnext : isApart (w ++ r).head? = false := by
          rw [isInnerMark, decide_eq_true hx, Bool.true_and] at hhere
          exact (Bool.or_eq_false_iff.mp hhere).1
        rw [← List.append_assoc, isApart_append hnext, Bool.and_false]
      · rw [decide_eq_false hx, Bool.false_and]
    have ih := scanPlainWord_append hrest (x :: acc) (i := i + 1) (k := k + 1) hw.2 hmore
      (Nat.lt_of_succ_lt_succ hfuel)
    simp only [scanPlainWord, Cursor.peek, List.cons_append, List.head?_cons, hgap, hbreak,
      Cursor.gapOrStopAt_one, hcolon, Cursor.skip, Bool.or_false, Bool.false_and,
      Bool.false_eq_true, if_false]
    rw [ih, List.reverse_cons, List.append_assoc, List.singleton_append, List.length_cons,
      Nat.add_right_comm i, Nat.add_right_comm k]
    rfl

/-! ## 3. Runs

Words with blanks between them, on one line. -/

/-- A word of a run and the fold behind it. -/
theorem scanPlainBody_word {indent : Int} {c : Cursor} {f g : Fold}
    (hw : ∀ x ∈ w, isInk x = true) (hhead : ∃ x q, w = x :: q ∧ x ≠ '#')
    (hmark : hasInnerMark b (w ++ r) = false)
    (hrest : ∃ y q, r ++ rest = y :: q ∧ isInk y = false) (hk : k ≠ 0)
    (hfold : scanFold (some indent) ((r ++ rest).length + 1) {}
      ⟨r ++ rest, i + w.length, l, k + w.length⟩ = some (g, c)) (fuel : Nat) (acc : List Char) :
    scanPlainBody false indent (fuel + 1) f acc ⟨w ++ (r ++ rest), i, l, k⟩ =
      if (c.column : Int) < indent then some (acc ++ f.text ++ w, g.inBreaks, c)
      else scanPlainBody false indent fuel g (acc ++ f.text ++ w) c := by
  have hword := scanPlainWord_append (l := l) hrest [] (i := i) (k := k) hw hmark
    (show w.length < (w ++ (r ++ rest)).length + 1 by rw [List.length_append]; omega)
  obtain ⟨x, q, rfl, hx⟩ := hhead
  obtain ⟨y, q', heq, hy⟩ := hrest
  rw [heq] at hfold hword ⊢
  have hmarker : Cursor.isDocumentMarker ⟨x :: q ++ y :: q', i, l, k⟩ = false :=
    Cursor.not_isDocumentMarker hk
  have hcomment : Cursor.has ⟨x :: q ++ y :: q', i, l, k⟩ 0 '#' = false :=
    decide_eq_false fun h => hx (Option.some.inj h)
  have hstop : (Cursor.gapAt ⟨y :: q', i + (x :: q).length, l, k + (x :: q).length⟩ 0 ||
      Cursor.breakAt ⟨y :: q', i + (x :: q).length, l, k + (x :: q).length⟩ 0) = true :=
    not_isInk_iff.mp (by simp [hy])
  simp only [scanPlainBody, hmarker, hcomment, hword, hstop, hfold, Bool.or_self,
    Bool.false_eq_true, if_false, Bool.not_true, Bool.not_false, Bool.true_and, decide_eq_true_eq,
    List.reverse_nil, List.nil_append, reduceCtorEq]

/-- **A run is read up to the first word of the next line**, which is not deeper than the block. -/
theorem scanPlainBody_run (hrest : StartsInk rest) {indent : Int} (hn : (n : Int) < indent) :
    ∀ {cs : List Char} (fuel : Nat) (f : Fold) (acc : List Char) (i k : Nat), PlainRun cs →
      cs.length < fuel → indent ≤ k → k ≠ 0 → ∃ i',
      scanPlainBody false indent fuel f acc ⟨cs ++ '\n' :: (spaces n ++ rest), i, l, k⟩ =
        some (acc ++ f.text ++ cs, true, ⟨rest, i', l + 1, n⟩) := by
  intro cs
  -- on the length, as a step takes a word and all blanks behind it
  induction hlength : cs.length using Nat.strongRecOn generalizing cs with
  | ind m ih =>
    intro fuel f acc i k h hfuel hindent hk
    rcases fuel with - | fuel
    · exact absurd hfuel (Nat.not_lt_zero _)
    obtain ⟨b, hmark⟩ := h.unmarked
    obtain ⟨w, r, rfl, hw, hr⟩ := exists_run isInk cs
    have hhead : ∃ x q, w = x :: q ∧ x ≠ '#' := by
      obtain ⟨x, q, heq, hink, hx⟩ := h.start
      rcases w with - | ⟨y, w⟩
      · exact absurd (hr x (by simpa using congrArg List.head? heq)) (by simp [hink])
      · exact ⟨y, w, rfl, (List.cons.inj heq).1 ▸ hx⟩
    rw [List.append_assoc]
    rcases r with - | ⟨x, r⟩
    · -- the line ends
      have hfold : scanFold (some indent) (([] ++ '\n' :: (spaces n ++ rest)).length + 1) {}
          ⟨[] ++ '\n' :: (spaces n ++ rest), i + w.length, l, k + w.length⟩ = some (_, _) :=
        scanFold_line hrest rfl (List.forall_mem_nil _) rfl (by simp; omega)
      rw [scanPlainBody_word hw hhead hmark ⟨'\n', _, rfl, rfl⟩ hk hfold, if_pos hn]
      exact ⟨i + w.length + 1 + n, by simp⟩
    · have hx : x = ' ' := (h.solid x (by simp)).resolve_left (by simpa using hr x rfl)
      obtain ⟨g, s, rfl, hs⟩ := exists_spaces r
      have hcut : x :: (spaces g ++ s) = spaces (g + 1) ++ s := by rw [hx, spaces_succ]; rfl
      rw [hcut] at h hmark hlength ⊢
      have hmore := h.more hs
      have hnext : StartsInk (s ++ '\n' :: (spaces n ++ rest)) := by
        obtain ⟨y, q, hstart, hink, -⟩ := hmore.start
        exact hstart ▸ startsInk_cons.mpr hink
      have hfold : scanFold (some indent)
          ((spaces (g + 1) ++ s ++ '\n' :: (spaces n ++ rest)).length + 1) {}
          ⟨spaces (g + 1) ++ s ++ '\n' :: (spaces n ++ rest), i + w.length, l, k + w.length⟩ =
            some ({ gap := spaces (g + 1) }, ⟨s ++ '\n' :: (spaces n ++ rest),
              i + w.length + (g + 1), l, k + w.length + (g + 1)⟩) := by
        rw [List.append_assoc]
        exact scanFold_spaces hnext {} rfl (by simp; omega)
      simp only [List.length_append, length_spaces] at hlength
      have hdeep : ¬((k + w.length + (g + 1) : Nat) : Int) < indent := by omega
      rw [scanPlainBody_word hw hhead hmark ⟨' ', _, rfl, rfl⟩ hk hfold, if_neg hdeep]
      obtain ⟨i', hread⟩ := ih s.length (by omega) rfl fuel { gap := spaces (g + 1) }
        (acc ++ f.text ++ w) _ (k + w.length + (g + 1)) hmore (by omega) (by omega) (by omega)
      refine ⟨i', hread.trans ?_⟩
      rw [← List.append_assoc w, ← List.append_assoc, ← List.append_assoc]
      rfl

/-- **A plain scalar is read as its text**, up to the first word of the next line. -/
theorem scanPlain_line {parent : Int} (h : PlainRun cs) (hrest : StartsInk rest)
    (hn : (n : Int) ≤ parent)
    (hk : parent < k) (i l : Nat) : ∃ i',
    scanPlain false parent ⟨cs ++ '\n' :: (spaces n ++ rest), i, l, k⟩ =
      some (.scalar (String.ofList cs) .plain, true, ⟨rest, i', l + 1, n⟩) := by
  obtain ⟨i', hread⟩ := scanPlainBody_run hrest (Int.lt_add_one_of_le hn)
    ((cs ++ '\n' :: (spaces n ++ rest)).length + 1) {} [] i k h
    (by simp only [List.length_append]; omega) hk (by omega)
  refine ⟨i', ?_⟩
  rw [scanPlain, hread]
  rfl

/-! ## 4. Keys

A key ends at the colon behind it. -/

/-- A character of a field's name. -/
def isFieldChar (x : Char) : Bool := x.isAlpha || x = '_'

theorem ne_of_isFieldChar {y : Char} (h : isFieldChar x = true) (hy : isFieldChar y = false) :
    x ≠ y := by
  rintro rfl
  exact absurd (h.symm.trans hy) (by decide)

theorem isInk_of_isFieldChar (h : isFieldChar x = true) : isInk x = true := by
  by_contra hink
  have hapart := not_isInk_iff.mp hink
  simp only [isGap, isBreak, Bool.or_eq_true, decide_eq_true_eq] at hapart
  rcases hapart with (rfl | rfl) | (((rfl | rfl) | rfl) | rfl) | rfl <;> exact absurd h (by decide)

theorem isPrintable_of_isFieldChar (h : isFieldChar x = true) : isPrintable x = true := by
  have hranges : (decide ('A'.val ≤ x.val ∧ x.val ≤ 'Z'.val) ||
      (decide ('a'.val ≤ x.val) && decide (x.val ≤ 'z'.val)) || decide (x = '_')) = true := h
  simp only [Bool.or_eq_true, Bool.and_eq_true, decide_eq_true_eq,
    UInt32.le_iff_toNat_le] at hranges
  simp only [isPrintable, Bool.or_eq_true, Bool.and_eq_true, decide_eq_true_eq]
  rcases hranges with (⟨hmin, hmax⟩ | ⟨hmin, hmax⟩) | rfl
  · have hmin : 65 ≤ x.toNat := hmin
    have hmax : x.toNat ≤ 90 := hmax
    omega
  · have hmin : 97 ≤ x.toNat := hmin
    have hmax : x.toNat ≤ 122 := hmax
    omega
  · decide

/-- No marker of documents starts with a letter. -/
theorem not_isMarker_of_isFieldChar {y : Char} (hx : isFieldChar x = true)
    (hy : isFieldChar y = false) (rest : List Char) (i l k : Nat) :
    Cursor.isMarker y ⟨x :: rest, i, l, k⟩ = false := by
  simp [Cursor.isMarker, Cursor.has, Cursor.peekAt, ne_of_isFieldChar hx hy]

theorem scanPlainWord_key (hrest : isApart rest.head? = true) :
    ∀ {w : List Char} (acc : List Char) {fuel i k : Nat}, (∀ x ∈ w, isFieldChar x = true) →
      w.length < fuel → scanPlainWord false fuel acc ⟨w ++ ':' :: rest, i, l, k⟩ =
        some (acc.reverse ++ w, ⟨':' :: rest, i + w.length, l, k + w.length⟩)
  | [], acc, fuel + 1, i, k, _, _ => by
    have hink : isGap ':' = false ∧ isBreak ':' = false := ⟨rfl, rfl⟩
    simp [scanPlainWord, Cursor.peek, Cursor.gapOrStopAt_one, hink, hrest]
  | x :: w, acc, fuel + 1, i, k, hw, hfuel => by
    rw [List.forall_mem_cons] at hw
    obtain ⟨hgap, hbreak⟩ := isInk_iff.mp (isInk_of_isFieldChar hw.1)
    have hcolon : x ≠ ':' := ne_of_isFieldChar hw.1 (by decide)
    have ih := scanPlainWord_key hrest (x :: acc) (i := i + 1) (k := k + 1) hw.2
      (Nat.lt_of_succ_lt_succ hfuel)
    simp only [scanPlainWord, Cursor.peek, List.cons_append, List.head?_cons, hgap, hbreak, hcolon,
      Cursor.skip, Bool.or_false, Bool.false_and, Bool.false_eq_true, if_false, decide_false]
    rw [ih, List.reverse_cons, List.append_assoc, List.singleton_append, List.length_cons,
      Nat.add_right_comm i, Nat.add_right_comm k]
    rfl

/-- **A word in front of a colon is read up to it.** -/
theorem scanPlain_key {parent : Int} (hw : ∀ x ∈ w, isFieldChar x = true) (hne : w ≠ [])
    (hrest : isApart rest.head? = true) :
    scanPlain false parent ⟨w ++ ':' :: rest, i, l, k⟩ =
      some (.scalar (String.ofList w) .plain, false,
        ⟨':' :: rest, i + w.length, l, k + w.length⟩) := by
  have hword := scanPlainWord_key (l := l) (i := i) (k := k) hrest [] hw
    (show w.length < (w ++ ':' :: rest).length + 1 by rw [List.length_append]; omega)
  obtain ⟨x, q, rfl⟩ := List.exists_cons_of_ne_nil hne
  have hx := hw x List.mem_cons_self
  have hhead : Cursor.has ⟨x :: q ++ ':' :: rest, i, l, k⟩ 0 '#' = false :=
    decide_eq_false fun h => ne_of_isFieldChar hx (by decide) (Option.some.inj h)
  have hmarker : Cursor.isDocumentMarker ⟨x :: q ++ ':' :: rest, i, l, k⟩ = false := by
    rw [Cursor.isDocumentMarker, List.cons_append, not_isMarker_of_isFieldChar hx (by decide),
      not_isMarker_of_isFieldChar hx (by decide), Bool.or_self]
  have hstop : (Cursor.gapAt ⟨':' :: rest, i + (x :: q).length, l, k + (x :: q).length⟩ 0 ||
      Cursor.breakAt ⟨':' :: rest, i + (x :: q).length, l, k + (x :: q).length⟩ 0) = false := rfl
  simp only [scanPlain, scanPlainBody, hmarker, hhead, hword, hne, hstop, Bool.or_self,
    Bool.false_eq_true, if_false, if_true, Bool.not_false, List.reverse_nil, List.nil_append,
    Option.map_some, Fold.text]

end Yaml
end Foreman
