/-
# Texts and numbers as scalars

A text gets a style that can hold it, and where that is the plain style it is read as a text.  A
number is written plainly, and read as that number.

* `fitsStyle_styleOf`: the style of a text can hold it.
* `plainValue_eq_text`: what is written plainly for a text is one.
* `plainValue_toString`: an integer of 64 bits.
-/
import Foreman.Proofs.Text.Digits
import Foreman.Proofs.Yaml.Blocks

namespace Foreman
namespace Yaml

open Scanner Text

variable {s : String} {cs : List Char} {n : Nat}

/-! ## 1. Texts

Each style has a condition, and the style that is chosen meets its own. -/

/-- Why a text has its style. -/
theorem styleOf_cases (s : String) :
    styleOf s = .doubleQuoted ∨
      (styleOf s = .literal ∧ '\n' ∈ s.toList ∧ allowsLiteral s.toList = true) ∨
      (styleOf s = .singleQuoted ∧ '\n' ∉ s.toList ∧ allowsSingle s.toList = true) ∨
      (styleOf s = .plain ∧ readsAsText s = true ∧ allowsPlain s.toList = true) := by
  simp only [styleOf, List.contains_iff_mem]
  split
  · split
    · exact Or.inr (Or.inl ⟨rfl, ‹_›, ‹_›⟩)
    · exact Or.inl rfl
  · split
    · exact Or.inr (Or.inr (Or.inr ⟨rfl, (Bool.and_eq_true _ _).mp ‹_›⟩))
    · split
      · exact Or.inr (Or.inr (Or.inl ⟨rfl, ‹_›, ‹_›⟩))
      · exact Or.inl rfl

/-- **The style of a text can hold it.** -/
theorem fitsStyle_styleOf (s : String) : FitsStyle s (styleOf s) := by
  rcases styleOf_cases s with
    h | ⟨h, hline, hallowed⟩ | ⟨h, hline, hallowed⟩ | ⟨h, hreads, hallowed⟩
  · rw [h]
    trivial
  · rw [h]
    exact ⟨List.ne_nil_of_mem hline, hallowed⟩
  · rw [h]
    exact fitsSingle_of_allowed hallowed hline
  · rw [h]
    refine ⟨fun hempty => ?_, hallowed⟩
    -- the empty text would be read as null
    obtain rfl : s = "" := String.toList_inj.mp hempty
    cases hreads

/-- What is written plainly for a text is read as one. -/
theorem plainValue_eq_text (h : styleOf s = .plain) : plainValue s = .text := by
  rcases styleOf_cases s with h' | ⟨h', -⟩ | ⟨h', -⟩ | ⟨-, hreads, -⟩
  · cases h.symm.trans h'
  · cases h.symm.trans h'
  · cases h.symm.trans h'
  · unfold readsAsText at hreads
    split at hreads
    · assumption
    · cases hreads

theorem isNullWord_eq_false (h : plainValue s = .text) : isNullWord s = false := by
  by_contra hnull
  rw [plainValue, if_pos (Bool.not_eq_false _ ▸ hnull)] at h
  cases h

/-! ## 2. Words and numbers

What would be read as something else than a text is quoted. -/

/-- A character of a word or a number. -/
def isWordMark (x : Char) : Bool := isFieldChar x || x.isDigit

theorem ne_of_isWordMark {x y : Char} (hx : isWordMark x = true) (hy : isWordMark y = false) :
    x ≠ y := by
  rintro rfl
  exact absurd (hx.symm.trans hy) (by decide)

theorem isPrintable_of_isWordMark {x : Char} (h : isWordMark x = true) : isPrintable x = true := by
  rcases Bool.or_eq_true _ _ ▸ h with h | h
  · exact isPrintable_of_isFieldChar h
  · have hrange := isDigit_range h
    simp only [isPrintable, Bool.or_eq_true, Bool.and_eq_true, decide_eq_true_eq]
    omega

theorem isInk_of_isWordMark {x : Char} (h : isWordMark x = true) : isInk x = true := by
  by_contra hink
  have hapart := not_isInk_iff.mp hink
  simp only [isGap, isBreak, Bool.or_eq_true, decide_eq_true_eq] at hapart
  rcases hapart with (rfl | rfl) | (((rfl | rfl) | rfl) | rfl) | rfl <;> exact absurd h (by decide)

theorem hasInnerMark_word (h : ∀ x ∈ cs, isWordMark x = true) (b : Char) :
    hasInnerMark b cs = false := by
  induction cs generalizing b with
  | nil => rfl
  | cons x cs ih =>
    rw [List.forall_mem_cons] at h
    have hcolon : x ≠ ':' := ne_of_isWordMark h.1 (by decide)
    have hcomment : x ≠ '#' := ne_of_isWordMark h.1 (by decide)
    simp [hasInnerMark, isInnerMark, hcolon, hcomment, ih h.2]

theorem allowsPlain_of_ink (hink : ∀ x ∈ cs, isInk x = true)
    (hprint : ∀ x ∈ cs, isPrintable x = true)
    (hmarker : startsLikeMarker cs = false) (hmark : hasMark cs = false) :
    allowsPlain cs = true := by
  have hsolid : ∀ x ∈ cs, isSpaceOrBreak x = false := by
    intro x hx
    obtain ⟨hgap, hbreak⟩ := isInk_iff.mp (hink x hx)
    simp only [isGap, Bool.or_eq_false_iff] at hgap
    simp [isSpaceOrBreak, hgap, hbreak]
  have hchain : spaceBeforeBreak cs = false := by
    refine spaceBeforeBreak_eq_false_iff.mpr (List.Pairwise.isChain ?_)
    exact List.pairwise_of_forall_mem_list fun _ _ y hy _ => (isInk_iff.mp (hink y hy)).2
  have hbreaks : cs.any isBreak = false :=
    List.any_eq_false.mpr fun x hx => by simp [(isInk_iff.mp (hink x hx)).2]
  have hescapes : (cs.any fun x => !isPrintable x) = false :=
    List.any_eq_false.mpr fun x hx => by simp [hprint x hx]
  have hends : ∀ o : Option Char, (∀ x ∈ o, x ∈ cs) → o.any isSpaceOrBreak = false := by
    rintro (- | x) ho
    · rfl
    · exact hsolid x (ho x rfl)
  rw [allowsPlain, needsEscapes, hchain, hbreaks, hescapes, hmarker, hmark,
    hends _ fun _ => List.mem_of_mem_head?, hends _ fun _ => List.mem_of_mem_getLast?]
  rfl

/-- **A word can stand plainly**, and so can a negative number. -/
theorem allowsPlain_word (h : ∀ x ∈ cs, isWordMark x = true) (hne : cs ≠ []) :
    allowsPlain cs = true ∧ allowsPlain ('-' :: cs) = true := by
  obtain ⟨x, cs, rfl⟩ := List.exists_cons_of_ne_nil hne
  have hx := h x List.mem_cons_self
  have hdash : x ≠ '-' := ne_of_isWordMark hx (by decide)
  have hdot : x ≠ '.' := ne_of_isWordMark hx (by decide)
  have hlead : ∀ next, isLeadMark x next = false := by
    intro next
    have hne : ∀ y : Char, isWordMark y = false → x ≠ y := fun _ => ne_of_isWordMark hx
    simp [isLeadMark, hne, isWordMark, isFieldChar]
  have hprint : ∀ y ∈ x :: cs, isPrintable y = true :=
    fun y hy => isPrintable_of_isWordMark (h y hy)
  have hink : ∀ y ∈ x :: cs, isInk y = true := fun y hy => isInk_of_isWordMark (h y hy)
  have hapart : isApart (some x) = false := by
    obtain ⟨hgap, hbreak⟩ := isInk_iff.mp (hink x List.mem_cons_self)
    rw [isApart, hgap, hbreak]
    rfl
  refine ⟨allowsPlain_of_ink hink hprint ?_ ?_, allowsPlain_of_ink ?_ ?_ ?_ ?_⟩
  · simp [startsLikeMarker, hdash, hdot]
  · rw [hasMark, hlead, hasInnerMark_word fun y hy => h y (List.mem_cons_of_mem x hy)]
    rfl
  · exact List.forall_mem_cons.mpr ⟨by decide, hink⟩
  · exact List.forall_mem_cons.mpr ⟨by decide, hprint⟩
  · simp [startsLikeMarker, hdash]
  · rw [hasMark, hasInnerMark_word h]
    simp [isLeadMark, hapart]

/-- Words are texts that stand plainly, as keys do. -/
theorem fitsStyle_word (h : ∀ x ∈ s.toList, isWordMark x = true) (hne : s.toList ≠ []) :
    FitsStyle s .plain :=
  ⟨hne, (allowsPlain_word h hne).1⟩

theorem isWordMark_of_mem_toDigits {x : Char} (h : x ∈ Nat.toDigits 10 n) :
    isWordMark x = true := by
  rw [isWordMark, isDigit_of_mem_toDigits h, Bool.or_true]

/-- **An integer can stand plainly.** -/
theorem fitsStyle_toString (m : Int) : FitsStyle (toString m) .plain := by
  have hword := fun n =>
    allowsPlain_word (fun x => isWordMark_of_mem_toDigits) (Nat.toDigits_ne_nil (b := 10) (n := n))
  by_cases hneg : m < 0
  · obtain ⟨n, rfl⟩ : ∃ n : Nat, m = -(n : Int) := ⟨m.natAbs, by omega⟩
    have hchars := toString_neg_toList (n := n) (by omega)
    exact ⟨by rw [hchars]; exact List.cons_ne_nil _ _, by rw [hchars]; exact (hword n).2⟩
  · obtain ⟨n, rfl⟩ := Int.eq_ofNat_of_zero_le (a := m) (by omega)
    have hchars := toString_natCast_toList n
    exact ⟨by rw [hchars]; exact Nat.toDigits_ne_nil, by rw [hchars]; exact (hword n).1⟩

/-! ## 3. Numbers are read back

An integer has one plain spelling, and it is read as that integer. -/

theorem digitsIn?_of_digits (h : ∀ c ∈ cs, c.isDigit = true) (hne : cs ≠ []) :
    digitsIn? 10 cs = some (Nat.ofDigitChars 10 cs 0) := by
  have hfold : ∀ (cs : List Char) (acc : Nat), (∀ c ∈ cs, c.isDigit = true) →
      cs.foldl (fun acc c => acc.bind fun n => (digitIn? 10 c).map (10 * n + ·)) (some acc) =
        some (Nat.ofDigitChars 10 cs acc) := by
    intro cs
    induction cs with
    | nil => exact fun _ _ => rfl
    | cons c cs ih =>
      intro acc h
      rw [List.forall_mem_cons] at h
      have hrange := isDigit_range h.1
      have hdigit : digitIn? 10 c = some (c.toNat - '0'.toNat) := by
        have hvalue : c.toNat - '0'.toNat < 10 := by
          have hzero : '0'.toNat = 48 := rfl
          omega
        simp only [digitIn?, h.1, if_true, hvalue]
      rw [List.foldl_cons, Option.bind_some, hdigit, Option.map_some, ih _ h.2,
        Nat.ofDigitChars_cons]
  rw [digitsIn?, if_neg hne, hfold cs 0 h]

/-- Digits have no mark of a base. -/
theorem based?_of_digits (h : ∀ c ∈ cs, c.isDigit = true) : based? cs = none := by
  unfold based?
  split
  · exact absurd (h 'x' (by simp)) (by decide)
  · exact absurd (h 'o' (by simp)) (by decide)
  · exact absurd (h 'b' (by simp)) (by decide)
  · rfl

theorem isZeroPadded_toDigits (n : Nat) :
    isZeroPadded (Nat.toDigits 10 n) = false ∧ isZeroPadded ('-' :: Nat.toDigits 10 n) = false := by
  obtain ⟨c, cs, hfront, hc⟩ := toDigits_front n
  have hpadded : ∀ d r, Nat.toDigits 10 n ≠ '0' :: d :: r := toDigits_ne_zero_cons n
  have hminus : c ≠ '-' := ne_of_isDigit hc rfl
  have hplus : c ≠ '+' := ne_of_isDigit hc rfl
  rw [hfront] at hpadded ⊢
  constructor
  · unfold isZeroPadded
    split
    · exact absurd (List.cons.inj ‹_›).1 hminus
    · exact absurd (List.cons.inj ‹_›).1 hplus
    · dsimp only
      split
      · exact absurd ‹_› (hpadded _ _)
      · rfl
  · unfold isZeroPadded
    dsimp only
    split
    · exact absurd ‹_› (hpadded _ _)
    · rfl

theorem digitsIn?_toDigits (n : Nat) : digitsIn? 10 (Nat.toDigits 10 n) = some n := by
  rw [digitsIn?_of_digits (fun c => isDigit_of_mem_toDigits) Nat.toDigits_ne_nil,
    Nat.ofDigitChars_toDigits (by decide) (by decide)]

theorem unsigned?_toDigits (n : Nat) : unsigned? (Nat.toDigits 10 n) = some n := by
  obtain ⟨c, cs, hfront, hc⟩ := toDigits_front n
  have hplus : c ≠ '+' := ne_of_isDigit hc rfl
  rw [unsigned?, based?_of_digits fun c => isDigit_of_mem_toDigits, (isZeroPadded_toDigits n).1,
    digitsIn?_toDigits]
  · rfl
  · intro r hr
    rw [hfront] at hr
    exact hplus (List.cons.inj hr).1

theorem negative?_toDigits (n : Nat) : negative? ('-' :: Nat.toDigits 10 n) = some n := by
  simp only [negative?, based?_of_digits fun c => isDigit_of_mem_toDigits,
    (isZeroPadded_toDigits n).2, digitsIn?_toDigits]
  rfl

/-- A minus sign is no digit. -/
theorem unsigned?_minus (cs : List Char) : unsigned? ('-' :: cs) = none := by
  have hfold : ∀ cs : List Char,
      cs.foldl (fun acc c => acc.bind fun n => (digitIn? 10 c).map (10 * n + ·)) none = none := by
    intro cs
    induction cs with
    | nil => rfl
    | cons c cs ih => exact ih
  have hdigits : digitsIn? 10 ('-' :: cs) = none := hfold cs
  rw [unsigned?, hdigits]
  · exact ite_self none
  · exact fun r hr => absurd (List.cons.inj hr).1 (by decide)

theorem toString_chars (m : Int) :
    (toString m).toList.all (fun x => x.isDigit || x = '-') = true := by
  have hdigits : ∀ n, (Nat.toDigits 10 n).all (fun x => x.isDigit || x = '-') = true := fun n =>
    List.all_eq_true.mpr fun x hx => by rw [isDigit_of_mem_toDigits hx, Bool.true_or]
  by_cases hneg : m < 0
  · obtain ⟨n, rfl⟩ : ∃ n : Nat, m = -(n : Int) := ⟨m.natAbs, by omega⟩
    rw [toString_neg_toList (by omega), List.all_cons, hdigits]
    rfl
  · obtain ⟨n, rfl⟩ := Int.eq_ofNat_of_zero_le (a := m) (by omega)
    rw [toString_natCast_toList, hdigits]

/-- A number is no word. -/
theorem not_word_of_number (hne : s ≠ "")
    (h : s.toList.all (fun x => x.isDigit || x = '-') = true) :
    isNullWord s = false ∧ boolWord? s = none := by
  have hword : ∀ w : String, w.toList.all (fun x => x.isDigit || x = '-') = false → s ≠ w := by
    rintro w hw rfl
    exact absurd (hw.symm.trans h) Bool.false_ne_true
  constructor
  · simp (disch := decide) [isNullWord, hword, hne]
  · simp (disch := decide) [boolWord?, hword]

/-- **An integer of 64 bits is read back.** -/
theorem plainValue_toString {m : Int} (hlow : -(half64 : Int) ≤ m) (hhigh : m < half64) :
    plainValue (toString m) = .integer m := by
  obtain ⟨hnull, hbool⟩ := not_word_of_number
    (fun h => (fitsStyle_toString m).1 (congrArg String.toList h)) (toString_chars m)
  rw [plainValue, hnull, hbool, if_neg Bool.false_ne_true]
  by_cases hneg : m < 0
  · obtain ⟨n, rfl⟩ : ∃ n : Nat, m = -(n : Int) := ⟨m.natAbs, by omega⟩
    have hn : n ≤ half64 := by omega
    simp only [toString_neg_toList (n := n) (by omega), unsigned?_minus, negative?_toDigits, hn,
      if_true]
  · obtain ⟨n, rfl⟩ := Int.eq_ofNat_of_zero_le (a := m) (by omega)
    have hn : n < bound64 := by
      have hbound : half64 ≤ bound64 := by decide
      omega
    simp only [toString_natCast_toList, unsigned?_toDigits, hn, if_true]

end Yaml
end Foreman
