/-
# Scalars between quotes

A text between quotes is made of words and of folds between them: a gap within a line, or line ends
with the indentation behind them.  A fold of line ends stands for these line ends, unless it is a
single line feed, and that is why a text with line feeds is never put between single quotes.

* `scanFold_spaces`, `scanFold_line`: what a fold is read as.
* `quotesAs_word`, `QuotesAs.fold`: a last word, and a word and a fold in front of more.
* `quotesAs_singleBody`, `quotesAs_doubleChar`: what is written in the two ways is read back.
-/
import Foreman.Proofs.Yaml.Cursor
import Foreman.Yaml.Token
import Mathlib.Algebra.Group.Nat.Defs
import Mathlib.Data.List.Chain

namespace Foreman
namespace Yaml

variable {fuel i l k n : Nat} {x b : Char} {bs w rest : List Char} {indent : Option Int} {f : Fold}

/-! ## 1. Folds

What stands between two words. -/

theorem scanFold_stop (h : StartsInk rest) :
    scanFold indent fuel f ⟨rest, i, l, k⟩ = some (f, ⟨rest, i, l, k⟩) := by
  cases fuel with
  | zero => rfl
  | succ fuel =>
    cases rest with
    | nil => rfl
    | cons x rest =>
      obtain ⟨hgap, hbreak⟩ := isInk_iff.mp (startsInk_cons.mp h)
      simp [scanFold, Cursor.peek, hgap, hbreak]

theorem scanFold_space (hf : f.inBreaks = false) :
    scanFold indent (fuel + 1) f ⟨' ' :: rest, i, l, k⟩ =
      scanFold indent fuel { f with gap := f.gap ++ [' '] } ⟨rest, i + 1, l, k + 1⟩ := by
  have hgap : isGap ' ' = true := rfl
  cases indent <;> simp [scanFold, Cursor.peek, Cursor.skip, hgap, hf]

/-- Blanks behind a line end do not count. -/
theorem scanFold_indent (hf : f.inBreaks = true) :
    scanFold indent (fuel + 1) f ⟨' ' :: rest, i, l, k⟩ =
      scanFold indent fuel f ⟨rest, i + 1, l, k + 1⟩ := by
  have hgap : isGap ' ' = true := rfl
  cases indent <;> simp [scanFold, Cursor.peek, Cursor.skip, hgap, hf]

theorem scanFold_break (hb : isPlainBreak b = true) :
    scanFold indent (fuel + 1) f ⟨b :: rest, i, l, k⟩ =
      scanFold indent fuel
        (if f.inBreaks then { f with more := f.more ++ [b] }
          else { f with gap := [], first := [b], inBreaks := true })
        ⟨rest, i + 1, l + 1, 0⟩ := by
  have hbreak := isBreak_of_isPlainBreak hb
  rw [scanFold]
  simp only [Cursor.peek, List.head?_cons, not_isGap_of_isBreak hbreak, hbreak,
    Cursor.readLine_break hb, Bool.false_eq_true, if_false, if_true]
  split <;> rfl

/-- A gap is kept as it is. -/
theorem scanFold_spaces (hrest : StartsInk rest) : ∀ {n fuel : Nat} (f : Fold) {i k : Nat},
    f.inBreaks = false → n ≤ fuel →
      scanFold indent fuel f ⟨spaces n ++ rest, i, l, k⟩ =
        some ({ f with gap := f.gap ++ spaces n }, ⟨rest, i + n, l, k + n⟩)
  | 0, fuel, f, i, k, _, _ => by
    rw [spaces_zero, List.nil_append, List.append_nil, scanFold_stop hrest]
    rfl
  | n + 1, fuel + 1, f, i, k, hf, hfuel => by
    rw [spaces_succ, List.cons_append, scanFold_space hf,
      scanFold_spaces hrest { f with gap := f.gap ++ [' '] } hf (Nat.le_of_succ_le_succ hfuel),
      List.append_assoc,
      List.singleton_append, Nat.add_right_comm i 1 n, Nat.add_right_comm k 1 n]
    rfl

theorem scanFold_indentation (hrest : StartsInk rest) (hf : f.inBreaks = true) :
    ∀ {n fuel i k : Nat}, n ≤ fuel →
      scanFold indent fuel f ⟨spaces n ++ rest, i, l, k⟩ =
        some (f, ⟨rest, i + n, l, k + n⟩)
  | 0, _, _, _, _ => scanFold_stop hrest
  | n + 1, fuel + 1, i, k, hfuel => by
    rw [spaces_succ, List.cons_append, scanFold_indent hf,
      scanFold_indentation hrest hf (Nat.le_of_succ_le_succ hfuel),
      Nat.add_right_comm i 1 n, Nat.add_right_comm k 1 n]
    rfl

/-- Line ends behind the first one are kept. -/
theorem scanFold_breaks (hrest : StartsInk rest) (n : Nat) : ∀ {bs : List Char} {fuel : Nat}
    (f : Fold) {i l : Nat}, (∀ b ∈ bs, isPlainBreak b = true) → f.inBreaks = true →
      bs.length + n ≤ fuel →
      scanFold indent fuel f ⟨bs ++ (spaces n ++ rest), i, l, 0⟩ =
        some ({ f with more := f.more ++ bs }, ⟨rest, i + bs.length + n, l + bs.length, n⟩)
  | [], fuel, f, i, l, _, hf, hfuel => by
    rw [List.nil_append, List.append_nil, scanFold_indentation hrest hf (by simpa using hfuel),
      Nat.zero_add]
    rfl
  | b :: bs, 0, f, i, l, _, _, hfuel => by
    rw [List.length_cons] at hfuel
    omega
  | b :: bs, fuel + 1, f, i, l, hbs, hf, hfuel => by
    rw [List.forall_mem_cons] at hbs
    rw [List.length_cons] at hfuel
    rw [List.cons_append, scanFold_break hbs.1, if_pos hf,
      scanFold_breaks hrest n { f with more := f.more ++ [b] } hbs.2 hf (by omega),
      List.append_assoc, List.singleton_append,
      List.length_cons, Nat.add_assoc i 1, Nat.add_assoc l 1, Nat.add_comm 1]

/-- **Line ends with an indentation are kept as line ends.** -/
theorem scanFold_line (hrest : StartsInk rest) (hb : isPlainBreak b = true)
    (hbs : ∀ c ∈ bs, isPlainBreak c = true) (hf : f.inBreaks = false)
    (hfuel : bs.length + n < fuel) :
    scanFold indent fuel f ⟨b :: bs ++ (spaces n ++ rest), i, l, k⟩ =
      some ({ gap := [], inBreaks := true, first := [b], more := f.more ++ bs },
        ⟨rest, i + 1 + bs.length + n, l + 1 + bs.length, n⟩) := by
  cases fuel with
  | zero => omega
  | succ fuel =>
    rw [List.cons_append, scanFold_break hb, hf,
      if_neg Bool.false_ne_true, scanFold_breaks hrest n _ hbs rfl (by omega)]

/-! ## 2. Escapes

A character that cannot stand for itself. -/

theorem hexDigit?_upperHex (n : Nat) : hexDigit? (upperHex n) = some (n % 16) := by
  have h : ∀ m < 16, hexDigit? (Nat.digitChar m).toUpper = some m := by decide
  exact h _ (Nat.mod_lt n (by decide))

theorem length_hexDigits : ∀ width n : Nat, (hexDigits width n).length = width
  | 0, _ => rfl
  | width + 1, n => by
    rw [hexDigits, List.length_append, length_hexDigits width]
    rfl

theorem hexDigits_value : ∀ width n : Nat, ∃ ds, (hexDigits width n).mapM hexDigit? = some ds ∧
    ds.foldl (fun n d => 16 * n + d) 0 = n % 16 ^ width
  | 0, n => ⟨[], rfl, by rw [Nat.pow_zero, Nat.mod_one]; rfl⟩
  | width + 1, n => by
    obtain ⟨ds, hds, hvalue⟩ := hexDigits_value width (n / 16)
    refine ⟨ds ++ [n % 16], ?_, ?_⟩
    · simp [hexDigits, hds, hexDigit?_upperHex]
    · rw [List.foldl_append, hvalue, List.foldl_cons, List.foldl_nil, Nat.pow_succ',
        Nat.mod_mul, Nat.add_comm]

/-- What stands behind a backslash is read as the character. -/
def Escapes (e : List Char) (x : Char) : Prop :=
  (∃ y r, e = y :: r ∧ isBreak y = false) ∧ ∀ rest i l k,
    scanEscape ⟨'\\' :: e ++ rest, i, l, k⟩ =
      some (x, ⟨rest, i + (e.length + 1), l, k + (e.length + 1)⟩)

theorem Escapes.short {y : Char} (h : shortEscape? y = some x) (hy : isBreak y = false) :
    Escapes [y] x := by
  refine ⟨⟨_, _, rfl, hy⟩, fun rest i l k => ?_⟩
  simp [scanEscape, h, Cursor.skipN, Cursor.skip]

theorem Escapes.numeric {y : Char} {width : Nat} (hshort : shortEscape? y = none)
    (hy : isBreak y = false) (hwidth : escapeWidth? y = some width)
    (hfits : x.toNat < 16 ^ width) : Escapes (y :: hexDigits width x.toNat) x := by
  refine ⟨⟨_, _, rfl, hy⟩, fun rest i l k => ?_⟩
  obtain ⟨ds, hds, hvalue⟩ := hexDigits_value width x.toNat
  have htake : (hexDigits width x.toNat ++ rest).take width = hexDigits width x.toNat :=
    List.take_left' (length_hexDigits width x.toNat)
  have hskip := Cursor.skipN_append ('\\' :: y :: hexDigits width x.toNat) rest i l k
  rw [List.length_cons, List.length_cons, length_hexDigits, Nat.add_assoc, Nat.add_comm] at hskip
  rw [Nat.mod_eq_of_lt hfits] at hvalue
  have hvalid : x.toNat < 55296 ∨ 57343 < x.toNat ∧ x.toNat < 1114112 := x.valid
  have hscalar : (!(0xD800 ≤ x.toNat && x.toNat ≤ 0xDFFF) && x.toNat ≤ 0x10FFFF) = true := by
    simp
    omega
  simp only [scanEscape, List.cons_append, hshort, hwidth, htake, hds, hvalue, length_hexDigits]
  simp only [List.cons_append] at hskip
  rw [decide_true, Bool.true_and, if_pos hscalar, hskip, Char.ofNat_toNat, List.length_cons,
    length_hexDigits, Nat.add_comm width, Nat.add_comm (1 + width), Nat.add_assoc]

/-- The text is a backslash and what is read as the character. -/
def IsEscape (x : Char) (cs : List Char) : Prop := ∃ e, cs = '\\' :: e ∧ Escapes e x

theorem IsEscape.ite {P : Prop} [Decidable P] {cs ds : List Char} (h : P → IsEscape x cs)
    (hnot : ¬P → IsEscape x ds) : IsEscape x (if P then cs else ds) := by
  split
  · exact h ‹P›
  · exact hnot ‹¬P›

/-- A character between double quotes stands for itself, or behind a backslash. -/
theorem doubleChar_cases (x : Char) :
    (doubleChar x = [x] ∧ isPrintable x = true ∧ isBreak x = false ∧ x ≠ '"' ∧ x ≠ '\\') ∨
      IsEscape x (doubleChar x) := by
  by_cases hplain : (isPrintable x && !isBreak x && x ≠ '"' && x ≠ '\\') = true
  · left
    rw [doubleChar, if_pos hplain]
    simpa [and_assoc] using hplain
  · right
    have hvalid : x.toNat < 55296 ∨ 57343 < x.toNat ∧ x.toNat < 1114112 := x.valid
    rw [doubleChar, if_neg hplain]
    iterate 14 refine .ite (fun h => ⟨_, rfl, .short (by subst h; rfl) rfl⟩) fun _ => ?_
    -- no letter stands for it, and its number has at most eight digits
    refine .ite (fun _ => ⟨_, rfl, .numeric rfl rfl rfl (by omega)⟩) fun _ => ?_
    refine .ite (fun _ => ⟨_, rfl, .numeric rfl rfl rfl (by omega)⟩) fun _ => ?_
    exact ⟨_, rfl, .numeric rfl rfl rfl (by omega)⟩

/-! ## 3. Words

A run of characters without blanks. -/

/-- A character as it stands between quotes. -/
def quotedChar (single : Bool) (x : Char) : List Char :=
  if single then (if x = '\'' then ['\'', '\''] else [x]) else doubleChar x

/-- The quote at either end. -/
def quoteMark (single : Bool) : Char := if single then '\'' else '"'

/-- A character that can stand in a word between quotes. -/
def isWordChar (single : Bool) (x : Char) : Bool := if single then isInk x else x ≠ ' '

/-- A word between quotes ends here: at a gap, at a line end or at the closing quote. -/
def EndsWord (single : Bool) (rest : List Char) : Prop :=
  ∃ y r, rest = y :: r ∧ (isInk y = true → y = quoteMark single ∧ r.head? ≠ some '\'')

theorem scanQuotedWord_char {single : Bool} (hx : isWordChar single x = true) (acc : List Char) :
    scanQuotedWord single (fuel + 1) acc ⟨quotedChar single x ++ rest, i, l, k⟩ =
      scanQuotedWord single fuel (x :: acc)
        ⟨rest, i + (quotedChar single x).length, l, k + (quotedChar single x).length⟩ := by
  cases single with
  | true =>
    obtain ⟨hgap, hbreak⟩ := isInk_iff.mp hx
    by_cases hquote : x = '\''
    · subst hquote
      simp [quotedChar, scanQuotedWord, Cursor.peek, Cursor.has, Cursor.peekAt, Cursor.skipN,
        Cursor.skip, hgap, hbreak]
    · simp [quotedChar, scanQuotedWord, Cursor.peek, Cursor.skip, hgap, hbreak, hquote]
  | false =>
    rcases doubleChar_cases x with
      ⟨hself, hprint, hbreak, hquote, hslash⟩ | ⟨_, hself, ⟨y, r, rfl, hy⟩, hscan⟩
    · have hgap : isGap x = false := by
        by_contra hgap
        have hspace : x ≠ ' ' := by simpa [isWordChar] using hx
        exact hspace (eq_space_of_isGap (by simpa using hgap) hprint)
      simp [quotedChar, hself, scanQuotedWord, Cursor.peek, Cursor.skip, hgap, hbreak, hquote,
        hslash]
    · have hsolid : isGap '\\' = false ∧ isBreak '\\' = false := ⟨rfl, rfl⟩
      rw [quotedChar, if_neg Bool.false_ne_true, hself, scanQuotedWord]
      simp only [Cursor.peek, List.cons_append, List.head?_cons] at hscan ⊢
      simp [hsolid, Cursor.breakAt, Cursor.peekAt, hy, hscan]

theorem scanQuotedWord_stop {single : Bool} (hrest : EndsWord single rest) (acc : List Char) :
    scanQuotedWord single (fuel + 1) acc ⟨rest, i, l, k⟩ =
      some (acc.reverse, false, ⟨rest, i, l, k⟩) := by
  obtain ⟨y, r, rfl, hy⟩ := hrest
  by_cases hink : isInk y = true
  · obtain ⟨hgap, hbreak⟩ := isInk_iff.mp hink
    obtain ⟨rfl, hr⟩ := hy hink
    cases single with
    | true =>
      rw [List.head?_eq_getElem?] at hr
      have hlone : Cursor.has ⟨'\'' :: r, i, l, k⟩ 1 '\'' = false := decide_eq_false hr
      simp [scanQuotedWord, Cursor.peek, quoteMark, show isGap '\'' = false from hgap,
        show isBreak '\'' = false from hbreak, hlone]
    | false =>
      simp [scanQuotedWord, Cursor.peek, quoteMark, show isGap '"' = false from hgap,
        show isBreak '"' = false from hbreak]
  · simp only [scanQuotedWord, Cursor.peek, List.head?_cons, not_isInk_iff.mp hink, if_true]

/-- A word is read up to where it ends. -/
theorem scanQuotedWord_append {single : Bool} (hrest : EndsWord single rest) :
    ∀ {w acc : List Char} {fuel i k : Nat}, (∀ x ∈ w, isWordChar single x = true) →
      w.length < fuel → scanQuotedWord single fuel acc
          ⟨w.flatMap (quotedChar single) ++ rest, i, l, k⟩ =
        some (acc.reverse ++ w, false,
          ⟨rest, i + (w.flatMap (quotedChar single)).length, l,
            k + (w.flatMap (quotedChar single)).length⟩)
  | [], acc, fuel + 1, i, k, _, _ => by
    rw [List.flatMap_nil, List.append_nil]
    exact scanQuotedWord_stop hrest acc
  | x :: w, acc, fuel + 1, i, k, hw, hfuel => by
    rw [List.forall_mem_cons] at hw
    rw [List.flatMap_cons, List.append_assoc, scanQuotedWord_char hw.1,
      scanQuotedWord_append hrest hw.2 (Nat.lt_of_succ_lt_succ hfuel), List.reverse_cons,
      List.append_assoc, List.singleton_append, List.length_append, Nat.add_assoc, Nat.add_assoc]

theorem isInk_quoteMark (single : Bool) : isInk (quoteMark single) = true := by
  cases single <;> rfl

theorem quotedChar_ne_nil (single : Bool) (x : Char) : quotedChar single x ≠ [] := by
  cases single with
  | true =>
    by_cases hx : x = '\'' <;> simp [quotedChar, hx]
  | false =>
    rcases doubleChar_cases x with ⟨hself, -⟩ | ⟨e, hself, -⟩ <;>
      exact fun h => List.cons_ne_nil _ _ (hself.symm.trans h)

theorem length_le_flatMap_quotedChar (single : Bool) (w : List Char) :
    w.length ≤ (w.flatMap (quotedChar single)).length := by
  induction w with
  | nil => exact Nat.zero_le _
  | cons x w ih =>
    have hpos := List.length_pos_of_ne_nil (quotedChar_ne_nil single x)
    rw [List.flatMap_cons, List.length_append, List.length_cons]
    omega

/-! ## 4. Words and folds

The body of a quoted text, from the back to the front. -/

section Body

variable {single : Bool} {s t p : List Char}

/-- What is passed between two words is read as the fold. -/
def FoldsTo (p : List Char) (f : Fold) : Prop :=
  (∃ y q, p = y :: q ∧ isInk y = false) ∧ ∀ ⦃rest : List Char⦄ (fuel i l k : Nat), StartsInk rest →
    p.length < fuel → ∃ i' l' k', l ≤ l' ∧ k' ≠ 0 ∧
      scanFold none fuel {} ⟨p ++ rest, i, l, k⟩ = some (f, ⟨rest, i', l', k'⟩)

theorem foldsTo_gap (n : Nat) : FoldsTo (spaces (n + 1)) { gap := spaces (n + 1) } := by
  refine ⟨⟨' ', spaces n, rfl, rfl⟩, fun rest fuel i l k hrest hfuel => ?_⟩
  rw [length_spaces] at hfuel
  exact ⟨_, l, _, Nat.le_refl l, Nat.succ_ne_zero (k + n), scanFold_spaces hrest {} rfl hfuel.le⟩

theorem foldsTo_lines (hb : isPlainBreak b = true) (hbs : ∀ c ∈ bs, isPlainBreak c = true)
    (n : Nat) :
    FoldsTo (b :: bs ++ spaces (n + 1)) { inBreaks := true, first := [b], more := bs } := by
  refine ⟨⟨b, bs ++ spaces (n + 1), rfl, ?_⟩, fun rest fuel i l k hrest hfuel => ?_⟩
  · simp [isInk, isBreak_of_isPlainBreak hb]
  · rw [List.length_append, length_spaces, List.length_cons] at hfuel
    rw [List.append_assoc]
    exact ⟨_, _, _, by omega, Nat.succ_ne_zero n, scanFold_line hrest hb hbs rfl (by omega)⟩

/-- The text `s` between quotes is read as `t`, up to the closing quote.  The lines are indented,
so no marker of documents comes up. -/
def QuotesAs (single : Bool) (s t : List Char) : Prop :=
  ∀ ⦃rest : List Char⦄ (fuel i l k : Nat), rest.head? ≠ some '\'' → s.length < fuel → k ≠ 0 →
    ∃ i' l' k', l ≤ l' ∧ scanQuotedBody single fuel ⟨s ++ quoteMark single :: rest, i, l, k⟩ =
      some (t, ⟨rest, i', l', k'⟩)

theorem scanQuotedBody_word (hw : ∀ x ∈ w, isWordChar single x = true)
    (hend : EndsWord single rest) (hk : k ≠ 0) (fuel i l : Nat) :
    ∃ i' k', scanQuotedBody single (fuel + 1) ⟨w.flatMap (quotedChar single) ++ rest, i, l, k⟩ =
      if Cursor.has ⟨rest, i', l, k'⟩ 0 (quoteMark single) then
        some (w, Cursor.skip ⟨rest, i', l, k'⟩)
      else
        match scanFold none (rest.length + 1) {} ⟨rest, i', l, k'⟩ with
        | none => none
        | some (fold, c) =>
          (scanQuotedBody single fuel c).map fun (more, c) => (w ++ fold.text ++ more, c) := by
  have hmarker : Cursor.isDocumentMarker ⟨w.flatMap (quotedChar single) ++ rest, i, l, k⟩ = false :=
    Cursor.not_isDocumentMarker hk
  have hmore : Cursor.atEnd ⟨w.flatMap (quotedChar single) ++ rest, i, l, k⟩ = false := by
    obtain ⟨y, r, rfl, -⟩ := hend
    simp [Cursor.atEnd]
  have hlength : w.length < (w.flatMap (quotedChar single) ++ rest).length + 1 := by
    have h := length_le_flatMap_quotedChar single w
    rw [List.length_append]
    omega
  refine ⟨i + (w.flatMap (quotedChar single)).length, k + (w.flatMap (quotedChar single)).length,
    ?_⟩
  rw [scanQuotedBody, hmarker, hmore, Bool.or_false, if_neg Bool.false_ne_true,
    scanQuotedWord_append hend hw hlength]
  rfl

/-- A single word. -/
theorem quotesAs_word (hw : ∀ x ∈ w, isWordChar single x = true) :
    QuotesAs single (w.flatMap (quotedChar single)) w := by
  intro rest fuel i l k hrest hfuel hk
  cases fuel with
  | zero => exact absurd hfuel (Nat.not_lt_zero _)
  | succ fuel =>
    obtain ⟨i', k', hscan⟩ := scanQuotedBody_word hw ⟨_, _, rfl, fun _ => ⟨rfl, hrest⟩⟩ hk fuel i l
    have hclosed : Cursor.has ⟨quoteMark single :: rest, i', l, k'⟩ 0 (quoteMark single) = true :=
      decide_eq_true rfl
    exact ⟨_, _, _, Nat.le_refl l, hscan.trans (if_pos hclosed)⟩

/-- A word and a fold in front of more. -/
theorem QuotesAs.fold (h : QuotesAs single s t) (hw : ∀ x ∈ w, isWordChar single x = true)
    (hp : FoldsTo p f) (hs : StartsInk s) :
    QuotesAs single (w.flatMap (quotedChar single) ++ (p ++ s)) (w ++ f.text ++ t) := by
  intro rest fuel i l k hrest hfuel hk
  cases fuel with
  | zero => exact absurd hfuel (Nat.not_lt_zero _)
  | succ fuel =>
    obtain ⟨⟨y, q, rfl, hy⟩, hp⟩ := hp
    have hnext : StartsInk (s ++ quoteMark single :: rest) := by
      cases s with
      | nil => exact startsInk_cons.mpr (isInk_quoteMark single)
      | cons x s => exact hs
    have hend : EndsWord single (y :: q ++ (s ++ quoteMark single :: rest)) :=
      ⟨y, _, rfl, fun h => absurd (hy.symm.trans h) Bool.false_ne_true⟩
    simp only [List.length_append, List.length_cons] at hfuel
    obtain ⟨i₁, k₁, hscan⟩ := scanQuotedBody_word hw hend hk fuel i l
    have hroom : (y :: q).length < (y :: q ++ (s ++ quoteMark single :: rest)).length + 1 := by
      rw [List.length_append]
      omega
    obtain ⟨i₂, l₂, k₂, hl₂, hk₂, hfold⟩ := hp _ i₁ l k₁ hnext hroom
    obtain ⟨i₃, l₃, k₃, hl₃, hmore⟩ := h fuel i₂ l₂ k₂ hrest (by omega) hk₂
    have hopen : ¬Cursor.has ⟨y :: q ++ (s ++ quoteMark single :: rest), i₁, l, k₁⟩ 0
        (quoteMark single) = true := by
      intro h
      have heq : y = quoteMark single := by simpa [Cursor.has, Cursor.peekAt] using h
      rw [heq, isInk_quoteMark] at hy
      cases hy
    refine ⟨i₃, l₃, k₃, hl₂.trans hl₃, ?_⟩
    rw [List.append_assoc, List.append_assoc, hscan, if_neg hopen, hfold]
    simp only [hmore, Option.map_some]

end Body

/-! ## 5. Writing

What the writer puts between quotes is of this kind. -/

theorem quotedChar_false : quotedChar false = doubleChar := rfl

theorem flatMap_quotedChar_spaces (single : Bool) (n : Nat) :
    (spaces n).flatMap (quotedChar single) = spaces n := by
  have hspace : quotedChar single ' ' = [' '] := by cases single <;> rfl
  induction n with
  | zero => rfl
  | succ n ih => rw [spaces_succ, List.flatMap_cons, hspace, ih, List.singleton_append]

theorem startsInk_quotedChar {single : Bool} (hx : isWordChar single x = true) :
    StartsInk (quotedChar single x ++ rest) := by
  cases single with
  | true =>
    by_cases hquote : x = '\''
    · subst hquote
      exact startsInk_cons.mpr rfl
    · simpa [quotedChar, hquote, isWordChar] using hx
  | false =>
    rw [quotedChar_false]
    rcases doubleChar_cases x with ⟨hself, hprint, hbreak, -⟩ | ⟨e, hself, -⟩
    · rw [hself, List.singleton_append, startsInk_cons, isInk_iff]
      refine ⟨?_, hbreak⟩
      by_contra hgap
      have hspace : x ≠ ' ' := by simpa [isWordChar] using hx
      exact hspace (eq_space_of_isGap (by simpa using hgap) hprint)
    · rw [hself]
      exact startsInk_cons.mpr rfl

/-- **Double quotes hold any text.** -/
theorem quotesAs_doubleChar (cs : List Char) : QuotesAs false (cs.flatMap doubleChar) cs := by
  induction hlength : cs.length using Nat.strongRecOn generalizing cs with
  | ind n ih =>
    obtain ⟨w, r, rfl, hw, hr⟩ := exists_run (isWordChar false) cs
    rcases r with - | ⟨x, r⟩
    · rw [List.append_nil, ← quotedChar_false]
      exact quotesAs_word hw
    · have hx : x = ' ' := by simpa [isWordChar] using hr x rfl
      obtain ⟨m, s, rfl, hs⟩ := exists_spaces r
      have hcut : w ++ x :: (spaces m ++ s) = w ++ spaces (m + 1) ++ s := by
        rw [hx, spaces_succ, List.append_assoc, List.cons_append]
      have hstart : StartsInk (s.flatMap doubleChar) := by
        rcases s with - | ⟨y, s⟩
        · exact startsInk_nil
        · rw [List.flatMap_cons, ← quotedChar_false]
          exact startsInk_quotedChar (by simpa [isWordChar] using hs)
      have hmore := ih s.length (by simp at hlength; omega) s rfl
      rw [hcut, List.flatMap_append, List.flatMap_append, ← quotedChar_false,
        flatMap_quotedChar_spaces, List.append_assoc]
      exact hmore.fold hw (foldsTo_gap m) hstart

/-! Single quotes hold what has no line feed and no blank next to a line end. -/

theorem spaceBeforeBreak_eq_false_iff {cs : List Char} : spaceBeforeBreak cs = false ↔
    cs.IsChain fun x y => x = ' ' → isBreak y = false := by
  induction cs with
  | nil => simp [spaceBeforeBreak]
  | cons x cs ih =>
    cases cs with
    | nil => simp [spaceBeforeBreak]
    | cons y cs =>
      rw [List.isChain_cons_cons, ← ih]
      by_cases hx : x = ' '
      · subst hx
        simp [spaceBeforeBreak]
      · simp [spaceBeforeBreak, hx]

theorem spaceAfterBreak_eq_false_iff {cs : List Char} : spaceAfterBreak cs = false ↔
    cs.IsChain fun x y => isBreak x = true → y ≠ ' ' := by
  induction cs with
  | nil => simp [spaceAfterBreak]
  | cons x cs ih =>
    cases cs with
    | nil => simp [spaceAfterBreak]
    | cons y cs =>
      rw [List.isChain_cons_cons, ← ih]
      by_cases hy : y = ' '
      · subst hy
        simp [spaceAfterBreak]
      · simp [spaceAfterBreak, hy]

/-- What is put between single quotes: the program never puts a line feed there. -/
structure FitsSingle (cs : List Char) : Prop where
  printable : ∀ x ∈ cs, isPrintable x = true
  oneLine : '\n' ∉ cs
  before : cs.IsChain fun x y => x = ' ' → isBreak y = false
  after : cs.IsChain fun x y => isBreak x = true → y ≠ ' '

theorem fitsSingle_of_allowed {cs : List Char} (h : allowsSingle cs = true) (hline : '\n' ∉ cs) :
    FitsSingle cs := by
  simp only [allowsSingle, needsEscapes, Bool.and_eq_true, Bool.not_eq_true', Bool.or_eq_false_iff,
    List.any_eq_false, Bool.not_eq_false] at h
  exact ⟨h.1.1, hline, spaceBeforeBreak_eq_false_iff.mp h.1.2, spaceAfterBreak_eq_false_iff.mp h.2⟩

namespace FitsSingle

theorem right (h : FitsSingle (w ++ rest)) : FitsSingle rest :=
  ⟨fun x hx => h.printable x (List.mem_append_right w hx),
    fun hx => h.oneLine (List.mem_append_right w hx), h.before.right_of_append,
    h.after.right_of_append⟩

/-- Ink follows a blank. -/
theorem startsInk_of_spaces (h : FitsSingle (spaces (n + 1) ++ rest))
    (hrest : rest.head? ≠ some ' ') : StartsInk rest := by
  intro y hy
  have hlast : ' ' ∈ (spaces (n + 1)).getLast? := by simp [spaces, List.getLast?_replicate]
  have hprint := h.right.printable y (List.mem_of_mem_head? hy)
  refine isInk_iff.mpr ⟨?_, (List.isChain_append.mp h.before).2.2 ' ' hlast y hy rfl⟩
  by_contra hgap
  exact hrest (eq_space_of_isGap (Bool.not_eq_false _ ▸ hgap) hprint ▸ hy)

/-- Ink follows the last line end. -/
theorem startsInk_of_breaks (h : FitsSingle (b :: bs ++ rest))
    (hbs : ∀ c ∈ b :: bs, isBreak c = true) (hrest : ∀ c ∈ rest.head?, isBreak c = false) :
    StartsInk rest := by
  intro y hy
  obtain ⟨c, hc⟩ : ∃ c, c ∈ (b :: bs).getLast? := ⟨_, List.getLast?_cons⟩
  have hprint := h.right.printable y (List.mem_of_mem_head? hy)
  have hspace :=
    (List.isChain_append.mp h.after).2.2 c hc y hy (hbs c (List.mem_of_mem_getLast? hc))
  refine isInk_iff.mpr ⟨?_, hrest y hy⟩
  by_contra hgap
  exact hspace (eq_space_of_isGap (Bool.not_eq_false _ ▸ hgap) hprint)

end FitsSingle

theorem singleBody_append {indent : Nat} (h : ∀ x ∈ w, isBreak x = false) (rest : List Char) :
    singleBody indent false (w ++ rest) =
      w.flatMap (quotedChar true) ++ singleBody indent false rest := by
  induction w with
  | nil => rfl
  | cons x w ih =>
    rw [List.forall_mem_cons] at h
    rw [List.cons_append, singleBody, h.1, ih h.2, List.flatMap_cons]
    simp [quotedChar]

theorem singleBody_breaks {indent : Nat} (h : ∀ c ∈ bs, isBreak c = true)
    (hrest : ∀ c ∈ rest.head?, isBreak c = false) :
    singleBody indent true (bs ++ rest) =
      bs ++ (spaces indent ++ singleBody indent false rest) := by
  induction bs with
  | nil =>
    cases rest with
    | nil => simp [singleBody]
    | cons c rest => simp [singleBody, hrest c rfl]
  | cons c bs ih =>
    rw [List.forall_mem_cons] at h
    rw [List.cons_append, singleBody, if_pos h.1, ih h.2, List.cons_append]

theorem startsInk_singleBody {indent : Nat} (h : StartsInk rest) :
    StartsInk (singleBody indent false rest) := by
  cases rest with
  | nil => exact h
  | cons x rest =>
    have hink := startsInk_cons.mp h
    rw [← List.singleton_append, singleBody_append (by simpa using (isInk_iff.mp hink).2),
      List.flatMap_singleton]
    exact startsInk_quotedChar hink

/-- **Single quotes hold the texts that are put between them.** -/
theorem quotesAs_singleBody {m : Nat} {cs : List Char} (h : FitsSingle cs) :
    QuotesAs true (singleBody (m + 1) false cs) cs := by
  -- on the length: a step takes a word and all that stands before the next one
  induction hlength : cs.length using Nat.strongRecOn generalizing cs with
  | ind n ih =>
    obtain ⟨w, r, rfl, hw, hr⟩ := exists_run isInk cs
    have hsolid : ∀ x ∈ w, isBreak x = false := fun x hx => (isInk_iff.mp (hw x hx)).2
    have hword : ∀ x ∈ w, isWordChar true x = true := hw
    rw [singleBody_append hsolid]
    rcases r with - | ⟨x, r⟩
    · simpa [singleBody] using quotesAs_word hword
    have hx := hr x rfl
    replace h := h.right
    by_cases hgap : isGap x = true
    · -- blanks up to the next word
      obtain rfl := eq_space_of_isGap hgap (h.printable x List.mem_cons_self)
      obtain ⟨g, s, rfl, hs⟩ := exists_spaces r
      rw [← List.cons_append, ← spaces_succ] at h ⊢
      have hmore := ih s.length (by simp at hlength; omega) h.right rfl
      rw [singleBody_append (by simp [spaces, isBreak]), flatMap_quotedChar_spaces,
        ← List.append_assoc w]
      exact hmore.fold hword (foldsTo_gap g) (startsInk_singleBody (h.startsInk_of_spaces hs))
    · -- line ends up to the next word
      obtain ⟨bs, s, rfl, hbs, hs⟩ := exists_run isBreak r
      have hbreaks : ∀ c ∈ x :: bs, isBreak c = true :=
        List.forall_mem_cons.mpr ⟨by simpa [isInk, hgap] using hx, hbs⟩
      have hplain : ∀ c ∈ x :: bs, isPlainBreak c = true := fun c hc => by
        have hprint := h.printable c (List.mem_append_left s hc)
        rw [isPlainBreak, hbreaks c hc, hprint, Bool.and_self]
      have hfeed : x ≠ '\n' := fun hx => h.oneLine (hx ▸ List.mem_cons_self)
      have hfold := foldsTo_lines (hplain x List.mem_cons_self)
        (fun c hc => hplain c (List.mem_cons_of_mem x hc)) m
      rw [← List.cons_append] at h
      have hmore := ih s.length (by simp at hlength; omega) h.right rfl
      have hread := hmore.fold hword hfold (startsInk_singleBody (h.startsInk_of_breaks hbreaks hs))
      simp only [Fold.text, List.head?_cons, Option.some.injEq, hfeed, if_true, if_false] at hread
      rw [singleBody, if_pos (hbreaks x List.mem_cons_self), singleBody_breaks hbs hs]
      simpa using hread

/-- **A scalar between quotes is read as its text.** -/
theorem scanQuoted_of_quotesAs {single : Bool} {s : List Char} {t : String}
    (h : QuotesAs single s t.toList) (rest : List Char) (hrest : rest.head? ≠ some '\'')
    (i l k : Nat) : ∃ i' l' k', l ≤ l' ∧
      scanQuoted single ⟨quoteMark single :: s ++ quoteMark single :: rest, i, l, k⟩ =
        some (.scalar t (if single then .singleQuoted else .doubleQuoted),
          ⟨rest, i', l', k'⟩) := by
  have hfuel : s.length < (quoteMark single :: s ++ quoteMark single :: rest).length + 1 := by
    rw [List.length_append, List.length_cons]
    omega
  obtain ⟨i', l', k', hl, hscan⟩ := h _ (i + 1) l (k + 1) hrest hfuel (Nat.succ_ne_zero k)
  refine ⟨i', l', k', hl, ?_⟩
  simp only [scanQuoted, List.cons_append, Cursor.skip] at hscan ⊢
  rw [hscan, Option.map_some, String.ofList_toList]

end Yaml
end Foreman
