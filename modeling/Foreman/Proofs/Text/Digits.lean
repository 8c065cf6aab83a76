/-
# Decimal digits, written and read

A number is written with the digits of the core library, and the readers here take digits off the
front of a text.  What is read off is the number, as long as no digit follows it.

* `digitsValue_toDigits`, `digitsValue_padded`: the digits of a number have its value.
* `spanDigits_append`: the digits end where something else begins.
* `toDigits_ne_zero_cons`: a zero stands in front only if it stands alone.
-/
import Foreman.Number.Decimal
import Mathlib.Algebra.Group.Nat.Defs

namespace Foreman
namespace Text

variable {digits rest : List Char} {n width : Nat}

/-- What follows does not begin with a digit. -/
def NoDigitNext (rest : List Char) : Prop := ∀ c ∈ rest.head?, c.isDigit = false

@[simp] theorem noDigitNext_cons {c : Char} {cs : List Char} :
    NoDigitNext (c :: cs) ↔ c.isDigit = false := by
  simp [NoDigitNext]

theorem isDigit_range {c : Char} (h : c.isDigit = true) : 48 ≤ c.toNat ∧ c.toNat ≤ 57 := by
  simpa [Char.isDigit_iff_toNat] using h

theorem ne_of_isDigit {c d : Char} (hc : c.isDigit = true) (hd : d.isDigit = false) : c ≠ d := by
  rintro rfl
  exact absurd (hc.symm.trans hd) (by decide)

/-! ## 1. Reading

Digits are taken off the front. -/

theorem digitsValue?_of_digits : ∀ {digits : List Char} (acc : Nat),
    (∀ c ∈ digits, c.isDigit = true) →
      digitsValue? acc digits = some (Nat.ofDigitChars 10 digits acc)
  | [], _, _ => rfl
  | c :: cs, acc, h => by
    have hc : c.isDigit = true := h c List.mem_cons_self
    rw [digitsValue?, digitValue?, if_pos hc, Option.bind_some,
      digitsValue?_of_digits _ fun d hd => h d (List.mem_cons_of_mem _ hd), Nat.ofDigitChars_cons]

theorem digitsValue_of_digits (h : ∀ c ∈ digits, c.isDigit = true) :
    digitsValue digits = Nat.ofDigitChars 10 digits 0 := by
  rw [digitsValue, digitsValue?_of_digits 0 h, Option.getD_some]

/-- A number has at most as many digits as its text. -/
theorem digitsValue_lt (h : ∀ c ∈ digits, c.isDigit = true) :
    digitsValue digits < 10 ^ digits.length := by
  have hvalue : ∀ (cs : List Char) (acc : Nat), (∀ c ∈ cs, c.isDigit = true) →
      Nat.ofDigitChars 10 cs acc < (acc + 1) * 10 ^ cs.length := by
    intro cs
    induction cs with
    | nil => exact fun acc _ => by simp
    | cons c cs ih =>
      intro acc h
      rw [List.forall_mem_cons] at h
      have hrange := isDigit_range h.1
      have hzero : '0'.toNat = 48 := rfl
      rw [Nat.ofDigitChars_cons]
      calc Nat.ofDigitChars 10 cs (10 * acc + (c.toNat - '0'.toNat))
          < (10 * acc + (c.toNat - '0'.toNat) + 1) * 10 ^ cs.length := ih _ h.2
        _ ≤ (acc + 1) * 10 * 10 ^ cs.length := Nat.mul_le_mul_right _ (by omega)
        _ = (acc + 1) * 10 ^ (c :: cs).length := by
            rw [Nat.mul_assoc, List.length_cons, Nat.pow_succ']
  rw [digitsValue_of_digits h]
  simpa using hvalue digits 0 h

/-- The digits in front end where something else begins. -/
theorem takeWhile_isDigit_append (h : ∀ c ∈ digits, c.isDigit = true) (hrest : NoDigitNext rest) :
    (digits ++ rest).takeWhile Char.isDigit = digits := by
  rw [List.takeWhile_append_of_pos h]
  cases rest with
  | nil => exact List.append_nil _
  | cons c cs =>
    rw [List.takeWhile_cons_of_neg (by simp [noDigitNext_cons.mp hrest]), List.append_nil]

theorem dropWhile_isDigit_append (h : ∀ c ∈ digits, c.isDigit = true) (hrest : NoDigitNext rest) :
    (digits ++ rest).dropWhile Char.isDigit = rest := by
  rw [List.dropWhile_append_of_pos h]
  cases rest with
  | nil => rfl
  | cons c cs => exact List.dropWhile_cons_of_neg (by simp [noDigitNext_cons.mp hrest])

theorem spanDigits_append (h : ∀ c ∈ digits, c.isDigit = true) (hrest : NoDigitNext rest) :
    spanDigits (digits ++ rest) = (digits, rest) := by
  rw [spanDigits, takeWhile_isDigit_append h hrest, dropWhile_isDigit_append h hrest]

/-! ## 2. Writing

The digits of a number, with zeros in front or without. -/

theorem isDigit_of_mem_toDigits {c : Char} (h : c ∈ Nat.toDigits 10 n) : c.isDigit = true :=
  Nat.isDigit_of_mem_toDigits (by decide) (by decide) h

theorem toDigits_front (n : Nat) : ∃ c cs, Nat.toDigits 10 n = c :: cs ∧ c.isDigit = true := by
  cases hdigits : Nat.toDigits 10 n with
  | nil => exact absurd hdigits Nat.toDigits_ne_nil
  | cons c cs => exact ⟨c, cs, rfl, isDigit_of_mem_toDigits (hdigits ▸ List.mem_cons_self)⟩

theorem toString_natCast_toList (n : Nat) : (toString (n : Int)).toList = Nat.toDigits 10 n := by
  rw [Int.toString_eq_repr, Int.repr_eq_if, if_pos (Int.natCast_nonneg n), Int.toNat_natCast,
    Nat.toList_repr]

theorem toString_neg_toList (h : 0 < n) :
    (toString (-(n : Int))).toList = '-' :: Nat.toDigits 10 n := by
  rw [Int.toString_eq_repr, Int.repr_eq_if, if_neg (by omega), Int.neg_neg, Int.toNat_natCast,
    String.toList_append, Nat.toList_repr]
  rfl

/-- **The digits of a number have its value.** -/
theorem digitsValue_toDigits (n : Nat) : digitsValue (Nat.toDigits 10 n) = n := by
  rw [digitsValue_of_digits fun c => isDigit_of_mem_toDigits,
    Nat.ofDigitChars_toDigits (by decide) (by decide)]

/-- A zero stands in front only if it stands alone. -/
theorem toDigits_ne_zero_cons (n : Nat) : ∀ (c : Char) (cs : List Char),
    Nat.toDigits 10 n ≠ '0' :: c :: cs := by
  induction n using Nat.strongRecOn with
  | ind n ih =>
    intro c cs heq
    by_cases hlt : n < 10
    · rw [Nat.toDigits_of_lt_base hlt] at heq
      exact absurd (congrArg List.length heq) (by simp)
    · rw [Nat.toDigits_eq_if (by decide), if_neg hlt] at heq
      match hfront : Nat.toDigits 10 (n / 10) with
      | [] => exact Nat.toDigits_ne_nil hfront
      | [d] =>
        -- a front of a single zero is zero, and the number is less than ten
        rw [hfront] at heq
        obtain ⟨rfl, -⟩ := List.cons.inj heq
        have hvalue := digitsValue_toDigits (n / 10)
        rw [hfront] at hvalue
        have hzero : digitsValue ['0'] = 0 := rfl
        omega
      | d :: e :: front =>
        rw [hfront] at heq
        obtain ⟨rfl, -⟩ := List.cons.inj heq
        exact ih (n / 10) (by omega) e front hfront

/-! ## 3. Zeros in front

Readers that refuse them. -/

theorem padded_toList (width n : Nat) :
    (padded width n).toList =
      List.replicate (width - (Nat.toDigits 10 n).length) '0' ++ Nat.toDigits 10 n := by
  rw [padded, String.toList_append, String.toList_ofList, Nat.toString_eq_repr, Nat.toList_repr,
    ← String.length_toList, Nat.toList_repr]

theorem isDigit_of_mem_padded {c : Char} (h : c ∈ (padded width n).toList) : c.isDigit = true := by
  rw [padded_toList, List.mem_append] at h
  rcases h with h | h
  · rw [List.eq_of_mem_replicate h]
    decide
  · exact isDigit_of_mem_toDigits h

/-- Zeros in front do not count. -/
theorem digitsValue_padded (width n : Nat) : digitsValue (padded width n).toList = n := by
  rw [digitsValue_of_digits fun c => isDigit_of_mem_padded, padded_toList, Nat.ofDigitChars_append,
    Nat.ofDigitChars_replicate_zero, Nat.mul_zero,
    Nat.ofDigitChars_toDigits (by decide) (by decide)]

theorem padded_length (h : (Nat.toDigits 10 n).length ≤ width) :
    (padded width n).toList.length = width := by
  rw [padded_toList, List.length_append, List.length_replicate]
  omega

theorem padded_front (width n : Nat) :
    ∃ c cs, (padded width n).toList = c :: cs ∧ c.isDigit = true := by
  cases hdigits : (padded width n).toList with
  | nil =>
    rw [padded_toList] at hdigits
    exact absurd (List.append_eq_nil_iff.mp hdigits).2 Nat.toDigits_ne_nil
  | cons c cs => exact ⟨c, cs, rfl, isDigit_of_mem_padded (hdigits ▸ List.mem_cons_self)⟩

theorem padded_ne_nil (width n : Nat) : (padded width n).toList ≠ [] := by
  obtain ⟨c, cs, hfront, -⟩ := padded_front width n
  rw [hfront]
  exact List.cons_ne_nil c cs

end Text
end Foreman
