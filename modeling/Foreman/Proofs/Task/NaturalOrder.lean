/-
# Is the natural order an order?

Two identifiers that both end in a number are compared by the text before it, then by the number,
then as texts; any other two are compared as texts.  Either way of comparing is a total order by
itself.  Put together they need not be: `T-2` comes before `T-10` by its number, `T-10` before
`T-1x` as a text, and `T-1x` before `T-2` as a text.

* `order_swap`, `order_eq_iff`: turned round, the comparison is turned round, and only equal
  identifiers are equal.
* `natural_order_total_iff`: three identifiers stand in a circle exactly if one of them has no
  number and is wedged, as a text, between two that have one and stand the other way round.

The comparison is `compare_task_ids`, and the order it is meant to be is one for lists of tasks:
a sorting routine may rely on it (`Foreman.Sorting`).  It is total on identifiers of one kind,
all with numbers or all without, so the circles need a mixture.
-/
import Mathlib.Data.Prod.Lex
import Mathlib.Data.String.Basic
import Mathlib.Order.Compare
import Foreman.Task.Id

namespace Foreman
namespace TaskId

/-! ## 1. The two ways of comparing

Each is a linear order, on the identifiers it is for. -/

/-- What identifiers with a number are compared by: the text before it, the number, the whole. -/
def key (id : String) : String ×ₗ Nat ×ₗ String :=
  match numericSuffix? id with
  | some (stem, n) => toLex (stem, toLex (n, id))
  | none => toLex (id, toLex (0, id))

/-- The identifier ends in a number. -/
def IsNumbered (id : String) : Prop := (numericSuffix? id).isSome = true

instance (id : String) : Decidable (IsNumbered id) :=
  inferInstanceAs (Decidable (_ = true))

variable {a b c x y z : String}

theorem key_inj (h : key a = key b) : a = b := by
  have hid : ∀ id : String, (ofLex (ofLex (key id)).2).2 = id := by
    intro id
    unfold key
    split <;> rfl
  rw [← hid a, ← hid b, h]

/-- Identifiers with a number are compared by their keys. -/
theorem order_of_numbered (ha : IsNumbered a) (hb : IsNumbered b) :
    order a b = compare (key a) (key b) := by
  obtain ⟨⟨stem, m⟩, hm⟩ := Option.isSome_iff_exists.mp ha
  obtain ⟨⟨stem', n⟩, hn⟩ := Option.isSome_iff_exists.mp hb
  simp only [order, key, hm, hn, Prod.Lex.compare_def, compareLex, compareOn, ofLex_toLex]

/-- If one of the two has none, they are compared as texts. -/
theorem order_of_plain (h : ¬ IsNumbered a ∨ ¬ IsNumbered b) : order a b = compare a b := by
  have hnone : ∀ id : String, ¬ IsNumbered id → numericSuffix? id = none := fun id hid => by
    simpa [IsNumbered] using hid
  unfold order
  rcases h with h | h
  · simp only [hnone a h]
  · rw [hnone b h]
    split
    · rename_i hb
      cases hb
    · rfl

/-! ## 2. Turned round, and equal

What holds of the two together. -/

theorem order_swap (a b : String) : order b a = (order a b).swap := by
  by_cases h : IsNumbered a ∧ IsNumbered b
  · rw [order_of_numbered h.1 h.2, order_of_numbered h.2 h.1, Std.OrientedOrd.eq_swap]
  · rw [not_and_or] at h
    rw [order_of_plain h, order_of_plain h.symm, Std.OrientedOrd.eq_swap]

theorem order_eq_iff : order a b = .eq ↔ a = b := by
  by_cases h : IsNumbered a ∧ IsNumbered b
  · rw [order_of_numbered h.1 h.2, compare_eq_iff_eq]
    exact ⟨key_inj, congrArg key⟩
  · rw [order_of_plain (not_and_or.mp h), compare_eq_iff_eq]

theorem order_gt_iff : order a b = .gt ↔ order b a = .lt := by
  rw [order_swap a b]
  cases order a b <;> decide

/-- Of two different identifiers that are not the wrong way round, the first comes first. -/
theorem order_lt_of_ne (h : order a b ≠ .gt) (hne : a ≠ b) : order a b = .lt := by
  cases hab : order a b with
  | lt => rfl
  | eq => exact absurd (order_eq_iff.mp hab) hne
  | gt => exact absurd hab h

/-- As texts, if one of the two has no number. -/
theorem order_lt_iff_of_plain (h : ¬ IsNumbered a ∨ ¬ IsNumbered b) :
    order a b = .lt ↔ a < b := by
  rw [order_of_plain h, compare_lt_iff_lt]

/-! ## 3. Three identifiers

What does not, and when. -/

/-- **An identifier wedged between two others.**  `x` comes before `y` by their numbers, and `z`,
which has none, comes behind `y` and before `x` as a text. -/
structure Wedged (x y z : String) : Prop where
  first : IsNumbered x
  second : IsNumbered y
  plain : ¬ IsNumbered z
  byNumber : order x y = .lt
  behind : y < z
  before : z < x

/-- Three identifiers in a circle: each comes before the next one. -/
def InCircle (x y z : String) : Prop := order x y = .lt ∧ order y z = .lt ∧ order z x = .lt

theorem InCircle.rotate (h : InCircle x y z) : InCircle y z x := ⟨h.2.1, h.2.2, h.1⟩

theorem Wedged.inCircle (h : Wedged x y z) : InCircle x y z :=
  ⟨h.byNumber, (order_lt_iff_of_plain (Or.inr h.plain)).mpr h.behind,
    (order_lt_iff_of_plain (Or.inl h.plain)).mpr h.before⟩

/-- Among identifiers with a number there is no circle. -/
theorem not_inCircle_of_numbered (hx : IsNumbered x) (hy : IsNumbered y) (hz : IsNumbered z) :
    ¬ InCircle x y z := by
  rintro ⟨hxy, hyz, hzx⟩
  rw [order_of_numbered hx hy, compare_lt_iff_lt] at hxy
  rw [order_of_numbered hy hz, compare_lt_iff_lt] at hyz
  rw [order_of_numbered hz hx, compare_lt_iff_lt] at hzx
  exact lt_irrefl _ ((hxy.trans hyz).trans hzx)

/-- Nor is there one if two of the three have none: then all are compared as texts. -/
theorem not_inCircle_of_plain (hy : ¬ IsNumbered y) (hz : ¬ IsNumbered z) :
    ¬ InCircle x y z := by
  rintro ⟨hxy, hyz, hzx⟩
  rw [order_lt_iff_of_plain (Or.inr hy)] at hxy
  rw [order_lt_iff_of_plain (Or.inl hy)] at hyz
  rw [order_lt_iff_of_plain (Or.inl hz)] at hzx
  exact lt_irrefl _ ((hxy.trans hyz).trans hzx)

/-- The last of a circle is wedged between the others if it is the one without a number. -/
theorem InCircle.wedged (h : InCircle x y z) (hz : ¬ IsNumbered z) : Wedged x y z where
  first := by
    by_contra hx
    exact not_inCircle_of_plain hz hx h.rotate
  second := by
    by_contra hy
    exact not_inCircle_of_plain hy hz h
  plain := hz
  byNumber := h.1
  behind := (order_lt_iff_of_plain (Or.inr hz)).mp h.2.1
  before := (order_lt_iff_of_plain (Or.inl hz)).mp h.2.2

/-- **In every circle one of the three is wedged between the others.** -/
theorem inCircle_iff :
    InCircle a b c ↔ Wedged a b c ∨ Wedged b c a ∨ Wedged c a b := by
  constructor
  · intro h
    by_cases hc : IsNumbered c
    · by_cases ha : IsNumbered a
      · by_cases hb : IsNumbered b
        · exact absurd h (not_inCircle_of_numbered ha hb hc)
        · exact Or.inr (Or.inr (h.rotate.rotate.wedged hb))
      · exact Or.inr (Or.inl (h.rotate.wedged ha))
    · exact Or.inl (h.wedged hc)
  · rintro (h | h | h)
    · exact h.inCircle
    · exact h.inCircle.rotate.rotate
    · exact h.inCircle.rotate

/-- Three identifiers of which no two neighbours are the wrong way round, but the outer two are,
stand in a circle. -/
theorem inCircle_iff_not_trans :
    InCircle a b c ↔ order a b ≠ .gt ∧ order b c ≠ .gt ∧ order a c = .gt := by
  constructor
  · rintro ⟨hab, hbc, hca⟩
    exact ⟨by simp [hab], by simp [hbc], order_gt_iff.mpr hca⟩
  · rintro ⟨hab, hbc, hac⟩
    have hca : order c a = .lt := order_gt_iff.mp hac
    have hne : a ≠ b := by
      rintro rfl
      exact hbc hac
    have hne' : b ≠ c := by
      rintro rfl
      exact hab hac
    exact ⟨order_lt_of_ne hab hne, order_lt_of_ne hbc hne', hca⟩

/-- **The natural order is a total order but for wedged identifiers.**  For all identifiers

* the comparison of `b` with `a` is that of `a` with `b`, turned round;
* it finds two of them equal exactly if they are;
* it is transitive at `a`, `b`, `c` unless one of the three has no number and is wedged, as a text,
  between the other two, which have one and stand the other way round. -/
theorem natural_order_total_iff (a b c : String) :
    order b a = (order a b).swap ∧ (order a b = .eq ↔ a = b) ∧
      ((order a b ≠ .gt ∧ order b c ≠ .gt ∧ order a c = .gt) ↔
        Wedged a b c ∨ Wedged b c a ∨ Wedged c a b) :=
  ⟨order_swap a b, order_eq_iff, inCircle_iff_not_trans.symm.trans inCircle_iff⟩

/-- **Three identifiers of a backlog can stand in a circle**, each of them before the next one. -/
theorem lettered_id_wedged :
    order "T-2" "T-10" = .lt ∧ order "T-10" "T-1x" = .lt ∧ order "T-2" "T-1x" = .gt ∧
      Wedged "T-2" "T-10" "T-1x" := by
  have hcircle : InCircle "T-2" "T-10" "T-1x" := by
    refine ⟨?_, ?_, ?_⟩ <;> decide +kernel
  exact ⟨hcircle.1, hcircle.2.1, order_gt_iff.mpr hcircle.2.2, hcircle.wedged (by decide +kernel)⟩

/-- So what sorting makes of them depends on the order they come in. -/
example : sort ["T-2", "T-10", "T-1x"] = ["T-2", "T-10", "T-1x"] ∧
    sort ["T-1x", "T-2", "T-10"] = ["T-1x", "T-2", "T-10"] := by decide +kernel

end TaskId
end Foreman
