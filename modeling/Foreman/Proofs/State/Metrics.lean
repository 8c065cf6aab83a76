/-
# Metrics and the history behind them

Metrics are kept without the attempts they were taken of: an attempt is counted in when it ends,
and its duration is forgotten.  What is kept is all the same what a look back at the whole history
would give.

* `Summarizes.record`: one attempt more.
* `summarizes_ofHistory`: a whole history, from no attempt on.
* `length_mul_least_le_sum`, `sum_le_length_mul_most`: the total of attempts, each of which
  lasts at least as long as the shortest and at most as long as the longest.
* `history_summarized`: counts, durations and the mean of a history that fits the counters.

Before the first attempt the least duration is zero, which is also a duration that an attempt can
have.  The count tells the two apart, so the first attempt is a case of its own throughout
(`summarizes_first`).

The metrics are those of `TaskMetrics`, one attempt is counted in by `record`, and the mean is
`average_duration_ms`.  The total is the one number that is held back at the largest word; where
it was, the mean is too small, and nothing is said of it.
-/
import Mathlib.Algebra.Group.Action.Defs
import Mathlib.Algebra.Order.BigOperators.Group.List
import Mathlib.Algebra.Order.Ring.Nat
import Foreman.Proofs.State.Document
import Foreman.State.Metrics

namespace Foreman
namespace Metrics

/-! ## 1. What metrics say of a history

The look back that metrics are compared with. -/

/-- Attempts in the order in which they ended: how long each took, and whether it succeeded. -/
abbrev History := List (Nat × Bool)

namespace History

def durations (h : History) : List Nat := h.map Prod.fst

def successes (h : History) : Nat := h.countP Prod.snd

@[simp] theorem durations_append (h rest : History) :
    (h ++ rest).durations = h.durations ++ rest.durations := List.map_append

theorem length_durations (h : History) : h.durations.length = h.length := List.length_map _

end History

/-- The metrics after the attempts were counted in, one by one. -/
def ofHistory (h : History) : Metrics := h.foldl (fun m a => m.record a.1 a.2) {}

/-- The metrics are those of the history: its counts, its last, shortest and longest duration, and
the sum of all, which stops at the greatest number of 64 bits. -/
structure Summarizes (m : Metrics) (h : History) : Prop where
  attempts : m.attempts = h.length
  successes : m.successes = h.successes
  last : h.durations.getLast? = some m.last
  least : h.durations.min? = some m.least
  most : h.durations.max? = some m.most
  total : m.total = min h.durations.sum (Text.bound64 - 1)

variable {m : Metrics} {h : History}

/-! ## 2. Counting attempts in

By induction from the front, with the first attempt as the start. -/

theorem summarizes_first (ms : Nat) (succeeded : Bool) :
    (record {} ms succeeded).Summarizes [(ms, succeeded)] where
  attempts := rfl
  successes := by cases succeeded <;> rfl
  last := rfl
  least := rfl
  most := congrArg some (Nat.zero_max ms).symm
  total := congrArg (min · _) (Nat.add_comm 0 ms)

/-- The shortest duration, when one is put behind the others. -/
theorem min?_concat {xs : List Nat} {a : Nat} (hmin : xs.min? = some a) (b : Nat) :
    (xs ++ [b]).min? = some (if b < a then b else a) := by
  obtain ⟨hmem, hle⟩ := List.min?_eq_some_iff.mp hmin
  refine List.min?_eq_some_iff.mpr ⟨?_, fun c hc => ?_⟩
  · split <;> simp [hmem]
  · rcases List.mem_append.mp hc with hc | hc
    · have hac : a ≤ c := hle c hc
      split <;> omega
    · rw [List.mem_singleton.mp hc]
      split <;> omega

/-- The longest duration, when one is put behind the others. -/
theorem max?_concat {xs : List Nat} {a : Nat} (hmax : xs.max? = some a) (b : Nat) :
    (xs ++ [b]).max? = some (max a b) := by
  obtain ⟨hmem, hle⟩ := List.max?_eq_some_iff.mp hmax
  refine List.max?_eq_some_iff.mpr ⟨?_, fun c hc => ?_⟩
  · rcases Nat.le_total a b with hab | hab <;> simp [hab, hmem]
  · rcases List.mem_append.mp hc with hc | hc
    · exact Nat.le_trans (hle c hc) (Nat.le_max_left a b)
    · rw [List.mem_singleton.mp hc]
      exact Nat.le_max_right a b

/-- **One attempt more.**  There was one before, so the least duration is that of an attempt. -/
theorem Summarizes.record (hm : m.Summarizes h) (ms : Nat) (succeeded : Bool) :
    (m.record ms succeeded).Summarizes (h ++ [(ms, succeeded)]) where
  attempts := by simp [Metrics.record, hm.attempts]
  successes := by cases succeeded <;> simp [Metrics.record, hm.successes, History.successes]
  last := by simp [Metrics.record, History.durations]
  least := by
    have hsome : m.attempts ≠ 0 := by
      intro hzero
      have hnil : h = [] := List.eq_nil_of_length_eq_zero (hm.attempts ▸ hzero)
      have hmin : h.durations.min? = some m.least := hm.least
      rw [hnil] at hmin
      cases hmin
    rw [History.durations_append]
    simp only [Metrics.record, hsome, false_or]
    exact min?_concat hm.least ms
  most := by
    rw [History.durations_append]
    exact max?_concat hm.most ms
  total := by
    simp only [Metrics.record, hm.total, History.durations_append, List.sum_append]
    simp only [History.durations, List.map_cons, List.map_nil, List.sum_cons, List.sum_nil]
    omega

/-- Attempts more, by induction. -/
theorem Summarizes.foldl : ∀ (rest : History) {m : Metrics} {h : History}, m.Summarizes h →
    (rest.foldl (fun m a => m.record a.1 a.2) m).Summarizes (h ++ rest)
  | [], m, h, hm => by rwa [List.append_nil]
  | (ms, succeeded) :: rest, m, h, hm => by
    rw [List.append_cons]
    exact Summarizes.foldl rest (hm.record ms succeeded)

/-- **The metrics after a history are those of the history.** -/
theorem summarizes_ofHistory (hne : h ≠ []) : (ofHistory h).Summarizes h := by
  cases h with
  | nil => exact absurd rfl hne
  | cons a rest => exact Summarizes.foldl rest (summarizes_first a.1 a.2)

/-! ## 3. The mean

The total lies between the number of attempts times the shortest and times the longest. -/

/-- Each attempt lasts at least as long as the shortest. -/
theorem length_mul_least_le_sum (hm : m.Summarizes h) : h.length * m.least ≤ h.durations.sum := by
  have hle : ∀ d ∈ h.durations, m.least ≤ d := (List.min?_eq_some_iff.mp hm.least).2
  have hsum := List.card_nsmul_le_sum h.durations m.least hle
  rwa [h.length_durations, smul_eq_mul] at hsum

/-- Each attempt lasts at most as long as the longest. -/
theorem sum_le_length_mul_most (hm : m.Summarizes h) : h.durations.sum ≤ h.length * m.most := by
  have hle : ∀ d ∈ h.durations, d ≤ m.most := (List.max?_eq_some_iff.mp hm.most).2
  have hsum := List.sum_le_card_nsmul h.durations m.most hle
  rwa [h.length_durations, smul_eq_mul] at hsum

/-- The mean is one of the attempts' durations, rounded down, as long as the total has not
stopped. -/
theorem average_of_summarizes (hm : m.Summarizes h) (hne : h ≠ [])
    (hsum : h.durations.sum < Text.bound64) : m.average = h.durations.sum / h.length := by
  have hpos : 0 < h.length := List.length_pos_iff.mpr hne
  have htotal : m.total = h.durations.sum := by
    rw [hm.total]
    omega
  rw [average, htotal, hm.attempts, Nat.max_eq_left hpos]

/-! ## 4. The counters

What is counted stays in its word, under conditions on the history alone. -/

/-- No counter leaves its word. -/
theorem Summarizes.fits (hm : m.Summarizes h) (hcount : h.length < Text.bound32)
    (hdurations : ∀ a ∈ h, a.1 < Text.bound64) : m.Fits := by
  have hbound : ∀ d ∈ h.durations, d < Text.bound64 := by
    intro d hd
    obtain ⟨a, ha, rfl⟩ := List.mem_map.mp hd
    exact hdurations a ha
  have hsuccesses : h.successes ≤ h.length := List.countP_le_length
  refine ⟨?_, ?_, ?_, ?_, ?_, ?_⟩
  · rw [hm.attempts]
    exact hcount
  · rw [hm.successes]
    omega
  · rw [hm.total, Text.bound64]
    omega
  · exact hbound _ (List.mem_of_getLast? hm.last)
  · exact hbound _ (List.min?_eq_some_iff.mp hm.least).1
  · exact hbound _ (List.max?_eq_some_iff.mp hm.most).1

/-- **A history is summed up.**  After attempts that can be counted, the metrics are those of the
history, and no counter has left its word on the way.  As long as the durations add up to a number
of 64 bits, the mean lies between the shortest and the longest. -/
theorem history_summarized (hne : h ≠ []) (hcount : h.length < Text.bound32)
    (hdurations : ∀ a ∈ h, a.1 < Text.bound64) :
    (ofHistory h).Summarizes h ∧ (ofHistory h).Fits ∧
      (h.durations.sum < Text.bound64 →
        (ofHistory h).least ≤ (ofHistory h).average ∧
          (ofHistory h).average ≤ (ofHistory h).most) := by
  have hm : (ofHistory h).Summarizes h := summarizes_ofHistory hne
  have hpos : 0 < h.length := List.length_pos_iff.mpr hne
  refine ⟨hm, hm.fits hcount hdurations, fun hsum => ?_⟩
  rw [average_of_summarizes hm hne hsum]
  constructor
  · rw [Nat.le_div_iff_mul_le hpos, Nat.mul_comm]
    exact length_mul_least_le_sum hm
  · rw [Nat.div_le_iff_le_mul hpos]
    have hmost := sum_le_length_mul_most hm
    rw [Nat.mul_comm]
    omega

/-- Three attempts, of which the second took no time.  It is the shortest, and the mean of the
three is not a whole number. -/
theorem instant_attempt_summed_up :
    let h : History := [(7, true), (0, false), (6, true)]
    h.length < Text.bound32 ∧ (∀ a ∈ h, a.1 < Text.bound64) ∧
      (ofHistory h).Summarizes h ∧ (ofHistory h).Fits ∧
      ofHistory h =
        { attempts := 3, successes := 2, total := 13, last := 6, least := 0, most := 7 } ∧
      (ofHistory h).average = 4 ∧ 0 ≤ (ofHistory h).average ∧ (ofHistory h).average ≤ 7 := by
  intro h
  have hcount : h.length < Text.bound32 := by decide
  have hdurations : ∀ a ∈ h, a.1 < Text.bound64 := by decide
  obtain ⟨hm, hfits, hmean⟩ := history_summarized (h := h) nofun hcount hdurations
  have hbounds := hmean (by decide)
  exact ⟨hcount, hdurations, hm, hfits, rfl, by decide, hbounds⟩

end Metrics
end Foreman
