/-
# How an agent's exit is understood

The error output of an agent is a log, and a sign in it may stand on any of its lines.  Since a
line break belongs to no word, more lines before and behind leave every sign in place.  They may
bring a sign of a rate limit where there was one of the network, but never take the last one away.

* `classifyExit_isRetryable_iff`, `classifyExit_eq_rateLimited_iff`: what the signs decide.
* `foundIn_between_lines`: what is found in a log is found in a longer one.
* `more_lines_keep_retryable`: so a failure that is worth another attempt stays one.
-/
import Foreman.Agent.Exit
import Mathlib.Tactic.SplitIfs

namespace Foreman.Agent

open Text (Regex)

/-! ## 1. What the signs decide

The classification in one line for each class. -/

section Signs

variable {code : Int} {stderr : String}

theorem classifyExit_isRetryable_iff : (classifyExit code stderr).isRetryable = true ↔
    code = timeoutExit ∨ code = genericExit ∧
      (looksRateLimited stderr = true ∨ looksLikeNetworkFailure stderr = true) := by
  unfold classifyExit
  split_ifs with htimeout hlimit hnetwork
  · simp [ExitClass.isRetryable, htimeout]
  · rw [Bool.and_eq_true, decide_eq_true_eq] at hlimit
    simp [ExitClass.isRetryable, hlimit]
  · rw [Bool.and_eq_true, decide_eq_true_eq] at hnetwork
    simp [ExitClass.isRetryable, hnetwork]
  · rw [Bool.and_eq_true, decide_eq_true_eq] at hlimit hnetwork
    simp only [ExitClass.isRetryable, htimeout, false_or, Bool.false_eq_true, false_iff]
    rintro ⟨hcode, hsign | hsign⟩
    · exact hlimit ⟨hcode, hsign⟩
    · exact hnetwork ⟨hcode, hsign⟩

theorem classifyExit_eq_rateLimited_iff : classifyExit code stderr = .retryable .rateLimited ↔
    code = genericExit ∧ looksRateLimited stderr = true := by
  rw [← decide_eq_true_eq (p := code = genericExit), ← Bool.and_eq_true]
  unfold classifyExit
  split_ifs with htimeout hlimit hnetwork
  · simp [htimeout, timeoutExit, genericExit]
  · simp [hlimit]
  · simp [hlimit]
  · simp [hlimit]

end Signs

/-! ## 2. More lines

A log between line feeds. -/

/-- **What is found in a log is found in a longer one.** -/
theorem foundIn_between_lines (pre post : String) {r : Regex} {s : String}
    (h : r.foundIn s = true) : r.foundIn (pre ++ "\n" ++ s ++ "\n" ++ post) = true := by
  have hbreak : Text.isWordChar '\n' = false := rfl
  have hlonger : (pre ++ "\n" ++ s ++ "\n" ++ post).toList =
      pre.toList ++ '\n' :: (s.toList ++ '\n' :: post.toList) := by simp
  exact Regex.foundIn_amid hbreak hbreak hlonger h

theorem any_foundIn_between_lines (pre post : String) {signs : List Regex} {s : String}
    (h : signs.any (·.foundIn s) = true) :
    signs.any (·.foundIn (pre ++ "\n" ++ s ++ "\n" ++ post)) = true := by
  obtain ⟨r, hr, hfound⟩ := List.any_eq_true.mp h
  exact List.any_eq_true.mpr ⟨r, hr, foundIn_between_lines pre post hfound⟩

/-- **More lines never make a failure fatal.**  A log with lines before and behind has the signs
of the log; so what is worth another attempt by the log is worth it by the longer one, and a rate
limit stays a rate limit. -/
theorem more_lines_keep_retryable (code : Int) (pre s post : String) :
    let longer := pre ++ "\n" ++ s ++ "\n" ++ post
    (looksRateLimited s = true → looksRateLimited longer = true) ∧
      (looksLikeNetworkFailure s = true → looksLikeNetworkFailure longer = true) ∧
      ((classifyExit code s).isRetryable = true → (classifyExit code longer).isRetryable = true) ∧
      (classifyExit code s = .retryable .rateLimited →
        classifyExit code longer = .retryable .rateLimited) := by
  intro longer
  have hlimit : looksRateLimited s = true → looksRateLimited longer = true :=
    any_foundIn_between_lines pre post
  have hnetwork : looksLikeNetworkFailure s = true → looksLikeNetworkFailure longer = true :=
    any_foundIn_between_lines pre post
  refine ⟨hlimit, hnetwork, ?_, ?_⟩
  · rw [classifyExit_isRetryable_iff, classifyExit_isRetryable_iff]
    exact Or.imp_right (And.imp_right (Or.imp hlimit hnetwork))
  · rw [classifyExit_eq_rateLimited_iff, classifyExit_eq_rateLimited_iff]
    exact And.imp_right hlimit

/-- A refused connection is worth another attempt amid the lines of a log; but if one of them tells
of a rate limit, that is what it is taken for. -/
theorem refused_connection_amid_lines :
    let refused := "fatal: Connection  refused"
    classifyExit genericExit refused = .retryable .transientNetwork ∧
      (classifyExit genericExit ("ses_429f" ++ "\n" ++ refused ++ "\n" ++ "bye")).isRetryable ∧
      classifyExit genericExit ("HTTP 429" ++ "\n" ++ refused ++ "\n" ++ "bye") =
        .retryable .rateLimited := by
  intro refused
  have hnetwork : classifyExit genericExit refused = .retryable .transientNetwork := by
    decide +kernel
  obtain ⟨-, -, hkept, -⟩ := more_lines_keep_retryable genericExit "ses_429f" refused "bye"
  refine ⟨hnetwork, hkept ?_, by decide +kernel⟩
  rw [hnetwork]
  rfl

end Foreman.Agent
