/-
# What a worker's name says

A worker is named after its task and after the second it was chosen in, with a dash between the
two.  Identifiers of tasks have dashes of their own, but a second after the start of 1970 has none,
so the last dash of a name is the one in front of the second, and the name says both.  A second
before 1970 begins with a dash, and then two tasks can share a name.

* `WorkerId.splitLast?_named`: where a name is cut.
* `WorkerId.named_inj`: workers of one name were chosen for one task in one second.
-/
import Foreman.Proofs.Text.Digits
import Foreman.Task.Id

namespace Foreman

/-! ## 1. The last separator

A text is cut at the last dash. -/

namespace Text

variable {sep : Char} {after : List Char}

theorem cutLastChar?_eq_none : ∀ {cs : List Char}, sep ∉ cs → cutLastChar? sep cs = none
  | [], _ => rfl
  | c :: cs, h => by
    rw [List.mem_cons, not_or] at h
    rw [cutLastChar?, cutLastChar?_eq_none h.2]
    exact if_neg (Ne.symm h.1)

/-- A text is cut at a separator behind which there is no other. -/
theorem cutLastChar?_append (h : sep ∉ after) :
    ∀ before : List Char, cutLastChar? sep (before ++ sep :: after) = some (before, after)
  | [] => by
    rw [List.nil_append, cutLastChar?, cutLastChar?_eq_none h]
    exact if_pos rfl
  | c :: before => by
    rw [List.cons_append, cutLastChar?, cutLastChar?_append h before]

end Text

/-! ## 2. Names

A name is cut where its second begins. -/

namespace WorkerId

/-- The name of a worker of a task, by the second it was chosen in. -/
def named (taskId : String) (second : Int) : String :=
  "worker-" ++ taskId ++ "-" ++ toString second

theorem create_eq_named (taskId : String) (now : Instant) :
    create taskId now = named taskId now.unixSeconds := rfl

theorem dash_not_mem_toString (n : Nat) : '-' ∉ (toString (n : Int)).toList := by
  rw [Text.toString_natCast_toList]
  intro hmem
  exact absurd (Text.isDigit_of_mem_toDigits hmem) (by decide)

theorem toString_natCast_inj {m n : Nat} (h : toString (m : Int) = toString (n : Int)) : m = n := by
  have hdigits : Nat.toDigits 10 m = Nat.toDigits 10 n := by
    rw [← Text.toString_natCast_toList, ← Text.toString_natCast_toList, h]
  have hread := congrArg (fun digits => Nat.ofDigitChars 10 digits 0) hdigits
  simpa using hread

/-- **A name is cut in front of its second.** -/
theorem splitLast?_named (taskId : String) {second : Int} (h : 0 ≤ second) :
    Text.splitLast? (named taskId second) '-' = some ("worker-" ++ taskId, toString second) := by
  obtain ⟨n, rfl⟩ := Int.eq_ofNat_of_zero_le h
  have hlist : (named taskId n).toList =
      ("worker-" ++ taskId).toList ++ '-' :: (toString (n : Int)).toList := by
    simp [named, String.toList_append]
  rw [Text.splitLast?, hlist, Text.cutLastChar?_append (dash_not_mem_toString n), Option.map_some]
  simp only [String.ofList_toList]

/-- **Workers of one name were chosen for one task in one second.** -/
theorem named_inj {taskId taskId' : String} {second second' : Int} (h : 0 ≤ second)
    (h' : 0 ≤ second') :
    named taskId second = named taskId' second' ↔ taskId = taskId' ∧ second = second' := by
  constructor
  · intro heq
    have hcut := congrArg (fun name => Text.splitLast? name '-') heq
    rw [splitLast?_named taskId h, splitLast?_named taskId' h', Option.some.injEq,
      Prod.mk.injEq] at hcut
    obtain ⟨m, rfl⟩ := Int.eq_ofNat_of_zero_le h
    obtain ⟨n, rfl⟩ := Int.eq_ofNat_of_zero_le h'
    exact ⟨(String.append_right_inj _).mp hcut.1, congrArg _ (toString_natCast_inj hcut.2)⟩
  · rintro ⟨rfl, rfl⟩
    rfl

/-- Before 1970 two tasks can share a name. -/
example : named "T-" 5 = named "T" (-5) := by decide

end WorkerId
end Foreman
