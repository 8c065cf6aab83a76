/-
# Instants: earlier and later, sums and distances

Instants are compared by day, then by second, then by nanosecond.  The nanoseconds of a leap second
run on, so it stands behind the second it follows and before the next one.

A distance between two instants is the difference of their parts, with a second more or less where
their times of day say that a leap second was crossed; the days are not asked.  A sum leaves the
leap second it starts in, unless it ends there.  So the distance from one instant to a later one
need not lead from the one to the other.

* `NotAfter.refl`, `NotAfter.trans`, `NotAfter.antisymm`, `notAfter_or_before`: the order is total.
* `add?_eq_some_iff`: where a sum ends, by the clock that counts no leap seconds.
* `isSome_add?_ofSeconds_iff`: how far the calendar reaches.
* `add?_nanosSince_iff`: the distance leads there for exactly the pairs that are `SameClock`, and
  all pairs without leap seconds are.
-/
import Foreman.Time.Instant
import Mathlib.Logic.Basic

namespace Foreman
namespace Instant

variable {a b c t e now ready : Instant} {span : Span}

instance (t : Instant) : Decidable t.IsValid := inferInstanceAs (Decidable (_ ∧ _ ∧ _ ∧ _))

/-! ## 1. Earlier and later

The order of the three parts. -/

theorem before_iff : a.before b = true ↔ a.day < b.day ∨ (a.day = b.day ∧
    (a.second < b.second ∨ (a.second = b.second ∧ a.nanos < b.nanos))) := by
  simp only [before, Bool.or_eq_true, Bool.and_eq_true, decide_eq_true_eq]

/-- `a` is `b` or earlier. -/
def NotAfter (a b : Instant) : Prop := b.before a = false

instance (a b : Instant) : Decidable (NotAfter a b) := inferInstanceAs (Decidable (_ = _))

theorem notAfter_iff : NotAfter a b ↔ a.day < b.day ∨ (a.day = b.day ∧
    (a.second < b.second ∨ (a.second = b.second ∧ a.nanos ≤ b.nanos))) := by
  rw [NotAfter, ← Bool.not_eq_true, before_iff]
  omega

theorem NotAfter.refl (a : Instant) : NotAfter a a := by
  rw [notAfter_iff]
  omega

theorem NotAfter.trans (hab : NotAfter a b) (hbc : NotAfter b c) : NotAfter a c := by
  rw [notAfter_iff] at *
  omega

theorem NotAfter.antisymm (hab : NotAfter a b) (hba : NotAfter b a) : a = b := by
  obtain ⟨day, second, nanos⟩ := a
  obtain ⟨day', second', nanos'⟩ := b
  rw [notAfter_iff] at *
  dsimp only at *
  rw [mk.injEq]
  omega

theorem notAfter_or_before (a b : Instant) : NotAfter a b ∨ b.before a = true := by
  rw [notAfter_iff, before_iff]
  omega

theorem notAfter_of_before (h : a.before b = true) : NotAfter a b := by
  rw [before_iff] at h
  rw [notAfter_iff]
  omega

theorem before_of_before_of_notAfter (hab : a.before b = true) (hbc : NotAfter b c) :
    a.before c = true := by
  rw [before_iff] at *
  rw [notAfter_iff] at hbc
  omega

theorem before_of_notAfter_of_before (hab : NotAfter a b) (hbc : b.before c = true) :
    a.before c = true := by
  rw [before_iff] at *
  rw [notAfter_iff] at hab
  omega

/-! ## 2. Sums

A sum is that of a clock that counts no leap seconds, but for one that it starts in. -/

/-- Nanoseconds from the start of 1970, leap seconds not counted. -/
def clockNanos (t : Instant) : Int := t.unixSeconds * 1000000000 + (t.nanos % 1000000000 : Nat)

/-- The span ends inside the leap second that it starts in. -/
def Stays (t : Instant) (span : Span) : Prop :=
  1000000000 ≤ t.nanos ∧ t.nanos + span.nanos < 2000000000

theorem stays_iff : t.Stays span ↔ 1000000000 ≤ t.nanos ∧ span.seconds = 0 ∧
    t.nanos + span.subsecond < 2000000000 := by
  rw [Stays, Span.seconds, Span.subsecond, Span.perSecond]
  omega

theorem add?_of_stays (h : t.Stays span) :
    t.add? span = some { t with nanos := t.nanos + span.nanos } := by
  have hwhole : span.subsecond = span.nanos := by
    rw [Stays] at h
    rw [Span.subsecond, Span.perSecond]
    omega
  rw [add?, if_pos (stays_iff.mp h), hwhole]

theorem add?_eq_some_iff (h : ¬ t.Stays span) :
    t.add? span = some e ↔ e.clockNanos = t.clockNanos + span.nanos ∧ e.second < 86400 ∧
      e.nanos < 1000000000 ∧ e.day ≤ CivilDate.lastDay := by
  obtain ⟨day, second, nanos⟩ := e
  rw [add?, if_neg (stays_iff.not.mp h)]
  dsimp only
  rw [Option.ite_none_right_eq_some, Option.some.injEq, mk.injEq]
  simp only [clockNanos, unixSeconds, Span.seconds, Span.subsecond, Span.perSecond]
  omega

theorem before_of_add? (hpos : 0 < span.nanos) (h : t.add? span = some e) (ht : t.IsValid) :
    t.before e = true := by
  obtain ⟨-, -, hsecond, hnanos⟩ := ht
  rw [before_iff]
  by_cases hstays : t.Stays span
  · rw [add?_of_stays hstays, Option.some.injEq] at h
    subst h
    dsimp only
    omega
  · rw [add?_eq_some_iff hstays] at h
    simp only [clockNanos, unixSeconds, Stays] at h hstays
    omega

theorem isValid_of_add? (h : t.add? span = some e) (ht : t.IsValid) : e.IsValid := by
  rw [IsValid] at ht ⊢
  by_cases hstays : t.Stays span
  · rw [add?_of_stays hstays, Option.some.injEq] at h
    subst h
    exact ⟨ht.1, ht.2.1, ht.2.2.1, hstays.2⟩
  · rw [add?_eq_some_iff hstays] at h
    simp only [clockNanos, unixSeconds] at h
    omega

/-- **The calendar ends with its last day**, and a sum that would end behind it is none. -/
theorem isSome_add?_ofSeconds_iff (ht : t.IsValid) (secs : Nat) :
    (t.add? (.ofSeconds secs)).isSome = true ↔
      t.unixSeconds + secs < (CivilDate.lastDay + 1) * 86400 := by
  obtain ⟨-, hlast, hsecond, -⟩ := ht
  by_cases hstays : t.Stays (.ofSeconds secs)
  · have hnone : secs = 0 := by
      simp only [Stays, Span.ofSeconds, Span.perSecond] at hstays
      omega
    rw [add?_of_stays hstays, unixSeconds]
    simp only [Option.isSome_some, true_iff]
    omega
  · rw [add?, if_neg (stays_iff.not.mp hstays)]
    dsimp only
    rw [Option.isSome_ite]
    simp only [unixSeconds, Span.seconds, Span.subsecond, Span.ofSeconds, Span.perSecond]
    omega

/-! ## 3. Distances

What is added to get from one instant to another. -/

/-- The distance from `now` to `ready` counts a leap second exactly where the sum leaves one out,
and the sum can end at `ready`.  Out of a leap second, the time of day has to be a later one. -/
def SameClock (now ready : Instant) : Prop :=
  (now.nanos < 1000000000 ∧ ready.nanos < 1000000000) ∨
  (1000000000 ≤ now.nanos ∧ ready.nanos < 1000000000 ∧ now.second < ready.second) ∨
  (1000000000 ≤ now.nanos ∧ 1000000000 ≤ ready.nanos ∧ now.day = ready.day ∧
    now.second = ready.second)

instance (now ready : Instant) : Decidable (SameClock now ready) :=
  inferInstanceAs (Decidable (_ ∨ _ ∨ _))

/-- **The distance to a later instant leads there** for pairs on the same clock, and for no
others. -/
theorem add?_nanosSince_iff (hnow : now.IsValid) (hready : ready.IsValid)
    (hlater : now.before ready = true) :
    (0 < ready.nanosSince now ∧ now.add? ⟨(ready.nanosSince now).toNat⟩ = some ready) ↔
      SameClock now ready := by
  obtain ⟨-, -, hsecond, hnanos⟩ := hnow
  obtain ⟨-, hlast, hsecond', hnanos'⟩ := hready
  rw [before_iff] at hlater
  by_cases hstays : now.Stays ⟨(ready.nanosSince now).toNat⟩
  · rw [add?_of_stays hstays, Option.some.injEq]
    obtain ⟨day, second, nanos⟩ := now
    obtain ⟨day', second', nanos'⟩ := ready
    simp only [Stays, nanosSince, SameClock, mk.injEq] at *
    omega
  · rw [add?_eq_some_iff hstays]
    simp only [Stays, clockNanos, nanosSince, SameClock, unixSeconds] at *
    omega

/-! ## 4. The time a span takes

The instants within a span, from its start on. -/

/-- `t` lies at most the span behind `now`, the end left out.  Where the calendar does not reach the
end, every instant from `now` on does. -/
def Within (now : Instant) (span : Span) (t : Instant) : Prop :=
  now.NotAfter t ∧ ∀ e, now.add? span = some e → t.before e = true

end Instant
end Foreman
