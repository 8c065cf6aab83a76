/-
# Sleeping until a cooldown is over

With a snapshot as it is, only the end of a cooldown makes a difference between one instant and a
later one.  So a scheduler may sleep until the first of them, and if none is to come and no task may
start, it is done.

* `eligibility_congr`: an instant counts for a task only through its cooldown.
* `nextCooldown?_of_firstEnd`: what is answered is the distance to the first end to come.
* `nextCooldown?_reliable`: sleeping that long misses nothing, if the distance leads there
  (`Instant.SameClock`).  If it does not, and a task is free at that end, the answer is wrong.

The answer is that of `next_cooldown_expiry`, which subtracts the moment from the first end and
gives up where the difference is negative.  For all moments and ends that a clock can show the
difference leads there.  A document may name an end within a leap second, and then it need not
(`retry_in_leap_second_wakes_early`).
-/
import Foreman.Proofs.Schedule.Plan
import Foreman.Proofs.Time.Instant

namespace Foreman

namespace Snapshot

variable {s : Snapshot} {t : Task} {now later ready u : Instant} {span : Span}

/-! ## 1. What time does to a task

Of the conditions for a start only the cooldown asks what time it is. -/

/-- Nothing keeps the task from starting but its cooldown and a claim. -/
def isFree (s : Snapshot) (t : Task) : Bool :=
  isWaiting t && s.dependenciesDone t && !s.hasActiveWorker t.id

/-- The task is waiting and in its cooldown. -/
def isCooling (s : Snapshot) (now : Instant) (t : Task) : Bool :=
  isWaiting t && (s.resumeOf t.id).inCooldown now

theorem eligibility_eq_ineligible_iff :
    s.eligibility t now = .ineligible ↔
      s.isFree t = false ∨ (s.resumeOf t.id).inCooldown now = true := by
  rw [eligibility, ← isFree]
  cases s.isFree t <;> cases (s.resumeOf t.id).inCooldown now <;> simp
  cases s.registry.findConflict t.footprint <;> simp

/-- **An instant counts for a task only through its cooldown**, and for a task that does not wait
not even so. -/
theorem eligibility_congr (h : s.isCooling now t = s.isCooling later t) :
    s.eligibility t now = s.eligibility t later := by
  unfold eligibility
  cases hwaits : isWaiting t with
  | false => simp
  | true =>
    simp only [isCooling, hwaits, Bool.true_and] at h
    rw [h]

/-! ## 2. The ends of cooldowns

Which ends count, and which of them is the first.  Tasks that are done or failed do not count,
whatever is remembered of them; tasks that wait for a dependency do, and make the loop wake for
nothing. -/

/-- The cooldown of a waiting task of the backlog ends then. -/
def Ends (s : Snapshot) (ready : Instant) : Prop :=
  ∃ t ∈ s.tasks, isWaiting t = true ∧ (s.resumeOf t.id).earliestRetry = some ready

/-- The first end of a waiting task's cooldown that is still to come. -/
structure FirstEnd (s : Snapshot) (now ready : Instant) : Prop where
  ends : s.Ends ready
  later : now.before ready = true
  first : ∀ other, s.Ends other → now.before other = true → ready.NotAfter other

/-- The cooldown of a task ends then that may start but for a claim. -/
def Frees (s : Snapshot) (ready : Instant) : Prop :=
  ∃ t ∈ s.tasks, s.isFree t = true ∧ (s.resumeOf t.id).earliestRetry = some ready

/-- An end that frees a task is one of those that count. -/
theorem Frees.ends (h : s.Frees ready) : s.Ends ready := by
  obtain ⟨t, ht, hfree, hretry⟩ := h
  simp only [isFree, Bool.and_eq_true] at hfree
  exact ⟨t, ht, hfree.1.1, hretry⟩

/-- A task cools while the end of its cooldown is to come. -/
theorem isCooling_iff : s.isCooling now t = true ↔ isWaiting t = true ∧
    ∃ ready, (s.resumeOf t.id).earliestRetry = some ready ∧ now.before ready = true := by
  rw [isCooling, Bool.and_eq_true, Resume.inCooldown]
  cases (s.resumeOf t.id).earliestRetry <;> simp

theorem cooldownEnd?_eq_some_iff : s.cooldownEnd? now t = some ready ↔ isWaiting t = true ∧
    (s.resumeOf t.id).earliestRetry = some ready ∧ now.before ready = true := by
  have hretry : (s.resume.get? t.id).bind Resume.earliestRetry =
      (s.resumeOf t.id).earliestRetry := by
    rw [resumeOf]
    cases s.resume.get? t.id <;> rfl
  rw [cooldownEnd?, hretry]
  cases isWaiting t with
  | false => simp
  | true =>
    cases (s.resumeOf t.id).earliestRetry with
    | none => simp
    | some other =>
      simp only [if_true, true_and, Option.some.injEq, Option.ite_none_right_eq_some]
      constructor
      · rintro ⟨hlater, rfl⟩
        exact ⟨rfl, hlater⟩
      · rintro ⟨rfl, hlater⟩
        exact ⟨hlater, rfl⟩

theorem mem_cooldownEnds_iff : ready ∈ s.tasks.filterMap (s.cooldownEnd? now) ↔
    s.Ends ready ∧ now.before ready = true := by
  simp only [List.mem_filterMap, cooldownEnd?_eq_some_iff, Ends]
  constructor
  · rintro ⟨t, ht, hwaits, hretry, hlater⟩
    exact ⟨⟨t, ht, hwaits, hretry⟩, hlater⟩
  · rintro ⟨⟨t, ht, hwaits, hretry⟩, hlater⟩
    exact ⟨t, ht, hwaits, hretry, hlater⟩

theorem earliest?_eq_none_iff {l : List Instant} : earliest? l = none ↔ l = [] := by
  cases l with
  | nil => simp [earliest?]
  | cons t rest =>
    simp only [earliest?, reduceCtorEq, iff_false]
    split
    · split <;> simp
    · simp

/-- The earliest is one of them, and none is before it. -/
theorem notAfter_of_earliest? : ∀ {l : List Instant} {first : Instant},
    earliest? l = some first → first ∈ l ∧ ∀ other ∈ l, first.NotAfter other
  | [], _, h => by simp [earliest?] at h
  | t :: rest, first, h => by
    rw [earliest?] at h
    cases hrest : earliest? rest with
    | none =>
      have hnil := earliest?_eq_none_iff.mp hrest
      obtain rfl : t = first := by simpa [hrest] using h
      simp [hnil, Instant.NotAfter.refl]
    | some u =>
      obtain ⟨hmem, hleast⟩ := notAfter_of_earliest? hrest
      simp only [hrest] at h
      rw [List.forall_mem_cons]
      split at h <;> rename_i hsooner <;> obtain rfl := Option.some.inj h
      · exact ⟨List.mem_cons_of_mem t hmem, Instant.notAfter_of_before hsooner, hleast⟩
      · have htu : t.NotAfter u := Bool.eq_false_iff.mpr hsooner
        exact ⟨List.mem_cons_self, Instant.NotAfter.refl t,
          fun other hother => htu.trans (hleast other hother)⟩

/-- The earliest of some instants is one of them, and none of them is earlier. -/
theorem earliest?_eq_some_iff {l : List Instant} :
    earliest? l = some ready ↔ ready ∈ l ∧ ∀ other ∈ l, ready.NotAfter other := by
  refine ⟨notAfter_of_earliest?, fun ⟨hmem, hleast⟩ => ?_⟩
  cases h : earliest? l with
  | none => simp [earliest?_eq_none_iff.mp h] at hmem
  | some first =>
    obtain ⟨hmem', hleast'⟩ := notAfter_of_earliest? h
    rw [(hleast' ready hmem).antisymm (hleast first hmem')]

theorem FirstEnd.earliest? (h : s.FirstEnd now ready) :
    earliest? (s.tasks.filterMap (s.cooldownEnd? now)) = some ready := by
  have hmem := mem_cooldownEnds_iff.mpr ⟨h.ends, h.later⟩
  refine earliest?_eq_some_iff.mpr ⟨hmem, fun other hother => ?_⟩
  obtain ⟨hends, hlater⟩ := mem_cooldownEnds_iff.mp hother
  exact h.first other hends hlater

/-- Some cooldown is the first to end, or all are over. -/
theorem exists_firstEnd (s : Snapshot) (now : Instant) :
    (∃ ready, s.FirstEnd now ready) ∨ ∀ ready, s.Ends ready → ready.NotAfter now := by
  cases h : Snapshot.earliest? (s.tasks.filterMap (s.cooldownEnd? now)) with
  | none =>
    refine .inr fun ready hends => Bool.eq_false_iff.mpr fun hlater => ?_
    have hmem := mem_cooldownEnds_iff.mpr ⟨hends, hlater⟩
    simp [earliest?_eq_none_iff.mp h] at hmem
  | some ready =>
    obtain ⟨hmem, hleast⟩ := earliest?_eq_some_iff.mp h
    obtain ⟨hends, hlater⟩ := mem_cooldownEnds_iff.mp hmem
    exact .inl ⟨ready, hends, hlater, fun other hother hother' =>
      hleast other (mem_cooldownEnds_iff.mpr ⟨hother, hother'⟩)⟩

/-- **What is answered**: the distance to the first end, where it is not negative. -/
theorem nextCooldown?_of_firstEnd (h : s.FirstEnd now ready) :
    s.nextCooldown? now =
      if 0 ≤ ready.nanosSince now then some ⟨(ready.nanosSince now).toNat⟩ else none := by
  rw [nextCooldown?, h.earliest?]

/-- Where all are over, nothing is answered. -/
theorem nextCooldown?_of_over (h : ∀ ready, s.Ends ready → ready.NotAfter now) :
    s.nextCooldown? now = none := by
  have hnil : s.tasks.filterMap (s.cooldownEnd? now) = [] := by
    refine List.eq_nil_iff_forall_not_mem.mpr fun ready hmem => ?_
    obtain ⟨hends, hlater⟩ := mem_cooldownEnds_iff.mp hmem
    rw [h ready hends] at hlater
    cases hlater
  rw [nextCooldown?, hnil]
  rfl

/-! ## 3. Sleeping and being done

What a scheduler may conclude from an answer, stated for all instants in between and not only
for those at which it looks. -/

/-- A scheduler that sleeps for the span misses nothing, and does not wake for nothing: a task that
was cooling all the time is out of its cooldown. -/
structure WakesInTime (s : Snapshot) (now : Instant) (span : Span) : Prop where
  positive : 0 < span.nanos
  still : ∀ u, u.IsValid → now.Within span u → ∀ t ∈ s.tasks,
    s.eligibility t u = s.eligibility t now
  wakes : ∃ later, now.add? span = some later ∧ ∃ t ∈ s.tasks, isWaiting t = true ∧
    (∀ u, u.IsValid → now.Within span u → (s.resumeOf t.id).inCooldown u = true) ∧
      (s.resumeOf t.id).inCooldown later = false

/-- Nothing changes any more. -/
structure IsDone (s : Snapshot) (now : Instant) : Prop where
  still : ∀ u, u.IsValid → now.NotAfter u → ∀ t ∈ s.tasks,
    s.eligibility t u = s.eligibility t now
  final : s.eligibleTasks now = [] → ∀ u, u.IsValid → now.NotAfter u → s.eligibleTasks u = []

/-- A scheduler may go by what it is told of the next cooldown. -/
def IsReliable (s : Snapshot) (now : Instant) : Prop :=
  match s.nextCooldown? now with
  | some span => s.WakesInTime now span
  | none => s.IsDone now

/-- As long as the ends to come are still to come, the same tasks are cooling. -/
theorem isCooling_eq (hu : now.NotAfter u)
    (h : ∀ ready, s.Ends ready → now.before ready = true → u.before ready = true)
    (ht : t ∈ s.tasks) : s.isCooling u t = s.isCooling now t := by
  rw [Bool.eq_iff_iff, isCooling_iff, isCooling_iff]
  constructor
  · rintro ⟨hwaits, ready, hretry, hlater⟩
    exact ⟨hwaits, ready, hretry, Instant.before_of_notAfter_of_before hu hlater⟩
  · rintro ⟨hwaits, ready, hretry, hlater⟩
    exact ⟨hwaits, ready, hretry, h ready ⟨t, ht, hwaits, hretry⟩ hlater⟩

/-- Where all are over, nothing changes any more. -/
theorem isDone_of_over (h : ∀ ready, s.Ends ready → ready.NotAfter now) : s.IsDone now := by
  have hstill : ∀ u, now.NotAfter u → ∀ t ∈ s.tasks, s.eligibility t u = s.eligibility t now := by
    refine fun u hu t ht => eligibility_congr (isCooling_eq hu (fun ready hends hlater => ?_) ht)
    rw [h ready hends] at hlater
    cases hlater
  refine ⟨fun u _ => hstill u, fun hnone u _ hu => ?_⟩
  rw [eligibleTasks, List.filter_eq_nil_iff] at hnone ⊢
  intro t ht
  rw [hstill u hu t ht]
  exact hnone t ht

/-- **A span that leads to the first end misses nothing.** -/
theorem FirstEnd.wakesInTime (h : s.FirstEnd now ready) (hpos : 0 < span.nanos)
    (hsum : now.add? span = some ready) : s.WakesInTime now span := by
  obtain ⟨⟨t, ht, hwaits, hretry⟩, hlater, hfirst⟩ := h
  refine
    { positive := hpos
      still := fun u _ hu t ht =>
        eligibility_congr (isCooling_eq hu.1 (fun other hends hother => ?_) ht)
      wakes := ⟨ready, hsum, t, ht, hwaits, fun u _ hu => ?_, ?_⟩ }
  · exact Instant.before_of_before_of_notAfter (hu.2 ready hsum) (hfirst other hends hother)
  · rw [Resume.inCooldown, hretry]
    exact hu.2 ready hsum
  · rw [Resume.inCooldown, hretry]
    exact Instant.NotAfter.refl ready

/-- A task that is free at the end of its cooldown is ineligible before, and not then. -/
theorem Frees.eligibility_ne (h : s.Frees ready) (hlater : now.before ready = true) :
    ∃ t ∈ s.tasks, s.eligibility t ready ≠ s.eligibility t now := by
  obtain ⟨t, ht, hfree, hretry⟩ := h
  refine ⟨t, ht, fun heq => ?_⟩
  have hnow : s.eligibility t now = .ineligible := by
    refine eligibility_eq_ineligible_iff.mpr (.inr ?_)
    rw [Resume.inCooldown, hretry]
    exact hlater
  rw [hnow, eligibility_eq_ineligible_iff, hfree, Resume.inCooldown, hretry] at heq
  rcases heq with heq | heq
  · cases heq
  · exact Bool.eq_false_iff.mp (Instant.NotAfter.refl ready) heq

/-- A span that misses nothing ends with the first cooldown, if a task is free then. -/
theorem WakesInTime.add?_eq (h : s.WakesInTime now span) (hfirst : s.FirstEnd now ready)
    (hfrees : s.Frees ready) (hnow : now.IsValid) (hready : ready.IsValid) :
    now.add? span = some ready := by
  obtain ⟨later, hsum, t, ht, hwaits, hcooling, hout⟩ := h.wakes
  have hlater : now.before later = true := Instant.before_of_add? h.positive hsum hnow
  have hwithin : ∀ u, now.NotAfter u → u.before later = true → now.Within span u := by
    intro u hu hbefore
    refine ⟨hu, fun e he => ?_⟩
    rw [Option.some.inj (he.symm.trans hsum)]
    exact hbefore
  -- the end is not missed
  have hle : later.NotAfter ready := by
    refine (Instant.notAfter_or_before later ready).resolve_right fun hearly => ?_
    obtain ⟨t', ht', hne⟩ := hfrees.eligibility_ne hfirst.later
    have hu := hwithin ready (Instant.notAfter_of_before hfirst.later) hearly
    exact hne (h.still ready hready hu t' ht')
  -- nothing ends before
  have hge : ready.NotAfter later := by
    have hnow' := hcooling now hnow (hwithin now (Instant.NotAfter.refl now) hlater)
    rw [Resume.inCooldown] at hnow' hout
    cases hretry : (s.resumeOf t.id).earliestRetry with
    | none => simp [hretry] at hnow'
    | some other =>
      simp only [hretry] at hnow' hout
      exact (hfirst.first other ⟨t, ht, hwaits, hretry⟩ hnow').trans hout
  rw [hsum, hle.antisymm hge]

end Snapshot

namespace Sample

/-- What is remembered of a task that failed once. -/
def cooledUntil (ready : Instant) : Resume := { attempts := 1, earliestRetry := some ready }

/-- A quarter of a second after noon, and half a minute after noon. -/
def pastNoon : Instant := ⟨20000, 43200, 250000000⟩
def halfMinute : Instant := ⟨20000, 43230, 0⟩

/-- The first two tasks are cooling for half a minute, and the second of them waits for the first
as well.  The task that is done counts for nothing.  The fourth is out of its cooldown and meets a
claim, and the fifth takes longer. -/
def cooling : Snapshot where
  tasks :=
    [{ id := "T-1", footprint := ["src"] },
      { id := "T-2", status := .blocked, dependencies := ["T-1"] },
      { id := "T-3", status := .done }, { id := "T-4", footprint := ["docs/a.md"] },
      { id := "T-5" }]
  resume :=
    ⟨[("T-1", cooledUntil halfMinute), ("T-2", cooledUntil halfMinute),
      ("T-3", cooledUntil ⟨20000, 43210, 0⟩), ("T-4", cooledUntil ⟨20000, 43140, 0⟩),
      ("T-5", cooledUntil ⟨20000, 43260, 0⟩)]⟩
  registry := { claims := [⟨"docs", "w6", "T-6", ⟨20000, 43000, 0⟩⟩] }

def midday : Instant := ⟨20000, 43200, 0⟩

/-- In the middle of a leap second a day later, and a day after `midday`. -/
def leapSecond : Instant := ⟨20001, 43199, 1500000000⟩
def nextMidday : Instant := ⟨20001, 43200, 0⟩

/-- One task, whose cooldown ends within that leap second. -/
def leaping : Snapshot where
  tasks := [{ id := "T-1" }]
  resume := ⟨[("T-1", cooledUntil leapSecond)]⟩

end Sample

/-- **Sleeping until the first cooldown is over misses nothing, and a scheduler that is told of none
is done**, if the clock's distance to the first end leads there; and if a task is free at that end,
only then. -/
theorem nextCooldown?_reliable {s : Snapshot} {now : Instant} (hnow : now.IsValid)
    (hends : ∀ ready, s.Ends ready → ready.IsValid) :
    ((∀ ready, s.FirstEnd now ready → now.SameClock ready) → s.IsReliable now) ∧
      ∀ ready, s.FirstEnd now ready → s.Frees ready →
        (s.IsReliable now ↔ now.SameClock ready) := by
  have hsuff : (∀ ready, s.FirstEnd now ready → now.SameClock ready) → s.IsReliable now := by
    intro hclock
    rcases s.exists_firstEnd now with ⟨ready, hfirst⟩ | hover
    · obtain ⟨hpos, hsum⟩ := (Instant.add?_nanosSince_iff hnow (hends ready hfirst.ends)
        hfirst.later).mpr (hclock ready hfirst)
      rw [Snapshot.IsReliable, Snapshot.nextCooldown?_of_firstEnd hfirst,
        if_pos (Int.le_of_lt hpos)]
      exact hfirst.wakesInTime (Int.pos_iff_toNat_pos.mp hpos) hsum
    · rw [Snapshot.IsReliable, Snapshot.nextCooldown?_of_over hover]
      exact Snapshot.isDone_of_over hover
  refine ⟨hsuff, fun ready hfirst hfrees => ⟨fun hreliable => ?_, fun hclock => hsuff ?_⟩⟩
  · have hready := hends ready hfirst.ends
    rw [Snapshot.IsReliable, Snapshot.nextCooldown?_of_firstEnd hfirst] at hreliable
    -- counted by the clock the end may lie behind, although it is still to come
    by_cases hsign : 0 ≤ ready.nanosSince now
    · rw [if_pos hsign] at hreliable
      refine (Instant.add?_nanosSince_iff hnow hready hfirst.later).mp
        ⟨Int.pos_iff_toNat_pos.mpr hreliable.positive, ?_⟩
      exact hreliable.add?_eq hfirst hfrees hnow hready
    · rw [if_neg hsign] at hreliable
      obtain ⟨t, ht, hne⟩ := hfrees.eligibility_ne hfirst.later
      exact absurd (hreliable.still ready hready (Instant.notAfter_of_before hfirst.later) t ht) hne
  · intro other hother
    have hsame : ready = other := (hfirst.first other hother.ends hother.later).antisymm
      (hother.first ready hfirst.ends hfirst.later)
    exact hsame ▸ hclock

/-- The first task is free after 29.75 seconds, and by then nothing has changed. -/
theorem cooling_reliable :
    Sample.pastNoon.IsValid ∧ (∀ ready, Sample.cooling.Ends ready → ready.IsValid) ∧
      Sample.cooling.nextCooldown? Sample.pastNoon = some ⟨29750000000⟩ ∧
      Sample.cooling.IsReliable Sample.pastNoon := by
  have hnow : Sample.pastNoon.IsValid := by decide
  have hall : ∀ t ∈ Sample.cooling.tasks, ∀ ready ∈ (Sample.cooling.resumeOf t.id).earliestRetry,
      ready.IsValid ∧ Sample.pastNoon.SameClock ready := by decide +kernel
  have hends : ∀ ready, Sample.cooling.Ends ready →
      ready.IsValid ∧ Sample.pastNoon.SameClock ready := by
    rintro ready ⟨t, ht, -, hretry⟩
    exact hall t ht ready hretry
  have hvalid : ∀ ready, Sample.cooling.Ends ready → ready.IsValid :=
    fun ready h => (hends ready h).1
  exact ⟨hnow, hvalid, by decide +kernel,
    (nextCooldown?_reliable hnow hvalid).1 fun ready h => (hends ready h.ends).2⟩

/-- **A cooldown that ends within a leap second is given up too early.**  The distance counts half a
second less than a day, and the sum leaves the leap second out: so it leads to half a second before
noon, when the task is still in its cooldown.  A whole day would do, as no clock shows a time
between. -/
theorem retry_in_leap_second_wakes_early :
    let t : Task := { id := "T-1" }
    let early : Instant := ⟨20001, 43199, 500000000⟩
    (Sample.midday.IsValid ∧ Sample.leapSecond.IsValid ∧ Sample.leaping.tasks = [t]) ∧
    (Sample.leaping.nextCooldown? Sample.midday = some ⟨86399500000000⟩ ∧
      Sample.midday.add? ⟨86399500000000⟩ = some early ∧
      Sample.leaping.eligibleTasks early = []) ∧
    (Sample.midday.add? ⟨86400000000000⟩ = some Sample.nextMidday ∧
      Sample.leaping.eligibleTasks Sample.nextMidday = [t]) ∧
    ¬ Sample.leaping.IsReliable Sample.midday := by
  have hspan : Sample.leaping.nextCooldown? Sample.midday = some ⟨86399500000000⟩ := by
    decide +kernel
  have hsum : Sample.midday.add? ⟨86399500000000⟩ = some ⟨20001, 43199, 500000000⟩ := by
    decide +kernel
  refine ⟨⟨by decide, by decide, rfl⟩, ⟨hspan, hsum, by decide +kernel⟩,
    ⟨by decide +kernel, by decide +kernel⟩, fun hreliable => ?_⟩
  rw [Snapshot.IsReliable, hspan] at hreliable
  obtain ⟨later, hlater, t, ht, -, -, hout⟩ := hreliable.wakes
  obtain rfl := Option.some.inj (hsum.symm.trans hlater)
  obtain rfl := List.mem_singleton.mp ht
  have hstill : (Sample.leaping.resumeOf "T-1").inCooldown ⟨20001, 43199, 500000000⟩ = true := by
    decide +kernel
  cases hstill.symm.trans hout

end Foreman
