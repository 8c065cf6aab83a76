/-
# A written instant is read back

An instant is written in fields of digits with marks between them, and no field runs into the next
one.  So every field is found again, and with them the instant.

A leap second is written as second 60, which stands behind second 59 only.  The nanoseconds of one
that an instant counts on any other second are lost: its text is that of the second that follows.

* `read?_write`: the fields of a written instant.
* `read?_write_iff`: which instants are read back.
* `isWritable_of_read?`: those that were read.
-/
import Foreman.Proofs.Text.Digits
import Foreman.Proofs.Time.Calendar
import Foreman.Time.Rfc3339

namespace Foreman

/-- A leap second is counted on the last second of a minute only. -/
def Instant.LeapInPlace (t : Instant) : Prop := 1000000000 ≤ t.nanos → t.second % 60 = 59

/-- A text can say all of the instant. -/
def Instant.IsWritable (t : Instant) : Prop := t.IsValid ∧ t.LeapInPlace

instance (t : Instant) : Decidable t.IsWritable :=
  inferInstanceAs (Decidable ((_ ∧ _ ∧ _ ∧ _) ∧ (_ → _)))

namespace Rfc3339

open Text

variable {rest : List Char} {most width n : Nat}

/-! ## 1. Fields

Digits of a fixed number, with a mark behind them. -/

theorem isBlank_of_isDigit {c : Char} (h : c.isDigit = true) : isBlank c = false := by
  have hrange := isDigit_range h
  simp [isBlank]
  omega

theorem dropBlanks_of_not {c : Char} (h : isBlank c = false) (rest : List Char) :
    dropBlanks (c :: rest) = c :: rest :=
  List.dropWhile_cons_of_neg (by simp [h])

theorem dropBlanks_padded (width n : Nat) (rest : List Char) :
    dropBlanks ((padded width n).toList ++ rest) = (padded width n).toList ++ rest := by
  obtain ⟨c, cs, hfront, hc⟩ := padded_front width n
  rw [hfront]
  exact dropBlanks_of_not (isBlank_of_isDigit hc) _

theorem number?_padded (h : (padded width n).toList.length ≤ most) (hrest : NoDigitNext rest) :
    number? most ((padded width n).toList ++ rest) = some (n, rest) := by
  have hdigits : (((padded width n).toList ++ rest).takeWhile Char.isDigit).take most =
      (padded width n).toList := by
    rw [takeWhile_isDigit_append (fun c => isDigit_of_mem_padded) hrest, List.take_of_length_le h]
  rw [number?, hdigits, if_neg (padded_ne_nil width n), digitsValue_padded, List.drop_left]

/-- **A field of two digits is read back.** -/
theorem field?_padded (h : n < 100) (hrest : NoDigitNext rest) :
    field? ((padded 2 n).toList ++ rest) = some (n, rest) := by
  have hdigits : (Nat.toDigits 10 n).length ≤ 2 :=
    (Nat.length_toDigits_le_iff (by decide) (by decide)).mpr h
  rw [field?, dropBlanks_padded]
  exact number?_padded (Nat.le_of_eq (padded_length hdigits)) hrest

theorem mark?_mark {c : Char} (h : isBlank c = false) (rest : List Char) :
    mark? c (c :: rest) = some rest := by
  rw [mark?, dropBlanks_of_not h]
  exact if_pos rfl

/-- A year of four digits has no sign. -/
theorem year?_padded (h : n ≤ 9999) (hrest : NoDigitNext rest) :
    year? ((padded 4 n).toList ++ rest) = some ((n : Int), rest) := by
  have hdigits : (Nat.toDigits 10 n).length ≤ 4 :=
    (Nat.length_toDigits_le_iff (by decide) (by decide)).mpr (Nat.lt_succ_of_le h)
  have hread : number? 4 ((padded 4 n).toList ++ rest) = some (n, rest) :=
    number?_padded (Nat.le_of_eq (padded_length hdigits)) hrest
  obtain ⟨c, cs, hfront, hc⟩ := padded_front 4 n
  rw [hfront] at hread ⊢
  rw [year?, List.cons_append, dropBlanks_of_not (isBlank_of_isDigit hc)]
  split
  · exact absurd (List.cons.inj ‹_›).1 (ne_of_isDigit hc rfl)
  · exact absurd (List.cons.inj ‹_›).1 (ne_of_isDigit hc rfl)
  · rw [← List.cons_append, hread, Option.map_some]

/-- **A year is read back**, with its sign if it has one. -/
theorem year?_write (year : Int) (hrest : NoDigitNext rest) :
    year? ((writeYear year).toList ++ rest) = some (year, rest) := by
  -- behind a sign, a year may have any number of digits
  have hread : ∀ n : Nat, number? ((padded 4 n).toList ++ rest).length
      ((padded 4 n).toList ++ rest) = some (n, rest) := fun n =>
    number?_padded (by rw [List.length_append]; omega) hrest
  unfold writeYear
  split
  · rename_i h
    obtain ⟨n, rfl⟩ := Int.eq_ofNat_of_zero_le h.1
    rw [Int.natAbs_natCast, year?_padded (by omega) hrest]
  · split
    · obtain ⟨n, rfl⟩ : ∃ n : Nat, year = -(n : Int) := ⟨year.natAbs, by omega⟩
      have hminus : ("-" ++ padded 4 n).toList ++ rest = '-' :: ((padded 4 n).toList ++ rest) := by
        simp
      rw [Int.natAbs_neg, Int.natAbs_natCast, hminus, year?, dropBlanks_of_not rfl]
      simp only [hread, Option.map_some]
    · obtain ⟨n, rfl⟩ := Int.eq_ofNat_of_zero_le (a := year) (by omega)
      have hplus : ("+" ++ padded 4 n).toList ++ rest = '+' :: ((padded 4 n).toList ++ rest) := by
        simp
      rw [Int.natAbs_natCast, hplus, year?, dropBlanks_of_not rfl]
      simp only [hread, Option.map_some]

/-! ## 2. The fraction

No digits, three, six or nine. -/

theorem fraction?_padded {value : Nat} (hdigits : (Nat.toDigits 10 n).length ≤ width)
    (hwidth : width ≤ 9) (hvalue : n * Nat.pow 10 (9 - width) = value) (hrest : NoDigitNext rest) :
    fraction? ('.' :: ((padded width n).toList ++ rest)) = some (value, rest) := by
  have hlength := padded_length hdigits
  have htake : (((padded width n).toList ++ rest).takeWhile Char.isDigit).take 9 =
      (padded width n).toList := by
    rw [takeWhile_isDigit_append (fun c => isDigit_of_mem_padded) hrest,
      List.take_of_length_le (by omega)]
  rw [fraction?, htake, if_neg (padded_ne_nil width n), digitsValue_padded, hlength,
    dropWhile_isDigit_append (fun c => isDigit_of_mem_padded) hrest, hvalue]

/-- **A fraction is read back**, however many of its digits are written. -/
theorem fraction?_write (h : n < 1000000000) (hrest : NoDigitNext rest)
    (hpoint : ∀ cs, rest ≠ '.' :: cs) :
    fraction? ((writeFraction n).toList ++ rest) = some (n, rest) := by
  have hdigits : ∀ {m width : Nat}, 0 < width → m < Nat.pow 10 width →
      (Nat.toDigits 10 m).length ≤ width := fun hwidth hm =>
    (Nat.length_toDigits_le_iff (by decide) hwidth).mpr hm
  have hfront : ∀ s : String, ("." ++ s).toList ++ rest = '.' :: (s.toList ++ rest) := by simp
  unfold writeFraction
  split
  · subst n
    rw [String.toList_empty, List.nil_append, fraction?]
    exact hpoint
  · split
    · have hbound : n / 1000000 < 1000 := by omega
      have hvalue : n / 1000000 * 1000000 = n := by omega
      rw [hfront, fraction?_padded (hdigits (by decide) hbound) (by decide) hvalue hrest]
    · split
      · have hbound : n / 1000 < 1000000 := by omega
        have hvalue : n / 1000 * 1000 = n := by omega
        rw [hfront, fraction?_padded (hdigits (by decide) hbound) (by decide) hvalue hrest]
      · rw [hfront, fraction?_padded (hdigits (by decide) h) (by decide) (Nat.mul_one n) hrest]

/-! ## 3. Instants

The fields put together. -/

theorem date?_write {d : CivilDate} (hmonth : 0 ≤ d.month ∧ d.month < 100)
    (hday : 0 ≤ d.day ∧ d.day < 100) (hrest : NoDigitNext rest) :
    date? ((writeYear d.year).toList ++ '-' :: ((padded 2 d.month.natAbs).toList ++
        '-' :: ((padded 2 d.day.natAbs).toList ++ rest))) = some (d, rest) := by
  have hdash : ∀ cs, NoDigitNext ('-' :: cs) := fun _ => noDigitNext_cons.mpr rfl
  simp only [date?, year?_write d.year (hdash _), mark?_mark (c := '-') rfl,
    field?_padded (n := d.month.natAbs) (by omega) (hdash _),
    field?_padded (n := d.day.natAbs) (by omega) hrest, Option.bind_eq_bind, Option.bind_some]
  rw [Int.natAbs_of_nonneg hmonth.1, Int.natAbs_of_nonneg hday.1]
  rfl

theorem clock?_write {c : Clock} (hhour : c.hour < 100) (hminute : c.minute < 100)
    (hsecond : c.second < 100) (hnanos : c.nanos < 1000000000) :
    clock? ((padded 2 c.hour).toList ++ ':' :: ((padded 2 c.minute).toList ++
        ':' :: ((padded 2 c.second).toList ++ ((writeFraction c.nanos).toList ++ ['Z'])))) =
      some (c, ['Z']) := by
  have hcolon : ∀ cs, NoDigitNext (':' :: cs) := fun _ => noDigitNext_cons.mpr rfl
  have hfraction : NoDigitNext ((writeFraction c.nanos).toList ++ ['Z']) := by
    unfold writeFraction
    split
    · exact noDigitNext_cons.mpr rfl
    · split
      · simp [noDigitNext_cons]
      · split <;> simp [noDigitNext_cons]
  have hzone : NoDigitNext ['Z'] := noDigitNext_cons.mpr rfl
  simp only [clock?, mark?_mark (c := ':') rfl, field?_padded hhour (hcolon _),
    field?_padded hminute (hcolon _), field?_padded hsecond hfraction,
    fraction?_write hnanos hzone (by simp), Option.bind_eq_bind, Option.bind_some]
  rfl

/-- The time of day that is written for an instant. -/
def clockOf (t : Instant) : Clock where
  hour := t.second / 3600
  minute := t.second / 60 % 60
  second := t.second % 60 + if 1000000000 ≤ t.nanos then 1 else 0
  nanos := t.nanos % 1000000000

/-- What is written of an instant behind the date. -/
def clockText (c : Clock) : List Char :=
  (padded 2 c.hour).toList ++ ':' :: ((padded 2 c.minute).toList ++
    ':' :: ((padded 2 c.second).toList ++ ((writeFraction c.nanos).toList ++ ['Z'])))

theorem write_toList (t : Instant) :
    (write t).toList =
      (writeYear (CivilDate.ofDays t.day).year).toList ++
        '-' :: ((padded 2 (CivilDate.ofDays t.day).month.natAbs).toList ++
        '-' :: ((padded 2 (CivilDate.ofDays t.day).day.natAbs).toList ++
        'T' :: clockText (clockOf t))) := by
  simp [write, clockOf, clockText, String.toList_append]

/-- **The fields of a written instant are found again.** -/
theorem read?_write {t : Instant} (h : t.second < 86400) :
    read? (write t) = instant? (CivilDate.ofDays t.day) (clockOf t) 0 := by
  obtain ⟨hmonth, hmonth', hday, hday'⟩ := CivilDate.ofDays_month_day t.day
  have hlength := CivilDate.monthLength_le (CivilDate.ofDays t.day).year
    (CivilDate.ofDays t.day).month
  have hmark : NoDigitNext ('T' :: clockText (clockOf t)) := noDigitNext_cons.mpr rfl
  have hdate := date?_write (d := CivilDate.ofDays t.day) (by omega) (by omega) hmark
  have hclock : clock? (clockText (clockOf t)) = some (clockOf t, ['Z']) := by
    refine clock?_write ?_ ?_ ?_ ?_ <;> simp only [clockOf]
    · omega
    · omega
    · split <;> omega
    · omega
  have hzone : zone? (dropBlanks ['Z']) = some (0, []) := rfl
  have hblank : allBlank [] = true := rfl
  rw [read?, write_toList, readChars?, hdate]
  simp only [hclock, hzone, hblank, Option.bind_eq_bind, Option.bind_some, decide_true,
    Bool.true_or, if_true]

/-- The instant of a time of day; its second 60 is the one before, counted on. -/
theorem instant?_eq {date : CivilDate} {clock : Clock} (hdate : date.isValid = true)
    (hclock : clock.isValid = true) (hfirst : CivilDate.firstDay ≤ date.toDays)
    (hlast : date.toDays ≤ CivilDate.lastDay) :
    instant? date clock 0 =
      some (if clock.second = 60 then
        ⟨date.toDays, clock.hour * 3600 + clock.minute * 60 + 59, clock.nanos + 1000000000⟩
      else ⟨date.toDays, clock.hour * 3600 + clock.minute * 60 + clock.second, clock.nanos⟩) := by
  obtain ⟨⟨hhour, hminute⟩, hsecond⟩ :
      (clock.hour < 24 ∧ clock.minute < 60) ∧ clock.second ≤ 60 := by
    simpa [Clock.isValid] using hclock
  rw [instant?, if_pos (by simp [hdate, hclock])]
  by_cases hsixty : clock.second = 60
  · simp only [hsixty, if_true]
    rw [if_pos (by omega)]
    simp only [Option.some.injEq, Instant.mk.injEq, Int.cast_ofNat_Int, and_true]
    omega
  · simp only [hsixty, if_false]
    rw [if_pos (by omega)]
    simp only [Option.some.injEq, Instant.mk.injEq]
    omega

theorem clockOf_isValid {t : Instant} (h : t.second < 86400) : (clockOf t).isValid = true := by
  have hhour : (clockOf t).hour < 24 := by
    show t.second / 3600 < 24
    omega
  have hminute : (clockOf t).minute < 60 := Nat.mod_lt _ (by decide)
  have hsecond : (clockOf t).second ≤ 60 := by
    show t.second % 60 + _ ≤ 60
    split <;> omega
  simp [Clock.isValid, *]

/-- **A written instant is read back exactly if its leap second stands where one can be.** -/
theorem read?_write_iff {t : Instant} (h : t.IsValid) :
    read? (write t) = some t ↔ t.LeapInPlace := by
  obtain ⟨hfirst, hlast, hsecond, hnanos⟩ := h
  rw [read?_write hsecond, instant?_eq (CivilDate.isValid_ofDays hfirst hlast)
    (clockOf_isValid hsecond) (by rwa [CivilDate.toDays_ofDays]) (by rwa [CivilDate.toDays_ofDays]),
    CivilDate.toDays_ofDays, Option.some.injEq]
  obtain ⟨day, second, nanos⟩ := t
  have hclock : (clockOf ⟨day, second, nanos⟩).hour = second / 3600 ∧
      (clockOf ⟨day, second, nanos⟩).minute = second / 60 % 60 ∧
      (clockOf ⟨day, second, nanos⟩).second =
        second % 60 + (if 1000000000 ≤ nanos then 1 else 0) ∧
      (clockOf ⟨day, second, nanos⟩).nanos = nanos % 1000000000 := ⟨rfl, rfl, rfl, rfl⟩
  generalize clockOf ⟨day, second, nanos⟩ = clock at *
  obtain ⟨hhour, hminute, hclock, hfraction⟩ := hclock
  -- a leap second is written as the next one, and read as leap only where that is second 60
  have hparts : second / 3600 * 3600 + second / 60 % 60 * 60 + second % 60 = second := by omega
  unfold Instant.LeapInPlace
  dsimp only at *
  rw [hhour, hminute, hfraction]
  by_cases hleap : 1000000000 ≤ nanos
  · rw [if_pos hleap] at hclock
    split
    · simp only [Instant.mk.injEq, true_and]
      omega
    · simp only [Instant.mk.injEq, true_and]
      omega
  · rw [if_neg hleap] at hclock
    split
    · simp only [Instant.mk.injEq, true_and]
      omega
    · simp only [Instant.mk.injEq, true_and]
      omega

/-- What is counted on after midnight is taken for the next second. -/
example : read? (write ⟨0, 0, 1500000000⟩) = some ⟨0, 1, 500000000⟩ := by decide +kernel

/-! ## 4. What is read can be written

So a document that was read can be written again. -/

theorem fraction?_lt {cs : List Char} (h : fraction? cs = some (n, rest)) : n < 1000000000 := by
  unfold fraction? at h
  split at h
  · rename_i r
    dsimp only at h
    split at h
    · cases h
    · obtain ⟨rfl, -⟩ := Prod.mk.inj (Option.some.inj h)
      have hlength : ((r.takeWhile Char.isDigit).take 9).length ≤ 9 := List.length_take_le _ _
      have hvalue : digitsValue ((r.takeWhile Char.isDigit).take 9) < 10 ^ _ :=
        digitsValue_lt fun c hc =>
          List.all_eq_true.mp List.all_takeWhile c (List.mem_of_mem_take hc)
      generalize (r.takeWhile Char.isDigit).take 9 = digits at hlength hvalue
      calc digitsValue digits * Nat.pow 10 (9 - digits.length)
          < 10 ^ digits.length * 10 ^ (9 - digits.length) :=
            Nat.mul_lt_mul_of_pos_right hvalue (Nat.pow_pos (by decide))
        _ = 1000000000 := by rw [← Nat.pow_add, Nat.add_sub_cancel' hlength]
  · obtain ⟨rfl, -⟩ := Prod.mk.inj (Option.some.inj h)
    decide

theorem clock?_nanos_lt {cs : List Char} {c : Clock} (h : clock? cs = some (c, rest)) :
    c.nanos < 1000000000 := by
  simp only [clock?, Option.bind_eq_bind, Option.bind_eq_some_iff] at h
  obtain ⟨⟨hour, r₁⟩, -, r₂, -, ⟨minute, r₃⟩, -, r₄, -, ⟨second, r₅⟩, -, ⟨nanos, r₆⟩, hfraction,
    h⟩ := h
  obtain ⟨rfl, -⟩ := Prod.mk.inj (Option.some.inj h)
  exact fraction?_lt hfraction

/-- An offset has whole minutes. -/
theorem offsetBody?_minutes {cs : List Char} (h : offsetBody? cs = some (n, rest)) :
    n % 60 = 0 := by
  unfold offsetBody? at h
  split at h
  · cases h
  · split at h
    · cases h
    · split at h
      · obtain ⟨rfl, -⟩ := Prod.mk.inj (Option.some.inj h)
        omega
      · cases h

theorem zone?_minutes {cs : List Char} {ahead : Int} (h : zone? cs = some (ahead, rest)) :
    ahead % 60 = 0 := by
  unfold zone? at h
  split at h
  · split at h
    · obtain ⟨rfl, -⟩ := Prod.mk.inj (Option.some.inj h)
      rfl
    · split at h
      · obtain ⟨rfl, -⟩ := Prod.mk.inj (Option.some.inj h)
        rfl
      · split at h
        · obtain ⟨⟨n, r⟩, hbody, h⟩ := Option.map_eq_some_iff.mp h
          obtain ⟨rfl, -⟩ := Prod.mk.inj h
          have hminutes := offsetBody?_minutes hbody
          omega
        · split at h
          · obtain ⟨⟨n, r⟩, hbody, h⟩ := Option.map_eq_some_iff.mp h
            obtain ⟨rfl, -⟩ := Prod.mk.inj h
            have hminutes := offsetBody?_minutes hbody
            omega
          · cases h
  · cases h

theorem isWritable_of_instant? {date : CivilDate} {clock : Clock} {ahead : Int} {t : Instant}
    (hnanos : clock.nanos < 1000000000) (hahead : ahead % 60 = 0)
    (h : instant? date clock ahead = some t) : t.IsWritable := by
  unfold instant? at h
  split at h
  · dsimp only at h
    -- a leap second follows the last second of a minute, and an offset has whole minutes
    by_cases hsixty : clock.second = 60
    · simp only [hsixty, if_true] at h
      split at h
      · rename_i hrange
        obtain rfl := Option.some.inj h
        exact ⟨⟨hrange.1, hrange.2, by dsimp only; omega, by dsimp only; omega⟩,
          fun _ => by dsimp only; omega⟩
      · cases h
    · simp only [hsixty, if_false] at h
      split at h
      · rename_i hrange
        obtain rfl := Option.some.inj h
        exact ⟨⟨hrange.1, hrange.2, by dsimp only; omega, by dsimp only; omega⟩,
          fun hleap => absurd hleap (by dsimp only; omega)⟩
      · cases h
  · cases h

/-- **What is read can be written**, so it is read back when it was. -/
theorem isWritable_of_read? {s : String} {t : Instant} (h : read? s = some t) : t.IsWritable := by
  have hrest : ∀ {date : CivilDate} {r : List Char}, ((clock? r).bind fun c =>
      (zone? (dropBlanks c.2)).bind fun z =>
        if allBlank z.2 = true then instant? date c.1 z.1 else none) = some t → t.IsWritable := by
    intro date r h
    obtain ⟨⟨clock, r₁⟩, hclock, h⟩ := Option.bind_eq_some_iff.mp h
    obtain ⟨⟨ahead, r₂⟩, hzone, h⟩ := Option.bind_eq_some_iff.mp h
    split at h
    · exact isWritable_of_instant? (clock?_nanos_lt hclock) (zone?_minutes hzone) h
    · cases h
  rw [read?, readChars?] at h
  obtain ⟨⟨date, r⟩, -, h⟩ := Option.bind_eq_some_iff.mp h
  dsimp only at h
  split at h
  · split at h
    · exact hrest h
    · cases h
  · cases h

end Rfc3339
end Foreman
