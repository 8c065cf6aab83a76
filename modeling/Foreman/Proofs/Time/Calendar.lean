/-
# Days and dates

The date of a day is found in three cuts: an era of 400 years, a year of the era that starts in
March, and a month of that year.  Each cut leaves a rest in its range, and so the date is one of
the calendar and leads back to its day.

* `yearOfEra_bounds`, `dayOfYear_bounds`: the year of a day of an era, and the day of that year.
* `toDays_ofDays`: the date of a day is that day.
* `isValid_ofDays`: on the days that the program's dates reach, it is one of the program's dates.
-/
import Foreman.Time.Calendar

namespace Foreman
namespace CivilDate

/-! ## 1. Eras and years

The first two cuts. -/

/-- The year of a day of an era. -/
def yearOfEra (dayOfEra : Int) : Int :=
  (dayOfEra - dayOfEra / 1460 + dayOfEra / 36524 - dayOfEra / 146096) / 365

/-- The day of that year, which starts in March. -/
def dayOfYear (dayOfEra : Int) : Int :=
  dayOfEra - (365 * yearOfEra dayOfEra + yearOfEra dayOfEra / 4 - yearOfEra dayOfEra / 100)

variable {dayOfEra day : Int}

theorem yearOfEra_bounds (hlow : 0 ≤ dayOfEra) (hhigh : dayOfEra < 146097) :
    0 ≤ yearOfEra dayOfEra ∧ yearOfEra dayOfEra ≤ 399 := by
  unfold yearOfEra
  omega

/-- **A year has 365 days, and one more if it ends with a leap day.** -/
theorem dayOfYear_bounds (hlow : 0 ≤ dayOfEra) (hhigh : dayOfEra < 146097) :
    0 ≤ dayOfYear dayOfEra ∧ (dayOfYear dayOfEra < 365 ∨ dayOfYear dayOfEra = 365 ∧
      yearOfEra dayOfEra % 4 = 3 ∧
        (yearOfEra dayOfEra % 100 ≠ 99 ∨ yearOfEra dayOfEra = 399)) := by
  have hyear := yearOfEra_bounds hlow hhigh
  unfold dayOfYear
  generalize hy : yearOfEra dayOfEra = y at *
  unfold yearOfEra at hy
  -- within a century, leap days come every fourth year
  have hdays : dayOfEra / 36524 = 0 ∨ dayOfEra / 36524 = 1 ∨ dayOfEra / 36524 = 2 ∨
      dayOfEra / 36524 = 3 ∨ dayOfEra / 36524 = 4 := by omega
  have hyears : y / 100 = 0 ∨ y / 100 = 1 ∨ y / 100 = 2 ∨ y / 100 = 3 := by omega
  rcases hdays with hdays | hdays | hdays | hdays | hdays <;>
    rcases hyears with hyears | hyears | hyears | hyears <;> omega

/-! ## 2. Months

The months of a year that starts in March have lengths that one division finds. -/

/-- The month of a day of the year, counted from March. -/
def monthFromMarch (day : Int) : Int := (5 * day + 2) / 153

theorem monthFromMarch_bounds (hlow : 0 ≤ day) (hhigh : day ≤ 365) :
    0 ≤ monthFromMarch day ∧ monthFromMarch day ≤ 11 := by
  unfold monthFromMarch
  omega

/-- The number of a month that is counted from March. -/
def monthNumber (month : Int) : Int := if month < 10 then month + 3 else month - 9

/-- **The cuts of a day**: an era, a year of the era and a day of that year, which give its date. -/
theorem ofDays_cuts (days : Int) :
    ∃ era year day : Int, 0 ≤ year ∧ year ≤ 399 ∧ 0 ≤ day ∧
      (day < 365 ∨ day = 365 ∧ year % 4 = 3 ∧ (year % 100 ≠ 99 ∨ year = 399)) ∧
      days + 719468 = era * 146097 + (365 * year + year / 4 - year / 100) + day ∧
      ofDays days =
        ⟨year + era * 400 + (if monthNumber (monthFromMarch day) ≤ 2 then 1 else 0),
          monthNumber (monthFromMarch day), day - (153 * monthFromMarch day + 2) / 5 + 1⟩ := by
  have hlow : 0 ≤ (days + 719468) % 146097 := by omega
  have hhigh : (days + 719468) % 146097 < 146097 := by omega
  obtain ⟨hyear, hyear'⟩ := yearOfEra_bounds hlow hhigh
  obtain ⟨hday, hday'⟩ := dayOfYear_bounds hlow hhigh
  refine ⟨(days + 719468) / 146097, yearOfEra ((days + 719468) % 146097),
    dayOfYear ((days + 719468) % 146097), hyear, hyear', hday, hday', ?_, rfl⟩
  unfold dayOfYear
  omega

/-! ## 3. Dates

The three cuts put together. -/

/-- **The date of a day is that day.** -/
theorem toDays_ofDays (days : Int) : (ofDays days).toDays = days := by
  obtain ⟨era, year, day, hyear, hyear', hday, hday', hdays, hdate⟩ := ofDays_cuts days
  obtain ⟨hmonth, hmonth'⟩ := monthFromMarch_bounds hday (by omega)
  rw [hdate]
  generalize monthFromMarch day = month at *
  simp only [toDays, monthNumber]
  split <;> split <;> omega

/-- A leap day. -/
example : ofDays 19782 = ⟨2024, 2, 29⟩ := by decide

/-- The month and its day are those of a calendar. -/
theorem ofDays_month_day (days : Int) :
    1 ≤ (ofDays days).month ∧ (ofDays days).month ≤ 12 ∧ 1 ≤ (ofDays days).day ∧
      (ofDays days).day ≤ monthLength (ofDays days).year (ofDays days).month := by
  obtain ⟨era, year, day, hyear, hyear', hday, hday', hdays, hdate⟩ := ofDays_cuts days
  rw [hdate]
  have hmonth : monthFromMarch day = (5 * day + 2) / 153 := rfl
  generalize monthFromMarch day = month at *
  have hcases : month = 0 ∨ month = 1 ∨ month = 2 ∨ month = 3 ∨ month = 4 ∨ month = 5 ∨
      month = 6 ∨ month = 7 ∨ month = 8 ∨ month = 9 ∨ month = 10 ∨ month = 11 := by omega
  rcases hcases with rfl | rfl | rfl | rfl | rfl | rfl | rfl | rfl | rfl | rfl | rfl | rfl <;>
    simp [monthNumber, monthLength, isLeapYear] <;> omega

theorem monthLength_le (year month : Int) : monthLength year month ≤ 31 := by
  unfold monthLength
  split
  · split <;> decide
  · split <;> decide

theorem ofDays_year_range {days : Int} (hfirst : firstDay ≤ days) (hlast : days ≤ lastDay) :
    firstYear ≤ (ofDays days).year ∧ (ofDays days).year ≤ lastYear := by
  obtain ⟨era, year, day, hyear, hyear', hday, hday', hdays, hdate⟩ := ofDays_cuts days
  obtain ⟨hmonth, hmonth'⟩ := monthFromMarch_bounds hday (by omega)
  have hfirst' : firstDay = -96465292 := by decide
  have hlast' : lastDay = 95026236 := by decide
  have hmonth : monthFromMarch day = (5 * day + 2) / 153 := rfl
  have hcentury : year / 100 = 0 ∨ year / 100 = 1 ∨ year / 100 = 2 ∨ year / 100 = 3 := by omega
  -- the last day lies in era 655
  have hera : era ≤ 654 ∨ 655 ≤ era := by omega
  rw [hdate, firstYear, lastYear]
  simp only [monthNumber]
  rcases hcentury with hcentury | hcentury | hcentury | hcentury <;>
    rcases hera with hera | hera <;> split <;> split <;> omega

/-- **The date of a day is one of the program's dates**, if those reach the day. -/
theorem isValid_ofDays {days : Int} (hfirst : firstDay ≤ days) (hlast : days ≤ lastDay) :
    (ofDays days).isValid = true := by
  obtain ⟨hyear, hyear'⟩ := ofDays_year_range hfirst hlast
  obtain ⟨hmonth, hmonth', hday, hday'⟩ := ofDays_month_day days
  simp [isValid, *]

end CivilDate
end Foreman
