import Mathlib

/-!
# The proleptic Gregorian calendar

A date of the calendar is valid by construction, and `Date.next` is the date of the following day.
Counting days is reduced to years that begin in March, so that a leap day is the last day of its
year.

* `Date.dayNumber_next`: the following day has the following number.
* `Date.dayNumber_iterate`: the number of a date counts the days since another.
* `Date.dayOfYear_le`, `daysBeforeMarch_era`: where a date is in its year and in its era of 400
  years.
-/

namespace Zetta.Gregorian

def IsLeap (year : ℤ) : Prop := 4 ∣ year ∧ (100 ∣ year → 400 ∣ year)

instance (year : ℤ) : Decidable (IsLeap year) := inferInstanceAs (Decidable (_ ∧ (_ → _)))

def monthLength (year month : ℤ) : ℤ :=
  if month = 2 then if IsLeap year then 29 else 28
  else if month = 4 ∨ month = 6 ∨ month = 9 ∨ month = 11 then 30
  else 31

theorem monthLength_pos (year month : ℤ) : 1 ≤ monthLength year month := by
  rw [monthLength]
  split_ifs <;> decide

/-- A date of the calendar. -/
@[ext]
structure Date where
  year : ℤ
  month : ℤ
  day : ℤ
  one_le_month : 1 ≤ month
  month_le : month ≤ 12
  one_le_day : 1 ≤ day
  day_le : day ≤ monthLength year month

namespace Date

/-- The first day of a year. -/
def newYear (year : ℤ) : Date := ⟨year, 1, 1, le_rfl, by decide, le_rfl, monthLength_pos _ _⟩

/-- The following day. -/
def next (d : Date) : Date :=
  if h : d.day < monthLength d.year d.month then
    ⟨d.year, d.month, d.day + 1, d.one_le_month, d.month_le, by linarith [d.one_le_day], h⟩
  else if h : d.month < 12 then
    ⟨d.year, d.month + 1, 1, by linarith [d.one_le_month], h, le_rfl, monthLength_pos _ _⟩
  else newYear (d.year + 1)

/-- The year that a date is in where years begin in March. -/
def marchYear (d : Date) : ℤ := if d.month ≤ 2 then d.year - 1 else d.year

/-- The months since March. -/
def marchMonth (d : Date) : ℤ := if d.month ≤ 2 then d.month + 9 else d.month - 3

end Date

/-- The days before the March of a year, from the one of the year 0. -/
def daysBeforeMarch (year : ℤ) : ℤ := 365 * year + year / 4 - year / 100 + year / 400

/-- The days from the 1st of March to the beginning of a month. -/
def daysSinceMarch (month : ℤ) : ℤ := (153 * month + 2) / 5

namespace Date

/-- The days since the 1st of March. -/
def dayOfYear (d : Date) : ℤ := daysSinceMarch d.marchMonth + d.day - 1

/-- The days since the 1st of March of the year 0. -/
def dayNumber (d : Date) : ℤ := daysBeforeMarch d.marchYear + d.dayOfYear

end Date

/-- The February that ends a year decides how long it is. -/
theorem daysBeforeMarch_succ (year : ℤ) : daysBeforeMarch (year + 1) =
    daysBeforeMarch year + 365 + if IsLeap (year + 1) then 1 else 0 := by
  simp only [daysBeforeMarch, IsLeap]
  split_ifs <;> omega

namespace Date

/-- A year begins 306 days after the March before it. -/
theorem dayNumber_newYear (year : ℤ) :
    (newYear year).dayNumber = daysBeforeMarch (year - 1) + 306 := rfl

variable (d : Date)

/-- A month is as long as the next one begins later. -/
theorem daysSinceMarch_succ (h : d.month ≠ 2) :
    daysSinceMarch (d.marchMonth + 1) =
      daysSinceMarch d.marchMonth + monthLength d.year d.month := by
  have hpos := d.one_le_month
  have hle := d.month_le
  rw [daysSinceMarch, daysSinceMarch, marchMonth, monthLength, if_neg h]
  generalize d.month = month at *
  interval_cases month
  all_goals first | exact absurd rfl h | rfl

/-- February ends the year that began in March. -/
theorem dayNumber_february (h : d.month = 2) :
    d.dayNumber - d.day + monthLength d.year d.month = daysBeforeMarch d.year - 1 := by
  have hyear := daysBeforeMarch_succ (d.year - 1)
  rw [sub_add_cancel] at hyear
  have hmarch : d.marchYear = d.year - 1 := if_pos (by omega)
  have hmonth : d.marchMonth = 11 := by rw [marchMonth, h]; rfl
  have hstart : daysSinceMarch 11 = 337 := by decide
  have hlength : monthLength d.year d.month = if IsLeap d.year then 29 else 28 := if_pos h
  rw [dayNumber, dayOfYear, hmarch, hmonth, hstart, hlength, hyear]
  split_ifs <;> ring

/-- **The following day has the following number.** -/
theorem dayNumber_next : d.next.dayNumber = d.dayNumber + 1 := by
  have hpos := d.one_le_month
  have hle := d.month_le
  rw [next]
  split_ifs with hday hmonth
  · simp only [dayNumber, dayOfYear, marchYear, marchMonth]
    ring
  · -- The last day of a month that is not the last of its year.
    have hlast : d.day = monthLength d.year d.month := le_antisymm d.day_le (not_lt.mp hday)
    by_cases hfebruary : d.month = 2
    · have hend := dayNumber_february d hfebruary
      rw [← hlast] at hend
      have hstart : daysSinceMarch 0 = 0 := by decide
      have hmarch : dayNumber ⟨d.year, d.month + 1, 1, by omega, hmonth, le_rfl, monthLength_pos _ _⟩ =
          daysBeforeMarch d.year := by
        simp only [dayNumber, dayOfYear, marchYear, marchMonth, hfebruary]
        norm_num [hstart]
      rw [hmarch]
      linarith
    · have hmonths := daysSinceMarch_succ d hfebruary
      simp only [dayNumber, dayOfYear, marchYear, marchMonth] at hmonths ⊢
      split_ifs at hmonths ⊢ with h₁ h₂
      all_goals first | omega | skip
      · rw [add_right_comm d.month 1 9, hmonths]
        linarith
      · rw [show d.month + 1 - 3 = d.month - 3 + 1 by ring, hmonths]
        linarith
  · -- The last day of a year.
    have hlast : d.day = monthLength d.year d.month := le_antisymm d.day_le (not_lt.mp hday)
    have hdecember : d.month = 12 := by omega
    have hend : d.dayNumber = daysBeforeMarch d.year + 305 := by
      rw [dayNumber, dayOfYear, marchYear, marchMonth, hlast, hdecember]
      rfl
    rw [dayNumber_newYear, add_sub_cancel_right, hend]
    ring

/-- **Days are counted.** -/
theorem dayNumber_iterate (days : ℕ) : (next^[days] d).dayNumber = d.dayNumber + days := by
  induction days with
  | zero => simp
  | succ days ih =>
    rw [Function.iterate_succ_apply', dayNumber_next, ih]
    push_cast
    ring

/-! ### Where a date is in its year -/

theorem marchMonth_mem : 0 ≤ d.marchMonth ∧ d.marchMonth ≤ 11 := by
  have hpos := d.one_le_month
  have hle := d.month_le
  rw [marchMonth]
  split_ifs <;> omega

theorem dayOfYear_nonneg : 0 ≤ d.dayOfYear := by
  obtain ⟨hpos, -⟩ := d.marchMonth_mem
  have hday := d.one_le_day
  rw [dayOfYear, daysSinceMarch]
  omega

/-- A day before the beginning of the next month, unless that is in the following year. -/
theorem dayOfYear_lt (h : d.month ≠ 2) : d.dayOfYear < daysSinceMarch (d.marchMonth + 1) := by
  rw [dayOfYear, daysSinceMarch_succ d h]
  linarith [d.day_le]

/-- The 366th day of a year that begins in March is a leap day. -/
theorem dayOfYear_le : d.dayOfYear ≤ 365 ∧ (d.dayOfYear = 365 → IsLeap (d.marchYear + 1)) := by
  by_cases hfebruary : d.month = 2
  · have hmarch : d.marchYear + 1 = d.year := by
      rw [marchYear, if_pos (by omega), sub_add_cancel]
    have hmonth : d.marchMonth = 11 := by rw [marchMonth, hfebruary]; rfl
    have hstart : daysSinceMarch 11 = 337 := by decide
    have hlength : monthLength d.year d.month = if IsLeap d.year then 29 else 28 := if_pos hfebruary
    have hday := d.day_le
    rw [hlength] at hday
    rw [hmarch, dayOfYear, hmonth, hstart]
    split_ifs at hday with hleap
    · exact ⟨by linarith, fun _ => hleap⟩
    · exact ⟨by linarith, fun h => by omega⟩
  · have hlt := d.dayOfYear_lt hfebruary
    have hmonth : d.marchMonth ≤ 10 := by
      have hpos := d.one_le_month
      have hle := d.month_le
      rw [marchMonth]
      split_ifs <;> omega
    have hend : daysSinceMarch (d.marchMonth + 1) ≤ 337 := by
      rw [daysSinceMarch]
      omega
    exact ⟨by linarith, fun h => by linarith⟩

end Date

/-- The days before a year are those of whole eras, and those of its era. -/
theorem daysBeforeMarch_era (year : ℤ) : daysBeforeMarch year =
    146097 * (year / 400) +
      (365 * (year % 400) + year % 400 / 4 - year % 400 / 100) := by
  rw [daysBeforeMarch]
  omega

end Zetta.Gregorian
