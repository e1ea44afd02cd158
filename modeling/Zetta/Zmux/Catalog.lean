import Zetta.Lib.Decimal
import Zetta.Lib.Gregorian

/-!
# When a session was last updated

The catalog prints the time of a record in UTC. The date is computed in 64-bit arithmetic from the
days since 1970, era by era, with years that begin in March.

* `civil_dayNumber`: the date of a day, and that nothing overflows.
* `displayTimestamp_eq`: what is printed for a time.
-/

namespace Zetta.Zmux.Catalog

open Gregorian

/-- A result in the range of `i64`. -/
def i64 (n : ℤ) : Option ℤ :=
  if -9223372036854775808 ≤ n ∧ n ≤ 9223372036854775807 then some n else none

def add (a b : ℤ) : Option ℤ := i64 (a + b)
def sub (a b : ℤ) : Option ℤ := i64 (a - b)
def mul (a b : ℤ) : Option ℤ := i64 (a * b)

/-- The year, the month and the day of a day since 1970-01-01. Divisions truncate. -/
def civil (days : ℤ) : Option (ℤ × ℤ × ℤ) := do
  let z ← add days 719468
  let era ←
    if 0 ≤ z then some (z.tdiv 146097)
    else (sub z 146096).map fun n => n.tdiv 146097
  let dayOfEra ← sub z (← mul era 146097)
  let n ← sub dayOfEra (dayOfEra.tdiv 1460)
  let n ← add n (dayOfEra.tdiv 36524)
  let n ← sub n (dayOfEra.tdiv 146096)
  let yearOfEra := n.tdiv 365
  let year ← add yearOfEra (← mul era 400)
  let n ← add (← mul 365 yearOfEra) (yearOfEra.tdiv 4)
  let dayOfYear ← sub dayOfEra (← sub n (yearOfEra.tdiv 100))
  let n ← add (← mul 5 dayOfYear) 2
  let monthPart := n.tdiv 153
  let n ← add (← mul 153 monthPart) 2
  let day ← add (← sub dayOfYear (n.tdiv 5)) 1
  let month ← add monthPart (if monthPart < 10 then 3 else -9)
  let year ← add year (if month ≤ 2 then 1 else 0)
  return (year, month, day)

/-- A number of at least so many digits, which are zeros in front. -/
def padded (width n : ℕ) : List UInt8 :=
  List.replicate (width - (Decimal.decimal n).length) 0x30 ++ Decimal.decimal n

/-- A signed number, where the sign is counted with the digits. -/
def paddedInt (width : ℕ) (n : ℤ) : List UInt8 :=
  if n < 0 then 0x2d :: padded (width - 1) n.natAbs else padded width n.natAbs

/-- `year-month-day hour:minute:second UTC`. -/
def render (year month day : ℤ) (hour minute second : ℕ) : List UInt8 :=
  paddedInt 4 year ++ [0x2d] ++ paddedInt 2 month ++ [0x2d] ++ paddedInt 2 day ++ [0x20] ++
    padded 2 hour ++ [0x3a] ++ padded 2 minute ++ [0x3a] ++ padded 2 second ++
      [0x20, 0x55, 0x54, 0x43]

def displayTimestamp (timestamp : UInt64) : Option (List UInt8) := do
  let days := timestamp.toNat / 86400
  let seconds := timestamp.toNat % 86400
  let days ← i64 days
  let hour := seconds / 3600
  let minute := seconds / 60 % 60
  let second := seconds % 60
  let (year, month, day) ← civil days
  return render year month day hour minute second

example : displayTimestamp 1788380694 =
    some ("2026-09-02 20:24:54 UTC".toList.map fun c => UInt8.ofNat c.toNat) := by decide +kernel

/-! ### Divisions -/

/-- The year of an era, by its century, the fours of years in that and the years in those. The days
that have passed in the era are reduced by the leap days, and by none of a century that has none. -/
theorem yearOfEra_eq (century four year : ℤ) {day : ℤ} (hc : 0 ≤ century) (hc' : century < 4)
    (hf : 0 ≤ four) (hf' : four < 25) (hy : 0 ≤ year) (hy' : year < 4) (hday : 0 ≤ day)
    (hday' : day ≤ 365) (hleap : day = 365 → year = 3 ∧ (four = 24 → century = 3)) :
    let doe := 36524 * century + 1461 * four + 365 * year + day
    (doe - doe / 1460 + doe / 36524 - doe / 146096) / 365 = 100 * century + 4 * four + year := by
  intro doe
  have hfours : doe / 1460 = 25 * century + four +
      if 1460 ≤ 24 * century + four + 365 * year + day then 1 else 0 := by
    split_ifs <;> omega
  -- The last day of an era is a leap day beyond four centuries.
  have hcenturies : doe / 36524 = century + if doe = 146096 then 1 else 0 := by
    split_ifs <;> omega
  have hera : doe / 146096 = if doe = 146096 then 1 else 0 := by
    split_ifs <;> omega
  rw [hfours, hcenturies, hera]
  split_ifs <;> omega

/-- The days of an era before a year of it. -/
def daysBefore (yearOfEra : ℤ) : ℤ := 365 * yearOfEra + yearOfEra / 4 - yearOfEra / 100

/-- The year of an era that a day of it is in. -/
theorem yearOfEra_daysBefore {year day : ℤ} (hyear : 0 ≤ year) (hyear' : year < 400)
    (hday : 0 ≤ day) (hday' : day ≤ 365) (hleap : day = 365 → IsLeap (year + 1)) :
    let doe := daysBefore year + day
    (doe - doe / 1460 + doe / 36524 - doe / 146096) / 365 = year := by
  have hyear := yearOfEra_eq (year / 100) (year % 100 / 4) (year % 4) (by omega) (by omega)
    (by omega) (by omega) (by omega) (by omega) hday hday' fun h => ?_
  · have hdoe : 36524 * (year / 100) + 1461 * (year % 100 / 4) + 365 * (year % 4) + day =
        daysBefore year + day := by
      rw [daysBefore]
      omega
    rw [hdoe] at hyear
    intro doe
    rw [hyear]
    omega
  · obtain ⟨hfour, hcentury⟩ := hleap h
    refine ⟨by omega, fun h24 => ?_⟩
    have := hcentury (by omega)
    omega

/-- The month of a day of a year that begins in March. -/
theorem monthPart_eq (d : Date) : (5 * d.dayOfYear + 2) / 153 = d.marchMonth := by
  have hday := d.one_le_day
  by_cases hfebruary : d.month = 2
  · have hle := d.dayOfYear_le.1
    have hmonth : d.marchMonth = 11 := by rw [Date.marchMonth, hfebruary]; rfl
    have hstart : daysSinceMarch 11 = 337 := by decide
    rw [Date.dayOfYear, hmonth, hstart] at hle ⊢
    omega
  · have hlt := d.dayOfYear_lt hfebruary
    rw [Date.dayOfYear, daysSinceMarch] at hlt ⊢
    rw [daysSinceMarch] at hlt
    omega

theorem i64_of {n : ℤ} (h : -1000000000000000000 ≤ n) (h' : n ≤ 1000000000000000000) :
    i64 n = some n := if_pos ⟨by linarith, by linarith⟩

section Bounds

variable {α : Type} {a b : ℤ} {f : ℤ → Option α}

theorem add_bind (h : -1000000000000000000 ≤ a + b) (h' : a + b ≤ 1000000000000000000) :
    (add a b >>= f) = f (a + b) := by
  rw [add, i64_of h h']
  rfl

theorem sub_bind (h : -1000000000000000000 ≤ a - b) (h' : a - b ≤ 1000000000000000000) :
    (sub a b >>= f) = f (a - b) := by
  rw [sub, i64_of h h']
  rfl

theorem mul_bind (h : -1000000000000000000 ≤ a * b) (h' : a * b ≤ 1000000000000000000) :
    (mul a b >>= f) = f (a * b) := by
  rw [mul, i64_of h h']
  rfl

theorem some_bind (a : ℤ) : (some a >>= f) = f a := rfl

end Bounds

/-! ### The date of a day -/

/-- The date of a day, from the year of its era and the day of that year. -/
theorem civil_steps {days z era doe year doy month : ℤ} (hz : z = days + 719468) (hz' : 0 ≤ z)
    (hbound : z ≤ 1000000000000000) (hera : z / 146097 = era) (hdoe : z - era * 146097 = doe)
    (hdoe' : 0 ≤ doe)
    (hyear : (doe - doe / 1460 + doe / 36524 - doe / 146096) / 365 = year)
    (hdoy : doe - daysBefore year = doy) (hdoy' : 0 ≤ doy) (hdoy'' : doy ≤ 365)
    (hmonth : (5 * doy + 2) / 153 = month) :
    civil days = some
      (year + era * 400 + (if month + (if month < 10 then 3 else -9) ≤ 2 then 1 else 0),
        month + (if month < 10 then 3 else -9), doy - (153 * month + 2) / 5 + 1) := by
  have hyear' : 0 ≤ year := by omega
  have hmonth' : 0 ≤ month := by omega
  rw [civil, add_bind (by omega) (by omega), ← hz, if_pos hz', some_bind,
    Int.tdiv_eq_ediv_of_nonneg hz', hera]
  beta_reduce
  rw [mul_bind (by omega) (by omega), sub_bind (by omega) (by omega), hdoe]
  rw [Int.tdiv_eq_ediv_of_nonneg hdoe', Int.tdiv_eq_ediv_of_nonneg hdoe',
    Int.tdiv_eq_ediv_of_nonneg hdoe', sub_bind (by omega) (by omega), add_bind (by omega) (by omega),
    sub_bind (by omega) (by omega)]
  dsimp only
  rw [Int.tdiv_eq_ediv_of_nonneg (by omega), hyear, mul_bind (by omega) (by omega),
    add_bind (by omega) (by omega)]
  rw [Int.tdiv_eq_ediv_of_nonneg hyear', Int.tdiv_eq_ediv_of_nonneg hyear',
    mul_bind (by omega) (by omega), add_bind (by omega) (by omega), sub_bind (by omega) (by omega),
    sub_bind (by omega) (by omega), ← daysBefore, hdoy]
  rw [mul_bind (by omega) (by omega), add_bind (by omega) (by omega)]
  rw [Int.tdiv_eq_ediv_of_nonneg (by omega), hmonth, mul_bind (by omega) (by omega),
    add_bind (by omega) (by omega), Int.tdiv_eq_ediv_of_nonneg (by omega),
    sub_bind (by omega) (by omega), add_bind (by omega) (by omega)]
  rw [add_bind (by split_ifs <;> omega) (by split_ifs <;> omega),
    add_bind (by split_ifs <;> omega) (by split_ifs <;> omega)]
  rfl

/-- **The date of a day**, as long as days are not too many. -/
theorem civil_dayNumber (d : Date) (h : 719468 ≤ d.dayNumber)
    (h' : d.dayNumber ≤ 1000000000000000) :
    civil (d.dayNumber - 719468) = some (d.year, d.month, d.day) := by
  have hpos := d.dayOfYear_nonneg
  obtain ⟨hle, hleap⟩ := d.dayOfYear_le
  obtain ⟨hmonth, hmonth'⟩ := d.marchMonth_mem
  have hnumber : d.dayNumber =
      146097 * (d.marchYear / 400) + (daysBefore (d.marchYear % 400) + d.dayOfYear) := by
    rw [Date.dayNumber, daysBeforeMarch_era, daysBefore]
    ring
  have hleap' : d.dayOfYear = 365 → IsLeap (d.marchYear % 400 + 1) := by
    intro hday
    obtain ⟨hfour, hcentury⟩ := hleap hday
    refine ⟨by omega, fun h100 => ?_⟩
    have := hcentury (by omega)
    omega
  -- Only the last year of an era could reach its end, and it ends in a leap day then.
  have hera : 0 ≤ daysBefore (d.marchYear % 400) + d.dayOfYear ∧
      daysBefore (d.marchYear % 400) + d.dayOfYear < 146097 := by
    rw [daysBefore]
    omega
  have hyear := yearOfEra_daysBefore (by omega) (by omega) hpos hle hleap'
  have hdiv : d.dayNumber / 146097 = d.marchYear / 400 := by omega
  have hrest : d.dayNumber - d.marchYear / 400 * 146097 =
      daysBefore (d.marchYear % 400) + d.dayOfYear := by omega
  rw [civil_steps (by ring) (by omega) h' hdiv hrest hera.1 hyear (add_sub_cancel_left _ _) hpos hle
    (monthPart_eq d)]
  have hday : d.dayOfYear - (153 * d.marchMonth + 2) / 5 + 1 = d.day := by
    rw [Date.dayOfYear, daysSinceMarch]
    ring
  have hback : d.marchMonth + (if d.marchMonth < 10 then 3 else -9) = d.month := by
    have hlow := d.one_le_month
    have hhigh := d.month_le
    rw [Date.marchMonth]
    split_ifs <;> omega
  have hcivil : d.marchYear % 400 + d.marchYear / 400 * 400 + (if d.month ≤ 2 then 1 else 0) =
      d.year := by
    have hmarch : d.marchYear = if d.month ≤ 2 then d.year - 1 else d.year := rfl
    split_ifs at hmarch ⊢ <;> omega
  rw [hback, hday, hcivil]

/-! ### What is printed -/

/-- The first day that is counted. -/
def epoch : Date := Date.newYear 1970

/-- The date of so many days after the first. -/
theorem civil_iterate (days : ℕ) (h : days ≤ 900000000000000) :
    civil days = some ((Date.next^[days] epoch).year, (Date.next^[days] epoch).month,
      (Date.next^[days] epoch).day) := by
  have hepoch : epoch.dayNumber = 719468 := by decide
  have hnumber := epoch.dayNumber_iterate days
  rw [hepoch] at hnumber
  have hcivil := civil_dayNumber (Date.next^[days] epoch) (by omega) (by omega)
  rwa [hnumber, add_sub_cancel_left] at hcivil

/-- **What is printed for a time** is the date of its day, as many days after 1970-01-01 as have
passed, and the time of that day. -/
theorem displayTimestamp_eq (timestamp : UInt64) :
    ∃ (date : Date) (days hour minute second : ℕ),
      timestamp.toNat = 86400 * days + 3600 * hour + 60 * minute + second ∧
      hour < 24 ∧ minute < 60 ∧ second < 60 ∧ date = Date.next^[days] epoch ∧
      displayTimestamp timestamp =
        some (render date.year date.month date.day hour minute second) := by
  have hbound : timestamp.toNat < 18446744073709551616 := timestamp.toNat_lt
  have hdays : timestamp.toNat / 86400 ≤ 900000000000000 := by omega
  refine ⟨_, timestamp.toNat / 86400, timestamp.toNat % 86400 / 3600,
    timestamp.toNat % 86400 / 60 % 60, timestamp.toNat % 86400 % 60, by omega, by omega, by omega,
    by omega, rfl, ?_⟩
  generalize hn : timestamp.toNat = n at *
  rw [displayTimestamp, hn, i64_of (by omega) (by omega)]
  have hcivil := civil_iterate _ hdays
  generalize Date.next^[n / 86400] epoch = date at hcivil ⊢
  generalize n / 86400 = k at hcivil ⊢
  rw [Option.bind_eq_bind, Option.bind_some, hcivil]
  rfl

end Zetta.Zmux.Catalog
