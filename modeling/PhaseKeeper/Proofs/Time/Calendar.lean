import Mathlib.Tactic.Common
import Mathlib.Tactic.IntervalCases
import PhaseKeeper.Time.Date
/-!
Every number of days is that of a day in the calendar. An era is 400 years that begin in March, and
each place in it is a year of the era, a month of that year and a day of that month.
-/
namespace PhaseKeeper.Date

def daysBeforeYear (y : Nat) : Nat := 365 * y + y / 4 - y / 100

def yearOfEra (doe : Nat) : Nat := (doe - doe / 1460 + doe / 36524 - doe / 146096) / 365

def monthOfYear (doy : Nat) : Nat := (5 * doy + 2) / 153

/-- The days that `yearOfEra` assigns to a year are those between its beginning and the next. Within
a century every fourth year is longer, so the proof goes by centuries. -/
theorem yearOfEra_spec {doe : Nat} (h : doe < 146097) :
    yearOfEra doe < 400 ∧ daysBeforeYear (yearOfEra doe) ≤ doe ∧
      (yearOfEra doe < 399 → doe < daysBeforeYear (yearOfEra doe + 1)) := by
  simp only [yearOfEra, daysBeforeYear]
  by_cases hlast : doe = 146096
  · subst hlast
    decide
  have hera : doe / 146096 = 0 := by omega
  have hk : doe / 36524 < 4 := by omega
  rw [hera]
  generalize hcentury : doe / 36524 = k at hk
  have hy : (doe - doe / 1460 + k - 0) / 365 / 100 = k := by
    interval_cases k <;> omega
  generalize hyear : (doe - doe / 1460 + k - 0) / 365 = y at hy
  refine ⟨by omega, ?_, fun hlt => ?_⟩
  · interval_cases k <;> omega
  · obtain hsame | hnext : (y + 1) / 100 = k ∨ (y + 1) / 100 = k + 1 := by omega
    · have hfour : doe / 1460 ≤ (y + 1) / 4 := by
        by_contra hlt
        have : 1460 * ((y + 1) / 4 + 1) ≤ doe := by omega
        omega
      omega
    · omega

theorem dayOfYear_lt {doe : Nat} (h : doe < 146097) :
    doe - daysBeforeYear (yearOfEra doe) < 366 := by
  obtain ⟨hy, hlow, hhigh⟩ := yearOfEra_spec h
  simp only [daysBeforeYear] at *
  omega

theorem monthOfYear_spec {doy : Nat} (h : doy < 366) :
    monthOfYear doy < 12 ∧ daysBefore (monthOfYear doy) ≤ doy ∧
      doy < daysBefore (monthOfYear doy + 1) := by
  simp only [monthOfYear, daysBefore]
  omega

theorem isLeap_iff {year : Int} : isLeap year = true ↔
    year % 4 = 0 ∧ (year % 100 ≠ 0 ∨ year % 400 = 0) := by
  simp [isLeap]

theorem isLeap_of_last {doe : Nat} (h : doe < 146097)
    (hday : doe - daysBeforeYear (yearOfEra doe) = 365) (era : Int) :
    isLeap (era * 400 + yearOfEra doe + 1) = true := by
  obtain ⟨hy, hlow, hhigh⟩ := yearOfEra_spec h
  simp only [daysBeforeYear] at *
  generalize yearOfEra doe = y at *
  rw [isLeap_iff]
  obtain rfl | hlt : y = 399 ∨ y < 399 := by omega
  · omega
  · have hnext := hhigh hlt
    have hcentury : y / 100 ≤ (y + 1) / 100 := by omega
    have hlonger : y / 4 < (y + 1) / 4 := by omega
    have hfour : (y + 1) % 4 = 0 := by omega
    have hcent : (y + 1) % 100 ≠ 0 := by omega
    omega

def calendarMonth (m : Nat) : Nat := if m < 10 then m + 3 else m - 9

def ofPlace (era : Int) (y doy : Nat) : Date :=
  let month := calendarMonth (monthOfYear doy)
  ⟨if month ≤ 2 then era * 400 + y + 1 else era * 400 + y, month,
    doy - daysBefore (monthOfYear doy) + 1⟩

theorem ofDays_place (n : Int) : ∃ (era : Int) (y doy : Nat), y < 400 ∧ doy < 366 ∧
    n + 719468 = era * 146097 + daysBeforeYear y + doy ∧
    (doy = 365 → isLeap (era * 400 + y + 1) = true) ∧ ofDays n = ofPlace era y doy := by
  have hdoe : ((n + 719468) % 146097).toNat < 146097 := by omega
  have hlow := (yearOfEra_spec hdoe).2.1
  refine ⟨(n + 719468) / 146097, yearOfEra ((n + 719468) % 146097).toNat, _,
    (yearOfEra_spec hdoe).1, dayOfYear_lt hdoe, ?_, fun hlast => isLeap_of_last hdoe hlast _, rfl⟩
  omega

theorem toDays_ofDays (n : Int) : (ofDays n).toDays = n := by
  obtain ⟨era, y, doy, hy, hdoy, hn, -, heq⟩ := ofDays_place n
  obtain ⟨hm, hlow, -⟩ := monthOfYear_spec hdoy
  have hmonth : (calendarMonth (monthOfYear doy) + 9) % 12 = monthOfYear doy := by
    simp only [calendarMonth]
    split_ifs <;> omega
  rw [heq]
  simp only [toDays, ofPlace, hmonth]
  simp only [daysBeforeYear] at hn
  omega

theorem monthLength_le (year : Int) (month : Nat) : monthLength year month ≤ 31 := by
  simp only [monthLength]
  split_ifs <;> omega

theorem monthLength_calendarMonth (year : Int) {m : Nat} (h : m < 11) :
    monthLength year (calendarMonth m) = daysBefore (m + 1) - daysBefore m := by
  interval_cases m <;> simp [monthLength, calendarMonth, daysBefore]

theorem isValid_iff {d : Date} : d.isValid = true ↔ (firstYear ≤ d.year ∧ d.year ≤ lastYear) ∧
    (1 ≤ d.month ∧ d.month ≤ 12) ∧ 1 ≤ d.day ∧ d.day ≤ monthLength d.year d.month := by
  simp [isValid, and_assoc]

theorem isValid_ofDays {n : Int} (hfirst : firstYear ≤ (ofDays n).year)
    (hlast : (ofDays n).year ≤ lastYear) : (ofDays n).isValid = true := by
  obtain ⟨era, y, doy, hy, hdoy, hn, hleap, heq⟩ := ofDays_place n
  obtain ⟨hm, hlow, hhigh⟩ := monthOfYear_spec hdoy
  have hmonth : 1 ≤ (ofDays n).month ∧ (ofDays n).month ≤ 12 := by
    rw [heq]
    simp only [ofPlace, calendarMonth]
    split_ifs <;> omega
  have hday : (ofDays n).day ≤ monthLength (ofDays n).year (ofDays n).month := by
    rw [heq]
    simp only [ofPlace]
    obtain hm' | hm' : monthOfYear doy < 11 ∨ monthOfYear doy = 11 := by omega
    · rw [monthLength_calendarMonth _ hm']
      omega
    · -- February: day 365 of the year is its 29th, and there is one only in a leap year.
      rw [hm'] at hlow ⊢
      simp only [calendarMonth, monthLength, daysBefore] at hlow ⊢
      by_cases hl : doy = 365
      · simp [hl, hleap hl]
      · simp only [Nat.reduceLT, Nat.reduceSub]
        split_ifs <;> omega
  have hpos : 1 ≤ (ofDays n).day := by
    rw [heq]
    exact Nat.le_add_left 1 _
  exact isValid_iff.2 ⟨⟨hfirst, hlast⟩, hmonth, hpos, hday⟩

end PhaseKeeper.Date
