/-!
Days of the Gregorian calendar, extended to all years, counted from 1970-01-01. The count goes by
years that begin in March, so that the leap day is the last day of its year.
-/
namespace PhaseKeeper

structure Date where
  year : Int
  month : Nat
  day : Nat
deriving DecidableEq, Repr

namespace Date

def isLeap (year : Int) : Bool := year % 4 = 0 && (year % 100 ≠ 0 || year % 400 = 0)

def monthLength (year : Int) (month : Nat) : Nat :=
  if month = 2 then if isLeap year then 29 else 28
  else if month = 4 ∨ month = 6 ∨ month = 9 ∨ month = 11 then 30
  else 31

def firstYear : Int := -262143
def lastYear : Int := 262142

def isValid (d : Date) : Bool :=
  firstYear ≤ d.year && d.year ≤ lastYear && 1 ≤ d.month && d.month ≤ 12 &&
    1 ≤ d.day && d.day ≤ monthLength d.year d.month

/-- Days before the month `m` of a year that begins in March, which is month 0. -/
def daysBefore (m : Nat) : Nat := (153 * m + 2) / 5

def toDays (d : Date) : Int :=
  let year := if d.month ≤ 2 then d.year - 1 else d.year
  let month := (d.month + 9) % 12
  year * 365 + year / 4 - year / 100 + year / 400 + daysBefore month + d.day - 1 - 719468

def ofDays (days : Int) : Date :=
  let z := days + 719468
  let era := z / 146097
  let doe := (z % 146097).toNat
  let yoe := (doe - doe / 1460 + doe / 36524 - doe / 146096) / 365
  let doy := doe - (365 * yoe + yoe / 4 - yoe / 100)
  let m := (5 * doy + 2) / 153
  let month := if m < 10 then m + 3 else m - 9
  let year := era * 400 + yoe
  ⟨if month ≤ 2 then year + 1 else year, month, doy - daysBefore m + 1⟩

end Date
end PhaseKeeper
