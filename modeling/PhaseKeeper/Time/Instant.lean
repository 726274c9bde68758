import PhaseKeeper.Time.Date
/-!
Points in time: seconds since 1970-01-01T00:00:00Z, leap seconds not counted, and nanoseconds. A leap
second is the second nanosecond billion of the last second of its minute. A year outside 0 to 9999 is
written with a sign, and a leap second as 60.
-/
namespace PhaseKeeper

structure Instant where
  seconds : Int
  nanos : Nat
deriving DecidableEq, Repr, Inhabited

namespace Instant

def epoch : Instant := ⟨0, 0⟩

def nanosPerSecond : Nat := 1000000000

def date (t : Instant) : Date := .ofDays (t.seconds / 86400)

def clock (t : Instant) : Nat := (t.seconds % 86400).toNat

/-- Its year has a written form, and only behind the last second of a minute is there a leap second. A
moment of a clock can also have one behind any other second, and is then written as the second that
follows; such moments are left out. -/
def isValid (t : Instant) : Bool :=
  Date.firstYear ≤ t.date.year && t.date.year ≤ Date.lastYear &&
    (t.nanos < nanosPerSecond || (t.nanos < 2 * nanosPerSecond && t.seconds % 60 = 59))

def notAfter (s t : Instant) : Bool :=
  s.seconds < t.seconds || (s.seconds = t.seconds && s.nanos ≤ t.nanos)

def addSeconds (t : Instant) (n : Nat) : Instant := { t with seconds := t.seconds + n }

def year2000 : Int := 946684800

/-- Microseconds since 1970-01-01; what is left over is cut off in the direction of the year 2000. -/
def micros (t : Instant) : Int :=
  Int.tdiv ((t.seconds - year2000) * nanosPerSecond + t.nanos) 1000 + year2000 * 1000000

end Instant

def paddedDigits (width n : Nat) : List Char :=
  let ds := Nat.toDigits 10 n
  List.replicate (width - ds.length) '0' ++ ds

namespace Date

def yearText (year : Int) : List Char :=
  if 0 ≤ year ∧ year ≤ 9999 then paddedDigits 4 year.toNat
  else (if year < 0 then '-' else '+') :: paddedDigits 4 year.natAbs

def chars (d : Date) : List Char :=
  yearText d.year ++ ['-'] ++ paddedDigits 2 d.month ++ ['-'] ++ paddedDigits 2 d.day

end Date

namespace Instant

def fractionText (nanos : Nat) : List Char :=
  if nanos = 0 then []
  else if nanos % 1000000 = 0 then '.' :: paddedDigits 3 (nanos / 1000000)
  else if nanos % 1000 = 0 then '.' :: paddedDigits 6 (nanos / 1000)
  else '.' :: paddedDigits 9 nanos

def chars (t : Instant) : List Char :=
  let leap := t.nanos / nanosPerSecond
  let clock := t.clock
  t.date.chars ++ ['T'] ++ paddedDigits 2 (clock / 3600) ++ [':'] ++
    paddedDigits 2 (clock / 60 % 60) ++ [':'] ++ paddedDigits 2 (clock % 60 + leap) ++
    fractionText (t.nanos % nanosPerSecond) ++ ['Z']

def text (t : Instant) : String := String.ofList t.chars

end Instant

end PhaseKeeper
