import PhaseKeeper.Text.Character
import PhaseKeeper.Time.Instant
/-!
Reading an instant. More is accepted than is written: a space or `t` between date and time, numbers
without leading zeros, blanks between the parts, and any offset, which is taken off the time.
-/
namespace PhaseKeeper.Instant

inductive ReadError where
  | tooShort
  | invalid
  | outOfRange
  | trailing
  | impossible
deriving DecidableEq, Repr

def ReadError.message : ReadError → String
  | .tooShort => "premature end of input"
  | .invalid => "input contains invalid characters"
  | .outOfRange => "input is out of range"
  | .trailing => "trailing input"
  | .impossible => "no possible date and time matching input"

def number (width : Option Nat) (s : List Char) : Except ReadError (Nat × List Char) :=
  match s with
  | [] => .error .tooShort
  | c :: _ =>
    if !c.isDigit then .error .invalid
    else
      let ds := (match width with | some w => s.take w | none => s).takeWhile Char.isDigit
      let n := Nat.ofDigitChars 10 ds 0
      if n < 0x8000000000000000 then .ok (n, s.drop ds.length) else .error .outOfRange

def within (low high : Nat) (n : Nat) : Except ReadError Unit :=
  if low ≤ n ∧ n ≤ high then .ok () else .error .outOfRange

def smallNumber (low high : Nat) (s : List Char) : Except ReadError (Nat × List Char) := do
  let (n, s) ← number (some 2) (Text.skipBlank s)
  within low high n
  return (n, s)

def yearNumber (s : List Char) : Except ReadError (Int × List Char) := do
  let (year, s) ← match Text.skipBlank s with
    | '-' :: r => (fun (n, s) => (-(n : Int), s)) <$> number none r
    | '+' :: r => (fun (n, s) => ((n : Int), s)) <$> number none r
    | r => (fun (n, s) => ((n : Int), s)) <$> number (some 4) r
  if -0x80000000 ≤ year ∧ year < 0x80000000 then return (year, s) else throw .outOfRange

def mark (c : Char) (s : List Char) : Except ReadError (List Char) :=
  match Text.skipBlank s with
  | [] => .error .tooShort
  | d :: r => if d = c then .ok r else .error .invalid

def date? (s : List Char) : Except ReadError (Date × List Char) := do
  let (year, s) ← yearNumber s
  let s ← mark '-' s
  let (month, s) ← smallNumber 1 12 s
  let s ← mark '-' s
  let (day, s) ← smallNumber 1 31 s
  return (⟨year, month, day⟩, s)

/-- The fraction of a second in nanoseconds; digits after the ninth are dropped. -/
def fraction (s : List Char) : Except ReadError (Nat × List Char) :=
  match s with
  | '.' :: r => do
    let (n, rest) ← number (some 9) r
    return (n * Nat.pow 10 (9 - (r.length - rest.length)), rest.dropWhile Char.isDigit)
  | _ => return (0, s)

/-- Seconds since midnight and nanoseconds; a second 60 is the leap second after the 59th. -/
def clock? (s : List Char) : Except ReadError ((Nat × Nat) × List Char) := do
  let (hour, s) ← smallNumber 0 23 s
  let s ← mark ':' s
  let (minute, s) ← smallNumber 0 59 s
  let s ← mark ':' s
  let (second, s) ← smallNumber 0 60 s
  let (nanos, s) ← fraction s
  let leap := if second = 60 then 1 else 0
  return ((hour * 3600 + minute * 60 + second - leap, nanos + leap * nanosPerSecond), s)

def twoDigits (s : List Char) : Except ReadError ((Char × Char) × List Char) :=
  match s with
  | [] => .error .tooShort
  | [c] => if c.utf8Size = 1 then .error .tooShort else .error .invalid
  | a :: b :: r => if a.isDigit && b.isDigit then .ok ((a, b), r) else .error .invalid

def offsetClock (s : List Char) : Except ReadError (Nat × List Char) := do
  let ((a, b), s) ← twoDigits s
  let ((c, d), s) ← twoDigits (s.dropWhile fun c => c = ':' || Text.isBlank c)
  if c.toNat ≤ '5'.toNat then
    return (Nat.ofDigitChars 10 [a, b] 0 * 3600 + Nat.ofDigitChars 10 [c, d] 0 * 60, s)
  else throw .outOfRange

def offset? (s : List Char) : Except ReadError (Int × List Char) :=
  match s with
  | [] => .error .tooShort
  | a :: r =>
    if (s.take 3).map Char.toUpper = ['U', 'T', 'C'] then .ok (0, s.drop 3)
    else if a = 'Z' ∨ a = 'z' then .ok (0, r)
    else if a = '+' then (fun (n, s) => ((n : Int), s)) <$> offsetClock r
    else if a = '-' ∨ a = '−' then (fun (n, s) => (-(n : Int), s)) <$> offsetClock r
    else .error .invalid

def ofLocal (date : Date) (clock nanos : Nat) (offset : Int) : Except ReadError Instant :=
  if !date.isValid || 86400 ≤ offset.natAbs then .error .outOfRange
  else
    let t : Instant := ⟨date.toDays * 86400 + clock - offset, nanos⟩
    if Date.firstYear ≤ t.date.year ∧ t.date.year ≤ Date.lastYear then .ok t
    else .error .impossible

def read (s : List Char) : Except ReadError Instant := do
  let (date, s) ← date? s
  let s ← match s with
    | [] => .error .tooShort
    | c :: r => if c = 'T' ∨ c = 't' ∨ c = ' ' then .ok r else .error .invalid
  let ((clock, nanos), s) ← clock? s
  let (offset, s) ← offset? (Text.skipBlank s)
  if !(Text.skipBlank s).isEmpty then throw .trailing
  ofLocal date clock nanos offset

def ofText (s : String) : Except ReadError Instant := read s.toList

end PhaseKeeper.Instant
