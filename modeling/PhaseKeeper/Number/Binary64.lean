/-!
Double-precision numbers as their 64 bits: what a finite one stands for, the exact widening of single
precision, and the text of the fewest decimal digits that read back to the number. All reals of an
interval round to that number; on ever finer decimal grids the two neighbours of the number are tested,
and the first grid with a neighbour in the interval gives the digits.
-/
namespace PhaseKeeper.Binary64

def negative (bits : UInt64) : Bool := Nat.pow 2 63 ≤ bits.toNat
def exponentField (bits : UInt64) : Nat := bits.toNat / Nat.pow 2 52 % 2048
def fraction (bits : UInt64) : Nat := bits.toNat % Nat.pow 2 52

def isFinite (bits : UInt64) : Bool := exponentField bits ≠ 2047

def isNaN (bits : UInt64) : Bool := exponentField bits = 2047 && fraction bits ≠ 0

/-- A positive magnitude `mantissa * 2 ^ exponent`. Below a power of two the neighbours lie half as
far apart as above it; `narrowBelow` marks such a number. -/
structure Magnitude where
  mantissa : Nat
  exponent : Int
  narrowBelow : Bool
deriving DecidableEq, Repr

def magnitude (bits : UInt64) : Magnitude :=
  let e := exponentField bits
  let f := fraction bits
  if e = 0 then ⟨f, -1074, false⟩ else ⟨Nat.pow 2 52 + f, (e : Int) - 1075, f = 0 && 1 < e⟩

/-- The same number in double precision, for the bits of one in single precision. -/
def ofBinary32 (bits : UInt32) : UInt64 :=
  let n := bits.toNat
  let sign := n / Nat.pow 2 31 * Nat.pow 2 63
  let e := n / Nat.pow 2 23 % 256
  let f := n % Nat.pow 2 23
  if e = 255 then .ofNat (sign + 2047 * Nat.pow 2 52 + f * Nat.pow 2 29)
  else if e ≠ 0 then .ofNat (sign + (e + 896) * Nat.pow 2 52 + f * Nat.pow 2 29)
  else if f = 0 then .ofNat sign
  else
    let k := f.log2
    .ofNat (sign + (k + 874) * Nat.pow 2 52 + (f - Nat.pow 2 k) * Nat.pow 2 (52 - k))

structure Decimal where
  digits : Nat
  exponent : Int
deriving DecidableEq, Repr

def compareScaled (a : Nat) (i : Int) (n : Nat) (j : Int) : Ordering :=
  compare (a * Nat.pow 10 i.toNat * Nat.pow 2 (-j).toNat)
    (n * Nat.pow 2 j.toNat * Nat.pow 10 (-i).toNat)

/-- Whether `d` lies among the reals that round to `x`: between the halfway points to its two
neighbours, which themselves round to an even mantissa. -/
def Magnitude.readsBack (x : Magnitude) (d : Decimal) : Bool :=
  let low := compareScaled d.digits d.exponent
    (4 * x.mantissa - if x.narrowBelow then 1 else 2) (x.exponent - 2)
  let high := compareScaled d.digits d.exponent (4 * x.mantissa + 2) (x.exponent - 2)
  let even := x.mantissa % 2 = 0
  (low = .gt || (even && low = .eq)) && (high = .lt || (even && high = .eq))

/-- The least `k` with `x < 10 ^ k`: the logarithm to base two gives it up to two steps. -/
def Magnitude.scale (x : Magnitude) : Int :=
  let guess := Int.fdiv ((x.mantissa.log2 + x.exponent) * 30103) 100000
  ([guess, guess + 1, guess + 2].find? fun k =>
    compareScaled 1 k x.mantissa x.exponent = .gt).getD (guess + 3)

/-- The multiple of `10 ^ i` at or below `x`, counted in units of `10 ^ i`. -/
def Magnitude.floorAt (x : Magnitude) (i : Int) : Nat :=
  (x.mantissa * Nat.pow 2 x.exponent.toNat * Nat.pow 10 (-i).toNat) /
    (Nat.pow 2 (-x.exponent).toNat * Nat.pow 10 i.toNat)

inductive Tie where
  | toEven
  | up
deriving DecidableEq, Repr

def Magnitude.onGrid (x : Magnitude) (tie : Tie) (i : Int) : Option Decimal :=
  let below : Decimal := ⟨x.floorAt i, i⟩
  let above : Decimal := ⟨below.digits + 1, i⟩
  match x.readsBack below, x.readsBack above with
  | false, false => none
  | true, false => some below
  | false, true => some above
  | true, true =>
    match compareScaled (2 * below.digits + 1) i (2 * x.mantissa) x.exponent with
    | .gt => some below
    | .lt => some above
    | .eq => if tie = .toEven && below.digits % 2 = 0 then some below else some above

def Decimal.trim : Nat → Decimal → Decimal
  | 0, d => d
  | fuel + 1, d =>
    if d.digits ≠ 0 ∧ d.digits % 10 = 0 then trim fuel ⟨d.digits / 10, d.exponent + 1⟩ else d

/-- The shortest decimal that reads back to `x`, which is not zero; seventeen digits suffice. -/
def Magnitude.shortest (x : Magnitude) (tie : Tie) : Decimal :=
  let k := x.scale
  (((List.range 17).findSome? fun (n : Nat) => x.onGrid tie (k - 1 - n)).getD
    ⟨x.floorAt (k - 17), k - 17⟩).trim 20

/-- The decisions of a style: for which exponents of the leading digit it writes all places, and
which of two equally near decimals it takes. -/
structure Style where
  positional : Int → Bool
  tie : Tie

/-- All places between 10^-5 and 10^16, otherwise one digit before the point and an exponent. -/
def Style.compact : Style := ⟨fun e => -5 ≤ e && e ≤ 15, .toEven⟩

/-- All places always. -/
def Style.expanded : Style := ⟨fun _ => true, .up⟩

def zeros (n : Nat) : List Char := List.replicate n '0'

def positionalText (ds : List Char) (e : Int) : List Char :=
  if e < 0 then ['0', '.'] ++ zeros (-e - 1).toNat ++ ds
  else if ds.length ≤ e.toNat + 1 then ds ++ zeros (e.toNat + 1 - ds.length) ++ ['.', '0']
  else ds.take (e.toNat + 1) ++ ['.'] ++ ds.drop (e.toNat + 1)

def exponentText (ds : List Char) (e : Int) : List Char :=
  ds.take 1 ++ (if ds.length ≤ 1 then [] else '.' :: ds.drop 1) ++
    ['e', if e < 0 then '-' else '+'] ++ Nat.toDigits 10 e.natAbs

def Style.decimalText (style : Style) (d : Decimal) : List Char :=
  let ds := Nat.toDigits 10 d.digits
  let e := d.exponent + ds.length - 1
  if style.positional e then positionalText ds e else exponentText ds e

def Style.text (style : Style) (bits : UInt64) : String :=
  if isNaN bits then "NaN" else
  let sign := if negative bits then "-" else ""
  if !isFinite bits then sign ++ "inf"
  else
    let x := magnitude bits
    sign ++ if x.mantissa = 0 then "0.0" else String.ofList (style.decimalText (x.shortest style.tie))

end PhaseKeeper.Binary64
