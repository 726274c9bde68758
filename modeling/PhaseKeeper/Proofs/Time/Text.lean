import Mathlib.Data.List.TakeWhile
import Mathlib.Tactic.Common
import PhaseKeeper.Proofs.Text.Utf8
import PhaseKeeper.Proofs.Time.Calendar
import PhaseKeeper.Time.Instant
import PhaseKeeper.Time.Reading
/-!
Instants as text. Every valid instant is read back from its text, whatever its year and however many
digits its fraction has; and only valid instants are ever read.
-/
namespace PhaseKeeper

section Digits
variable {w n : Nat}

theorem isDigit_of_mem_paddedDigits {c : Char} (h : c ∈ paddedDigits w n) : c.isDigit = true := by
  rw [paddedDigits, List.mem_append] at h
  obtain h | h := h
  · rw [List.eq_of_mem_replicate h]
    decide
  · exact Nat.isDigit_of_mem_toDigits (by decide) (by decide) h

theorem paddedDigits_ne_nil : paddedDigits w n ≠ [] := by simp [paddedDigits]

theorem length_paddedDigits (hw : 0 < w) (h : n < 10 ^ w) : (paddedDigits w n).length = w := by
  have hle := (Nat.length_toDigits_le_iff (by decide) hw).2 h
  simp only [paddedDigits, List.length_append, List.length_replicate]
  omega

theorem length_paddedDigits_le {k : Nat} (hk : 0 < k) (hw : w ≤ k) (h : n < 10 ^ k) :
    (paddedDigits w n).length ≤ k := by
  have hle := (Nat.length_toDigits_le_iff (by decide) hk).2 h
  simp only [paddedDigits, List.length_append, List.length_replicate]
  omega

theorem ofDigitChars_paddedDigits : Nat.ofDigitChars 10 (paddedDigits w n) 0 = n := by
  rw [paddedDigits, Nat.ofDigitChars_append, Nat.ofDigitChars_replicate_zero, Nat.mul_zero,
    Nat.ofDigitChars_ten_toDigits]

end Digits

theorem toNat_of_isDigit {c : Char} (h : c.isDigit = true) : 48 ≤ c.toNat ∧ c.toNat ≤ 57 := by
  simpa [Char.isDigit, UInt32.le_iff_toNat_le] using h

theorem isBlank_of_isDigit {c : Char} (h : c.isDigit = true) : Text.isBlank c = false := by
  have hrange := toNat_of_isDigit h
  simp [Text.isBlank, Text.inRanges, Text.blankRanges]
  omega

theorem skipBlank_cons {c : Char} (h : Text.isBlank c = false) (r : List Char) :
    Text.skipBlank (c :: r) = c :: r := by
  simp [Text.skipBlank, h]

namespace Instant

def Stops (rest : List Char) : Prop := ∀ c ∈ rest.head?, c.isDigit = false

theorem takeWhile_digits {ds rest : List Char} (hall : ∀ c ∈ ds, c.isDigit = true)
    (hrest : Stops rest) : (ds ++ rest).takeWhile Char.isDigit = ds := by
  rw [List.takeWhile_append_of_pos hall]
  cases rest with
  | nil => simp
  | cons c r => simp [hrest c rfl]

theorem take_digits {ds rest : List Char} (hall : ∀ c ∈ ds, c.isDigit = true) {w : Nat}
    (hw : ds.length ≤ w) (hrest : Stops rest) :
    ((ds ++ rest).take w).takeWhile Char.isDigit = ds := by
  rw [List.take_append, List.take_of_length_le hw]
  refine takeWhile_digits hall fun c hc => hrest c ?_
  cases rest with
  | nil => simp at hc
  | cons d r =>
    cases hk : w - ds.length with
    | zero => simp [hk] at hc
    | succ k => simpa [hk] using hc

theorem number_digits {width : Option Nat} {ds rest : List Char}
    (hall : ∀ c ∈ ds, c.isDigit = true) (hne : ds ≠ []) (hwidth : ∀ w ∈ width, ds.length ≤ w)
    (hrest : Stops rest) (hsmall : Nat.ofDigitChars 10 ds 0 < 0x8000000000000000) :
    number width (ds ++ rest) = .ok (Nat.ofDigitChars 10 ds 0, rest) := by
  obtain ⟨d, ds', rfl⟩ := List.exists_cons_of_ne_nil hne
  have hd := hall d List.mem_cons_self
  cases width with
  | none =>
    have htaken := takeWhile_digits hall hrest
    simp only [List.cons_append] at htaken ⊢
    simp [number, hd, htaken, hsmall]
  | some w =>
    have htaken := take_digits hall (hwidth w rfl) hrest
    simp only [List.cons_append] at htaken ⊢
    simp [number, hd, htaken, hsmall]

theorem number_paddedDigits {width : Option Nat} {w n : Nat} {rest : List Char}
    (hwidth : ∀ k ∈ width, (paddedDigits w n).length ≤ k) (hn : n < 0x8000000000000000)
    (hrest : Stops rest) : number width (paddedDigits w n ++ rest) = .ok (n, rest) := by
  rw [number_digits (fun c hc => isDigit_of_mem_paddedDigits hc) paddedDigits_ne_nil hwidth hrest
    (by rwa [ofDigitChars_paddedDigits]), ofDigitChars_paddedDigits]

theorem stops_cons {c : Char} (h : c.isDigit = false) (r : List Char) : Stops (c :: r) := by
  simpa [Stops] using h

theorem paddedDigits_cons (w n : Nat) (rest : List Char) :
    ∃ d r, paddedDigits w n ++ rest = d :: r ∧ d.isDigit = true := by
  obtain ⟨d, r, h⟩ := List.exists_cons_of_ne_nil (paddedDigits_ne_nil (w := w) (n := n))
  refine ⟨d, r ++ rest, by rw [h]; rfl, isDigit_of_mem_paddedDigits (w := w) (n := n) ?_⟩
  rw [h]
  exact List.mem_cons_self

theorem skipBlank_paddedDigits (w n : Nat) (rest : List Char) :
    Text.skipBlank (paddedDigits w n ++ rest) = paddedDigits w n ++ rest := by
  obtain ⟨d, r, h, hd⟩ := paddedDigits_cons w n rest
  rw [h, skipBlank_cons (isBlank_of_isDigit hd)]

theorem mark_cons {c : Char} (h : Text.isBlank c = false) (r : List Char) :
    mark c (c :: r) = .ok r := by
  simp [mark, skipBlank_cons h]

theorem smallNumber_paddedDigits {low high n : Nat} {rest : List Char} (hlow : low ≤ n)
    (hhigh : n ≤ high) (h : high < 100) (hrest : Stops rest) :
    smallNumber low high (paddedDigits 2 n ++ rest) = .ok (n, rest) := by
  have hlen : (paddedDigits 2 n).length = 2 := length_paddedDigits (by decide) (by omega)
  have hnumber : number (some 2) (paddedDigits 2 n ++ rest) = .ok (n, rest) :=
    number_paddedDigits (by simp [hlen]) (by omega) hrest
  simp only [smallNumber, skipBlank_paddedDigits, hnumber, Bind.bind, Except.bind, within,
    if_pos (And.intro hlow hhigh)]
  rfl

theorem yearNumber_yearText {year : Int} {rest : List Char} (hlow : -0x80000000 ≤ year)
    (hhigh : year < 0x80000000) (hrest : Stops rest) :
    yearNumber (Date.yearText year ++ rest) = .ok (year, rest) := by
  have hchecked : (if -0x80000000 ≤ year ∧ year < 0x80000000 then pure (year, rest)
      else throw .outOfRange : Except ReadError (Int × List Char)) = .ok (year, rest) :=
    if_pos ⟨hlow, hhigh⟩
  have hsigned : number none (paddedDigits 4 year.natAbs ++ rest) = .ok (year.natAbs, rest) :=
    number_paddedDigits (by simp) (by omega) hrest
  simp only [Date.yearText]
  split_ifs with h hneg
  · have hlen : (paddedDigits 4 year.toNat).length = 4 :=
      length_paddedDigits (by decide) (by omega)
    have hfour : number (some 4) (paddedDigits 4 year.toNat ++ rest) = .ok (year.toNat, rest) :=
      number_paddedDigits (by simp [hlen]) (by omega) hrest
    obtain ⟨d, r, hd, hdigit⟩ := paddedDigits_cons 4 year.toNat rest
    have hminus : d ≠ '-' := by rintro rfl; exact absurd hdigit (by decide)
    have hplus : d ≠ '+' := by rintro rfl; exact absurd hdigit (by decide)
    rw [hd] at hfour ⊢
    simp only [yearNumber, skipBlank_cons (isBlank_of_isDigit hdigit)]
    split
    · simp_all
    · simp_all
    · simp only [hfour, Functor.map, Except.map, Bind.bind, Except.bind, Int.toNat_of_nonneg h.1]
      exact hchecked
  · have hvalue : -(year.natAbs : Int) = year := by omega
    rw [List.cons_append, yearNumber, skipBlank_cons (by decide)]
    simp only [hsigned, Functor.map, Except.map, Bind.bind, Except.bind, hvalue]
    exact hchecked
  · have hvalue : (year.natAbs : Int) = year := by omega
    rw [List.cons_append, yearNumber, skipBlank_cons (by decide)]
    simp only [hsigned, Functor.map, Except.map, Bind.bind, Except.bind, hvalue]
    exact hchecked

theorem date?_chars {d : Date} (h : d.isValid = true) {rest : List Char} (hrest : Stops rest) :
    date? (d.chars ++ rest) = .ok (d, rest) := by
  obtain ⟨⟨hfirst, hlast⟩, ⟨hmonth, hmonth'⟩, hday, hday'⟩ := Date.isValid_iff.1 h
  have hlow : -262143 ≤ d.year := hfirst
  have hhigh : d.year ≤ 262142 := hlast
  have hday'' := hday'.trans (Date.monthLength_le d.year d.month)
  have hdash (r : List Char) : Stops ('-' :: r) := stops_cons (by decide) r
  simp only [Date.chars, List.append_assoc, List.cons_append, List.nil_append, date?, Bind.bind,
    Except.bind]
  rw [yearNumber_yearText (by omega) (by omega) (hdash _)]
  simp only [mark_cons (show Text.isBlank '-' = false by decide)]
  rw [smallNumber_paddedDigits hmonth hmonth' (by decide) (hdash _)]
  simp only [mark_cons (show Text.isBlank '-' = false by decide)]
  rw [smallNumber_paddedDigits hday hday'' (by decide) hrest]
  rfl

theorem fraction_paddedDigits {w n : Nat} (hw : 0 < w) (hw' : w ≤ 9) (hn : n < 10 ^ w)
    (r : List Char) : fraction ('.' :: (paddedDigits w n ++ 'Z' :: r)) =
      .ok (n * Nat.pow 10 (9 - w), 'Z' :: r) := by
  have hlen := length_paddedDigits hw hn
  have hsmall : 10 ^ w ≤ 10 ^ 9 := Nat.pow_le_pow_right (by decide) hw'
  have hnumber : number (some 9) (paddedDigits w n ++ 'Z' :: r) = .ok (n, 'Z' :: r) :=
    number_paddedDigits (by simpa [hlen] using hw') (by omega) (stops_cons (by decide) r)
  have hdigits : (paddedDigits w n ++ 'Z' :: r).length - ('Z' :: r).length = w := by
    rw [List.length_append, Nat.add_sub_cancel, hlen]
  have hrest : ('Z' :: r).dropWhile Char.isDigit = 'Z' :: r := rfl
  simp only [fraction, hnumber, Bind.bind, Except.bind, hdigits, hrest]
  rfl

theorem fraction_fractionText {n : Nat} (h : n < nanosPerSecond) (r : List Char) :
    fraction (fractionText n ++ 'Z' :: r) = .ok (n, 'Z' :: r) := by
  simp only [nanosPerSecond] at h
  simp only [fractionText]
  split_ifs with h₀ h₃ h₆
  · rw [h₀]
    rfl
  · rw [List.cons_append, fraction_paddedDigits (by decide) (by decide) (by omega)]
    have hvalue : n / 1000000 * Nat.pow 10 (9 - 3) = n :=
      Nat.div_mul_cancel (Nat.dvd_of_mod_eq_zero h₃)
    rw [hvalue]
  · rw [List.cons_append, fraction_paddedDigits (by decide) (by decide) (by omega)]
    have hvalue : n / 1000 * Nat.pow 10 (9 - 6) = n :=
      Nat.div_mul_cancel (Nat.dvd_of_mod_eq_zero h₆)
    rw [hvalue]
  · rw [List.cons_append, fraction_paddedDigits (by decide) (by decide) (by omega)]
    have hvalue : n * Nat.pow 10 (9 - 9) = n := Nat.mul_one n
    rw [hvalue]

theorem clock?_text {h m s f l : Nat} (hh : h < 24) (hm : m < 60) (hs : s < 60)
    (hf : f < nanosPerSecond) (hl : l = 0 ∨ (l = 1 ∧ s = 59)) (r : List Char) :
    clock? (paddedDigits 2 h ++ ':' :: (paddedDigits 2 m ++ ':' ::
      (paddedDigits 2 (s + l) ++ (fractionText f ++ 'Z' :: r)))) =
      .ok ((h * 3600 + m * 60 + s, f + l * nanosPerSecond), 'Z' :: r) := by
  have hcolon (r : List Char) : Stops (':' :: r) := stops_cons (by decide) r
  have hfraction : Stops (fractionText f ++ 'Z' :: r) := by
    simp only [fractionText]
    split_ifs <;> exact stops_cons (by decide) _
  simp only [clock?, Bind.bind, Except.bind]
  rw [smallNumber_paddedDigits (Nat.zero_le _) (by omega) (by decide) (hcolon _)]
  simp only [mark_cons (show Text.isBlank ':' = false by decide)]
  rw [smallNumber_paddedDigits (Nat.zero_le _) (by omega) (by decide) (hcolon _)]
  simp only [mark_cons (show Text.isBlank ':' = false by decide)]
  rw [smallNumber_paddedDigits (Nat.zero_le _) (by omega) (by decide) hfraction]
  simp only [fraction_fractionText hf]
  obtain rfl | ⟨rfl, rfl⟩ := hl
  · simp only [if_neg (show s + 0 ≠ 60 by omega)]
    rfl
  · rfl

theorem isValid_iff {t : Instant} : t.isValid = true ↔
    (Date.firstYear ≤ t.date.year ∧ t.date.year ≤ Date.lastYear) ∧
      (t.nanos < nanosPerSecond ∨ t.nanos < 2 * nanosPerSecond ∧ t.seconds % 60 = 59) := by
  simp [isValid]

theorem leap_of_isValid {t : Instant} (h : t.isValid = true) :
    t.nanos / nanosPerSecond = 0 ∨ (t.nanos / nanosPerSecond = 1 ∧ t.clock % 60 = 59) := by
  obtain ⟨-, hnanos⟩ := isValid_iff.1 h
  simp only [nanosPerSecond, clock] at *
  omega

theorem isValid_date {t : Instant} (h : t.isValid = true) : t.date.isValid = true := by
  obtain ⟨⟨hfirst, hlast⟩, -⟩ := isValid_iff.1 h
  exact Date.isValid_ofDays hfirst hlast

theorem clock_lt (t : Instant) : t.clock < 86400 := by
  rw [clock]
  omega

theorem ofLocal_date {t : Instant} (h : t.isValid = true) :
    ofLocal t.date t.clock t.nanos 0 = .ok t := by
  obtain ⟨⟨hfirst, hlast⟩, -⟩ := isValid_iff.1 h
  have hdate := isValid_date h
  have hdays : t.date.toDays = t.seconds / 86400 := Date.toDays_ofDays _
  have hseconds : t.date.toDays * 86400 + t.clock - 0 = t.seconds := by
    rw [hdays, clock]
    omega
  simp [ofLocal, hdate, hseconds, hfirst, hlast]

theorem read_chars {t : Instant} (h : t.isValid = true) : read t.chars = .ok t := by
  have hday := clock_lt t
  have hclock := clock?_text (h := t.clock / 3600) (m := t.clock / 60 % 60)
    (s := t.clock % 60) (by omega) (by omega) (by omega)
    (Nat.mod_lt t.nanos (show 0 < nanosPerSecond by decide)) (leap_of_isValid h) []
  have hseconds : t.clock / 3600 * 3600 + t.clock / 60 % 60 * 60 + t.clock % 60 = t.clock := by
    omega
  rw [hseconds, Nat.mul_comm, Nat.mod_add_div] at hclock
  simp only [chars, List.append_assoc, List.cons_append, List.nil_append, read, Bind.bind,
    Except.bind]
  rw [date?_chars (isValid_date h) (stops_cons (by decide) _)]
  simp only [hclock]
  exact ofLocal_date h

theorem ofText_text {t : Instant} (h : t.isValid = true) : ofText t.text = .ok t := by
  rw [ofText, text, String.toList_ofList, read_chars h]

theorem length_yearText_le {year : Int} (hlow : -262143 ≤ year) (hhigh : year ≤ 262142) :
    (Date.yearText year).length ≤ 7 := by
  simp only [Date.yearText]
  split_ifs
  · exact (length_paddedDigits_le (k := 4) (by decide) (by decide) (by omega)).trans (by decide)
  · exact Nat.succ_le_succ (length_paddedDigits_le (k := 6) (by decide) (by decide) (by omega))
  · exact Nat.succ_le_succ (length_paddedDigits_le (k := 6) (by decide) (by decide) (by omega))

theorem length_two_le {n : Nat} (h : n < 100) : (paddedDigits 2 n).length ≤ 2 :=
  length_paddedDigits_le (by decide) (by decide) h

theorem length_dateChars_le {d : Date} (h : d.isValid = true) : d.chars.length ≤ 13 := by
  obtain ⟨⟨hfirst, hlast⟩, ⟨-, hmonth⟩, -, hday⟩ := Date.isValid_iff.1 h
  have hy := length_yearText_le hfirst hlast
  have hm := length_two_le (show d.month < 100 by omega)
  have hd := length_two_le (show d.day < 100 by
    have := Date.monthLength_le d.year d.month
    omega)
  simp only [Date.chars, List.length_append, List.length_cons, List.length_nil]
  omega

theorem length_fractionText_le {n : Nat} (h : n < nanosPerSecond) :
    (fractionText n).length ≤ 10 := by
  simp only [nanosPerSecond] at h
  simp only [fractionText]
  split_ifs
  · exact Nat.zero_le _
  · exact Nat.succ_le_succ (length_paddedDigits_le (k := 9) (by decide) (by decide) (by omega))
  · exact Nat.succ_le_succ (length_paddedDigits_le (k := 9) (by decide) (by decide) (by omega))
  · exact Nat.succ_le_succ (length_paddedDigits_le (k := 9) (by decide) (by decide) (by omega))

theorem length_chars_le {t : Instant} (h : t.isValid = true) : t.chars.length ≤ 33 := by
  have hday := clock_lt t
  have hdate := length_dateChars_le (isValid_date h)
  have hhour := length_two_le (show t.clock / 3600 < 100 by omega)
  have hminute := length_two_le (show t.clock / 60 % 60 < 100 by omega)
  have hsecond := length_two_le (show t.clock % 60 + t.nanos / nanosPerSecond < 100 by
    have := leap_of_isValid h
    omega)
  have hfraction := length_fractionText_le
    (Nat.mod_lt t.nanos (show 0 < nanosPerSecond by decide))
  simp only [chars, List.length_append, List.length_cons, List.length_nil]
  omega

theorem length_text_lt {t : Instant} (h : t.isValid = true) :
    (bytesOf t.text).length < UInt32.size := by
  have hbytes := Text.Utf8.length_encode_le t.chars
  have hchars := length_chars_le h
  rw [bytesOf, text, String.toList_ofList]
  exact Nat.lt_of_le_of_lt (hbytes.trans (Nat.mul_le_mul_left 4 hchars)) (by decide)

theorem ofDigitChars_lt {ds : List Char} (h : ∀ c ∈ ds, c.isDigit = true) (init : Nat) :
    Nat.ofDigitChars 10 ds init < (init + 1) * 10 ^ ds.length := by
  induction ds generalizing init with
  | nil => simp
  | cons c ds ih =>
    have hc := toNat_of_isDigit (h c List.mem_cons_self)
    have hds := ih (fun x hx => h x (List.mem_cons_of_mem c hx)) (10 * init + (c.toNat - '0'.toNat))
    have hdigit : 10 * init + (c.toNat - '0'.toNat) + 1 ≤ (init + 1) * 10 := by
      simp only [show '0'.toNat = 48 from rfl]
      omega
    calc Nat.ofDigitChars 10 (c :: ds) init
        = Nat.ofDigitChars 10 ds (10 * init + (c.toNat - '0'.toNat)) := Nat.ofDigitChars_cons
      _ < (10 * init + (c.toNat - '0'.toNat) + 1) * 10 ^ ds.length := hds
      _ ≤ (init + 1) * 10 * 10 ^ ds.length := Nat.mul_le_mul_right _ hdigit
      _ = (init + 1) * 10 ^ (c :: ds).length := by
        rw [List.length_cons, Nat.pow_succ', Nat.mul_assoc]

theorem number_ok {w n : Nat} {s rest : List Char} (h : number (some w) s = .ok (n, rest)) :
    ∃ k ≤ w, s.length - rest.length = k ∧ n < 10 ^ k := by
  cases s with
  | nil => cases h
  | cons c r =>
    simp only [number] at h
    split_ifs at h with hc hn
    cases h
    have hdigits : ∀ x ∈ ((c :: r).take w).takeWhile Char.isDigit, x.isDigit = true :=
      fun x hx => List.mem_takeWhile_imp hx
    have hle : (((c :: r).take w).takeWhile Char.isDigit).length ≤ ((c :: r).take w).length :=
      (List.takeWhile_prefix _).length_le
    have hlt := ofDigitChars_lt hdigits 0
    rw [List.length_take] at hle
    have hlen : (c :: r).length - ((c :: r).drop
        (((c :: r).take w).takeWhile Char.isDigit).length).length =
        (((c :: r).take w).takeWhile Char.isDigit).length := by
      rw [List.length_drop]
      omega
    exact ⟨_, by omega, hlen, by simpa using hlt⟩

theorem fraction_ok {n : Nat} {s rest : List Char} (h : fraction s = .ok (n, rest)) :
    n < nanosPerSecond := by
  simp only [fraction] at h
  split at h
  · obtain ⟨⟨m, rest'⟩, hnumber, heq⟩ := ok_of_bind h
    obtain ⟨k, hk, hlen, hlt⟩ := number_ok hnumber
    cases heq
    rw [hlen]
    have hpos : 0 < 10 ^ (9 - k) := Nat.pow_pos (by decide)
    calc
      m * Nat.pow 10 (9 - k) < 10 ^ k * 10 ^ (9 - k) := Nat.mul_lt_mul_of_pos_right hlt hpos
      _ = nanosPerSecond := by rw [← Nat.pow_add, Nat.add_sub_cancel' hk]; rfl
  · cases h
    decide

theorem clock?_ok {clock nanos : Nat} {s rest : List Char}
    (h : clock? s = .ok ((clock, nanos), rest)) :
    nanos < nanosPerSecond ∨ nanos < 2 * nanosPerSecond ∧ clock % 60 = 59 := by
  obtain ⟨⟨hour, s₁⟩, -, h⟩ := ok_of_bind h
  obtain ⟨s₂, -, h⟩ := ok_of_bind h
  obtain ⟨⟨minute, s₃⟩, -, h⟩ := ok_of_bind h
  obtain ⟨s₄, -, h⟩ := ok_of_bind h
  obtain ⟨⟨second, s₅⟩, -, h⟩ := ok_of_bind h
  obtain ⟨⟨f, s₆⟩, hf, h⟩ := ok_of_bind h
  have hfraction := fraction_ok hf
  cases h
  simp only [nanosPerSecond] at *
  split_ifs <;> omega

theorem offsetClock_ok {n : Nat} {s rest : List Char} (h : offsetClock s = .ok (n, rest)) :
    n % 60 = 0 := by
  obtain ⟨⟨⟨a, b⟩, s₁⟩, -, h⟩ := ok_of_bind h
  obtain ⟨⟨⟨c, d⟩, s₂⟩, -, h⟩ := ok_of_bind h
  dsimp only at h
  split_ifs at h
  cases h
  omega

theorem offset?_ok {n : Int} {s rest : List Char} (h : offset? s = .ok (n, rest)) :
    n % 60 = 0 := by
  have hsigned (sign : Nat → Int) (hsign : ∀ k : Nat, k % 60 = 0 → sign k % 60 = 0)
      {r : List Char} (h : (fun p => (sign p.1, p.2)) <$> offsetClock r = .ok (n, rest)) :
      n % 60 = 0 := by
    obtain ⟨p, hp, heq⟩ := ok_of_map h
    cases heq
    exact hsign p.1 (offsetClock_ok hp)
  simp only [offset?] at h
  split at h
  · cases h
  · split_ifs at h
    · cases h; rfl
    · cases h; rfl
    · exact hsigned (fun k => k) (fun k hk => by omega) h
    · exact hsigned (fun k => -k) (fun k hk => by omega) h

theorem ofLocal_ok {d : Date} {clock nanos : Nat} {offset : Int} {t : Instant}
    (hnanos : nanos < nanosPerSecond ∨ nanos < 2 * nanosPerSecond ∧ clock % 60 = 59)
    (hoffset : offset % 60 = 0) (h : ofLocal d clock nanos offset = .ok t) : t.isValid = true := by
  simp only [ofLocal] at h
  split_ifs at h with hrange hyear
  cases h
  refine isValid_iff.2 ⟨hyear, hnanos.imp_right fun hleap => ⟨hleap.1, ?_⟩⟩
  show (d.toDays * 86400 + clock - offset) % 60 = 59
  omega

theorem isValid_of_ofText {s : String} {t : Instant} (h : ofText s = .ok t) :
    t.isValid = true := by
  obtain ⟨⟨d, s₁⟩, -, h⟩ := ok_of_bind h
  dsimp only at h
  split at h
  · cases h
  · split_ifs at h
    · obtain ⟨s₁, -, h⟩ := ok_of_bind h
      obtain ⟨⟨⟨clock, nanos⟩, s₂⟩, hclock, h⟩ := ok_of_bind h
      obtain ⟨⟨offset, s₃⟩, hoffset, h⟩ := ok_of_bind h
      dsimp only at h
      split_ifs at h
      · cases h
      · exact ofLocal_ok (clock?_ok hclock) (offset?_ok hoffset) h
    · cases h

end Instant
end PhaseKeeper
