/-!
Natural numbers in decimal. What is read as a number is one or more digits, behind a plus sign or not;
and every number is read back from what is written for it.
-/
namespace PhaseKeeper.Decimal

def isDigit (c : Char) : Bool := '0' ≤ c && c ≤ '9'

def valueOf (digits : List Char) : Nat :=
  digits.foldl (fun n c => 10 * n + (c.toNat - '0'.toNat)) 0

def ofDigits? (digits : List Char) : Option Nat :=
  if digits.isEmpty || !digits.all isDigit then none else some (valueOf digits)

/-- One or more digits after an optional plus sign. -/
def ofText? : List Char → Option Nat
  | '+' :: r => ofDigits? r
  | s => ofDigits? s

def below? (bound : Nat) (s : List Char) : Option Nat := (ofText? s).filter (· < bound)

structure Digits (n : Nat) (ds : List Char) : Prop where
  nonempty : ds ≠ []
  digit : ∀ c ∈ ds, c.isDigit = true
  value : Nat.ofDigitChars 10 ds 0 = n

inductive Spells (n : Nat) : List Char → Prop where
  | plain {ds : List Char} (h : Digits n ds) : Spells n ds
  | signed {ds : List Char} (h : Digits n ds) : Spells n ('+' :: ds)

variable {n bound : Nat} {s ds : List Char}

theorem ofDigits?_eq_some_iff : ofDigits? ds = some n ↔ Digits n ds := by
  rw [ofDigits?]
  split <;> rename_i h
  · refine iff_of_false (by simp) fun hd => ?_
    simp only [Bool.or_eq_true, List.isEmpty_iff, Bool.not_eq_true', List.all_eq_false] at h
    obtain hnil | ⟨c, hc, hno⟩ := h
    · exact absurd hnil hd.nonempty
    · exact absurd (hd.digit c hc) hno
  · simp only [Bool.or_eq_true, List.isEmpty_iff, Bool.not_eq_true', Bool.not_eq_false, not_or,
      List.all_eq_true] at h
    rw [Option.some_inj]
    exact ⟨fun hv => ⟨h.1, h.2, hv⟩, fun hd => hd.value⟩

theorem Digits.ne_sign {r : List Char} : ¬ Digits n ('+' :: r) := fun h =>
  absurd (h.digit '+' List.mem_cons_self) (by decide)

theorem ofText?_eq_some_iff : ofText? s = some n ↔ Spells n s := by
  unfold ofText?
  split
  · rename_i r
    rw [ofDigits?_eq_some_iff]
    refine ⟨.signed, fun h => ?_⟩
    cases h with
    | plain h => exact absurd h Digits.ne_sign
    | signed h => exact h
  · rename_i s hs
    rw [ofDigits?_eq_some_iff]
    refine ⟨.plain, fun h => ?_⟩
    cases h with
    | plain h => exact h
    | signed h => exact (hs _ rfl).elim

theorem below?_eq_some_iff : below? bound s = some n ↔ Spells n s ∧ n < bound := by
  rw [below?, Option.filter_eq_some_iff, ofText?_eq_some_iff, decide_eq_true_eq]

theorem below?_eq_none_iff : below? bound s = none ↔ ∀ n < bound, ¬ Spells n s := by
  rw [Option.eq_none_iff_forall_ne_some]
  simp only [ne_eq, below?_eq_some_iff, not_and]
  exact ⟨fun h n hn hs => h n hs hn, fun h n hs hn => h n hn hs⟩

theorem spells_toString (n : Nat) : Spells n (toString n).toList := by
  rw [Nat.toString_eq_ofList_toDigits, String.toList_ofList]
  refine .plain ⟨by simp, fun c hc => ?_, Nat.ofDigitChars_ten_toDigits⟩
  exact Nat.isDigit_of_mem_toDigits (by decide) (by decide) hc

theorem Spells.not_mem {c : Char} (h : Spells n s) (hc : c.isDigit = false) (hs : c ≠ '+') :
    c ∉ s := by
  have hno {ds : List Char} (hd : Digits n ds) : c ∉ ds := fun hm =>
    absurd (hd.digit c hm) (by simp [hc])
  cases h with
  | plain hd => exact hno hd
  | signed hd => exact List.not_mem_cons_of_ne_of_not_mem hs (hno hd)

end PhaseKeeper.Decimal
