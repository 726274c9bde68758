import Mathlib.Tactic.Common
import PhaseKeeper.Text.Utf8
/-!
Texts and their bytes. A text is read back from its bytes, and no other bytes are read as that text:
a character in more bytes than it needs, and the halves of a surrogate pair, are refused.
-/
namespace PhaseKeeper

section Reading
variable {ε α β : Type} {x : Except ε α} {b : β}

theorem ok_of_bind {f : α → Except ε β} (h : (x >>= f) = .ok b) : ∃ a, x = .ok a ∧ f a = .ok b := by
  cases x with
  | error e => cases h
  | ok a => exact ⟨a, rfl, h⟩

theorem ok_of_map {f : α → β} (h : f <$> x = .ok b) : ∃ a, x = .ok a ∧ f a = b := by
  cases x with
  | error e => cases h
  | ok a => exact ⟨a, rfl, Except.ok.inj h⟩

end Reading

namespace Text.Utf8

theorem isTail_iff {b : UInt8} : isTail b = true ↔ 0x80 ≤ b.toNat ∧ b.toNat ≤ 0xBF := by
  simp [isTail, UInt8.le_iff_toNat_le]

theorem secondOfThree_iff {a b : UInt8} : secondOfThree a b = true ↔
    0x80 ≤ b.toNat ∧ b.toNat ≤ 0xBF ∧ (a.toNat = 0xE0 → 0xA0 ≤ b.toNat) ∧
      (a.toNat = 0xED → b.toNat ≤ 0x9F) := by
  simp only [secondOfThree, ← UInt8.toNat_inj]
  split_ifs <;> simp_all [isTail_iff, UInt8.le_iff_toNat_le] <;> omega

theorem secondOfFour_iff {a b : UInt8} : secondOfFour a b = true ↔
    0x80 ≤ b.toNat ∧ b.toNat ≤ 0xBF ∧ (a.toNat = 0xF0 → 0x90 ≤ b.toNat) ∧
      (a.toNat = 0xF4 → b.toNat ≤ 0x8F) := by
  simp only [secondOfFour, ← UInt8.toNat_inj]
  split_ifs <;> simp_all [isTail_iff, UInt8.le_iff_toNat_le] <;> omega

theorem encodeChar_cases (c : Char) :
    (c.toNat < 0x80 ∧ String.utf8EncodeChar c = [.ofNat c.toNat]) ∨
    (0x80 ≤ c.toNat ∧ c.toNat < 0x800 ∧ String.utf8EncodeChar c =
      [.ofNat (c.toNat / 64 + 0xC0), .ofNat (c.toNat % 64 + 0x80)]) ∨
    (0x800 ≤ c.toNat ∧ c.toNat < 0x10000 ∧ (c.toNat < 0xD800 ∨ 0xDFFF < c.toNat) ∧
      String.utf8EncodeChar c = [.ofNat (c.toNat / 4096 + 0xE0),
        .ofNat (c.toNat / 64 % 64 + 0x80), .ofNat (c.toNat % 64 + 0x80)]) ∨
    (0x10000 ≤ c.toNat ∧ c.toNat < 0x110000 ∧ String.utf8EncodeChar c =
      [.ofNat (c.toNat / 262144 + 0xF0), .ofNat (c.toNat / 4096 % 64 + 0x80),
        .ofNat (c.toNat / 64 % 64 + 0x80), .ofNat (c.toNat % 64 + 0x80)]) := by
  have hv : c.toNat < 0xD800 ∨ (0xDFFF < c.toNat ∧ c.toNat < 0x110000) := c.valid
  have he : c.val.toNat = c.toNat := rfl
  simp only [String.utf8EncodeChar, he]
  split_ifs with h₁ h₂ h₃
  · exact .inl ⟨by omega, rfl⟩
  · refine .inr (.inl ⟨by omega, by omega, ?_⟩)
    rw [Nat.mod_eq_of_lt (by omega : c.toNat / 64 < 32)]
  · refine .inr (.inr (.inl ⟨by omega, by omega, by omega, ?_⟩))
    rw [Nat.mod_eq_of_lt (by omega : c.toNat / 4096 < 16)]
  · refine .inr (.inr (.inr ⟨by omega, by omega, ?_⟩))
    rw [Nat.mod_eq_of_lt (by omega : c.toNat / 262144 < 8)]

theorem decodeFrom_one {a : UInt8} (i : Nat) (r : Bytes) (ha : a.toNat < 0x80) :
    decodeFrom i (a :: r) = (Char.ofNat a.toNat :: ·) <$> decodeFrom (i + 1) r := by
  rw [decodeFrom.eq_def]
  exact if_pos (UInt8.lt_iff_toNat_lt.2 ha)

theorem decodeFrom_two {a b : UInt8} (i : Nat) (r : Bytes) (ha : 0xC2 ≤ a.toNat)
    (ha' : a.toNat < 0xE0) (hb : isTail b = true) :
    decodeFrom i (a :: b :: r) = (charOfTwo a b :: ·) <$> decodeFrom (i + 2) r := by
  rw [decodeFrom.eq_def]
  simp only [hb, UInt8.lt_iff_toNat_lt, UInt8.reduceToNat]
  simp [show ¬ a.toNat < 128 by omega, show ¬ a.toNat < 194 by omega,
    show ¬ 244 < a.toNat by omega, ha']

theorem decodeFrom_three {a b c : UInt8} (i : Nat) (r : Bytes) (ha : 0xE0 ≤ a.toNat)
    (ha' : a.toNat < 0xF0) (hb : secondOfThree a b = true) (hc : isTail c = true) :
    decodeFrom i (a :: b :: c :: r) = (charOfThree a b c :: ·) <$> decodeFrom (i + 3) r := by
  rw [decodeFrom.eq_def]
  simp only [hb, hc, UInt8.lt_iff_toNat_lt, UInt8.reduceToNat]
  simp [show ¬ a.toNat < 128 by omega, show ¬ a.toNat < 194 by omega,
    show ¬ 244 < a.toNat by omega, show ¬ a.toNat < 224 by omega, ha']

theorem decodeFrom_four {a b c d : UInt8} (i : Nat) (r : Bytes) (ha : 0xF0 ≤ a.toNat)
    (ha' : a.toNat ≤ 0xF4) (hb : secondOfFour a b = true) (hc : isTail c = true)
    (hd : isTail d = true) :
    decodeFrom i (a :: b :: c :: d :: r) =
      (charOfFour a b c d :: ·) <$> decodeFrom (i + 4) r := by
  rw [decodeFrom.eq_def]
  simp only [hb, hc, hd, UInt8.lt_iff_toNat_lt, UInt8.reduceToNat]
  simp [show ¬ a.toNat < 128 by omega, show ¬ a.toNat < 194 by omega,
    show ¬ 244 < a.toNat by omega, show ¬ a.toNat < 224 by omega, show ¬ a.toNat < 240 by omega]

theorem isTail_byte (n : Nat) : isTail (.ofNat (n % 64 + 0x80)) = true := by
  rw [isTail_iff, UInt8.toNat_ofNat_of_lt' (show _ < 256 by omega)]
  omega

theorem low6_byte (n : Nat) : low6 (.ofNat (n % 64 + 0x80)) = n % 64 := by
  rw [low6, UInt8.toNat_ofNat_of_lt' (show _ < 256 by omega)]
  omega

theorem decodeFrom_char (i : Nat) (c : Char) (r : Bytes) :
    ∃ k, decodeFrom i (String.utf8EncodeChar c ++ r) = (c :: ·) <$> decodeFrom (i + k) r := by
  obtain ⟨h, he⟩ | ⟨h, h', he⟩ | ⟨h, h', hs, he⟩ | ⟨h, h', he⟩ := encodeChar_cases c
  · refine ⟨1, ?_⟩
    have ha := UInt8.toNat_ofNat_of_lt' (show c.toNat < 256 by omega)
    rw [he]
    simp only [List.cons_append, List.nil_append]
    rw [decodeFrom_one i r (by omega), ha, Char.ofNat_toNat]
  · refine ⟨2, ?_⟩
    have ha := UInt8.toNat_ofNat_of_lt' (show c.toNat / 64 + 0xC0 < 256 by omega)
    rw [he]
    simp only [List.cons_append, List.nil_append]
    rw [decodeFrom_two i r (by omega) (by omega) (isTail_byte _), charOfTwo, low6_byte, ha,
      show (c.toNat / 64 + 0xC0) % 32 * 64 + c.toNat % 64 = c.toNat by omega, Char.ofNat_toNat]
  · refine ⟨3, ?_⟩
    have ha := UInt8.toNat_ofNat_of_lt' (show c.toNat / 4096 + 0xE0 < 256 by omega)
    have hb := UInt8.toNat_ofNat_of_lt' (show c.toNat / 64 % 64 + 0x80 < 256 by omega)
    have hsecond : secondOfThree (.ofNat (c.toNat / 4096 + 0xE0))
        (.ofNat (c.toNat / 64 % 64 + 0x80)) = true := by
      rw [secondOfThree_iff, ha, hb]
      omega
    rw [he]
    simp only [List.cons_append, List.nil_append]
    rw [decodeFrom_three i r (by omega) (by omega) hsecond (isTail_byte _), charOfThree, low6_byte,
      low6_byte, ha, show (c.toNat / 4096 + 0xE0) % 16 * 4096 + c.toNat / 64 % 64 * 64 +
        c.toNat % 64 = c.toNat by omega, Char.ofNat_toNat]
  · refine ⟨4, ?_⟩
    have ha := UInt8.toNat_ofNat_of_lt' (show c.toNat / 262144 + 0xF0 < 256 by omega)
    have hb := UInt8.toNat_ofNat_of_lt' (show c.toNat / 4096 % 64 + 0x80 < 256 by omega)
    have hsecond : secondOfFour (.ofNat (c.toNat / 262144 + 0xF0))
        (.ofNat (c.toNat / 4096 % 64 + 0x80)) = true := by
      rw [secondOfFour_iff, ha, hb]
      omega
    rw [he]
    simp only [List.cons_append, List.nil_append]
    rw [decodeFrom_four i r (by omega) (by omega) hsecond (isTail_byte _) (isTail_byte _),
      charOfFour, low6_byte, low6_byte, low6_byte, ha,
      show (c.toNat / 262144 + 0xF0) % 8 * 262144 + c.toNat / 4096 % 64 * 4096 +
        c.toNat / 64 % 64 * 64 + c.toNat % 64 = c.toNat by omega, Char.ofNat_toNat]

theorem decodeFrom_encode (i : Nat) (s : List Char) : decodeFrom i (encode s) = .ok s := by
  induction s generalizing i with
  | nil => rfl
  | cons c s ih =>
    obtain ⟨k, hk⟩ := decodeFrom_char i c (encode s)
    rw [encode_cons, hk, ih]
    rfl

theorem encodeChar_ofNat {n : Nat} {bytes : Bytes} (hv : n.isValidChar)
    (h : ∀ c : Char, c.toNat = n → String.utf8EncodeChar c = bytes) :
    String.utf8EncodeChar (.ofNat n) = bytes :=
  h _ (by rw [Char.ofNat, dif_pos hv]; rfl)

theorem encodeChar_one {a : UInt8} (ha : a.toNat < 0x80) :
    String.utf8EncodeChar (.ofNat a.toNat) = [a] := by
  refine encodeChar_ofNat (.inl (by omega)) fun c hc => ?_
  obtain ⟨h, he⟩ | ⟨h, h', he⟩ | ⟨h, h', hs, he⟩ | ⟨h, h', he⟩ := encodeChar_cases c
  · rw [he, hc, UInt8.ofNat_toNat]
  · omega
  · omega
  · omega

theorem encodeChar_charOfTwo {a b : UInt8} (ha : 0xC2 ≤ a.toNat) (ha' : a.toNat < 0xE0)
    (hb : isTail b = true) : String.utf8EncodeChar (charOfTwo a b) = [a, b] := by
  rw [isTail_iff] at hb
  refine encodeChar_ofNat (.inl (by simp only [low6]; omega)) fun c hc => ?_
  simp only [low6] at hc
  obtain ⟨h, he⟩ | ⟨h, h', he⟩ | ⟨h, h', hs, he⟩ | ⟨h, h', he⟩ := encodeChar_cases c
  · omega
  · rw [he, show c.toNat / 64 + 0xC0 = a.toNat by omega,
      show c.toNat % 64 + 0x80 = b.toNat by omega, UInt8.ofNat_toNat, UInt8.ofNat_toNat]
  · omega
  · omega

theorem encodeChar_charOfThree {a b c : UInt8} (ha : 0xE0 ≤ a.toNat) (ha' : a.toNat < 0xF0)
    (hb : secondOfThree a b = true) (hc : isTail c = true) :
    String.utf8EncodeChar (charOfThree a b c) = [a, b, c] := by
  rw [secondOfThree_iff] at hb
  rw [isTail_iff] at hc
  refine encodeChar_ofNat (by simp only [low6, Nat.isValidChar]; omega) fun x hx => ?_
  simp only [low6] at hx
  obtain ⟨h, he⟩ | ⟨h, h', he⟩ | ⟨h, h', hs, he⟩ | ⟨h, h', he⟩ := encodeChar_cases x
  · omega
  · omega
  · rw [he, show x.toNat / 4096 + 0xE0 = a.toNat by omega,
      show x.toNat / 64 % 64 + 0x80 = b.toNat by omega,
      show x.toNat % 64 + 0x80 = c.toNat by omega, UInt8.ofNat_toNat, UInt8.ofNat_toNat,
      UInt8.ofNat_toNat]
  · omega

theorem encodeChar_charOfFour {a b c d : UInt8} (ha : 0xF0 ≤ a.toNat) (ha' : a.toNat ≤ 0xF4)
    (hb : secondOfFour a b = true) (hc : isTail c = true) (hd : isTail d = true) :
    String.utf8EncodeChar (charOfFour a b c d) = [a, b, c, d] := by
  rw [secondOfFour_iff] at hb
  rw [isTail_iff] at hc hd
  refine encodeChar_ofNat (by simp only [low6, Nat.isValidChar]; omega) fun x hx => ?_
  simp only [low6] at hx
  obtain ⟨h, he⟩ | ⟨h, h', he⟩ | ⟨h, h', hs, he⟩ | ⟨h, h', he⟩ := encodeChar_cases x
  · omega
  · omega
  · omega
  · rw [he, show x.toNat / 262144 + 0xF0 = a.toNat by omega,
      show x.toNat / 4096 % 64 + 0x80 = b.toNat by omega,
      show x.toNat / 64 % 64 + 0x80 = c.toNat by omega,
      show x.toNat % 64 + 0x80 = d.toNat by omega, UInt8.ofNat_toNat, UInt8.ofNat_toNat,
      UInt8.ofNat_toNat, UInt8.ofNat_toNat]

theorem lead_range {a : UInt8} (h : ¬ (decide (a < 0xC2) || decide (0xF4 < a)) = true) :
    0xC2 ≤ a.toNat ∧ a.toNat ≤ 0xF4 := by
  simpa [UInt8.le_iff_toNat_le] using h

theorem encode_of_decodeFrom {i : Nat} {bytes : Bytes} {s : List Char}
    (h : decodeFrom i bytes = .ok s) : encode s = bytes := by
  fun_induction decodeFrom i bytes generalizing s with
  | case1 => cases h; rfl
  | case2 i a r ha ih =>
    obtain ⟨t, ht, rfl⟩ := ok_of_map h
    rw [encode_cons, ih ht, encodeChar_one (UInt8.lt_iff_toNat_lt.1 ha)]
    rfl
  | case5 i a ha hrange b r ha' hb ih =>
    obtain ⟨t, ht, rfl⟩ := ok_of_map h
    have hlow : 0xC2 ≤ a.toNat := (lead_range hrange).1
    rw [encode_cons, ih ht, encodeChar_charOfTwo hlow (UInt8.lt_iff_toNat_lt.1 ha') hb]
    rfl
  | case11 i a ha hrange b ha' hb hb' c r hc ha'' ih =>
    obtain ⟨t, ht, rfl⟩ := ok_of_map h
    have hlow : 0xE0 ≤ a.toNat := UInt8.le_iff_toNat_le.1 (UInt8.not_lt.1 ha')
    rw [encode_cons, ih ht, encodeChar_charOfThree hlow (UInt8.lt_iff_toNat_lt.1 ha'')
      (by simpa [ha''] using hb) (by simpa using hc)]
    rfl
  | case13 i a ha hrange b ha' hb hb' c hc ha'' d r hd ih =>
    obtain ⟨t, ht, rfl⟩ := ok_of_map h
    have hlow : 0xF0 ≤ a.toNat := UInt8.le_iff_toNat_le.1 (UInt8.not_lt.1 ha'')
    rw [encode_cons, ih ht, encodeChar_charOfFour hlow (lead_range hrange).2
      (by simpa [ha''] using hb') (by simpa using hc) hd]
    rfl
  | _ => cases h

theorem length_encode_le (s : List Char) : (encode s).length ≤ 4 * s.length := by
  induction s with
  | nil => simp
  | cons c s ih =>
    have hc : (String.utf8EncodeChar c).length ≤ 4 := by
      rw [String.length_utf8EncodeChar]
      exact Char.utf8Size_le_four c
    rw [encode_cons, List.length_append, List.length_cons]
    omega

end Text.Utf8

theorem textOf_bytesOf (s : String) : textOf (bytesOf s) = .ok s := by
  rw [textOf, bytesOf, Text.Utf8.decode, Text.Utf8.decodeFrom_encode]
  exact congrArg Except.ok String.ofList_toList

theorem bytesOf_of_textOf {bytes : Bytes} {s : String} (h : textOf bytes = .ok s) :
    bytesOf s = bytes := by
  obtain ⟨t, ht, rfl⟩ := ok_of_map h
  rw [bytesOf, String.toList_ofList, Text.Utf8.encode_of_decodeFrom ht]
end PhaseKeeper
