import Mathlib.Tactic.Positivity
import Mathlib.Tactic.Zify
import PhaseKeeper.Proofs.MessagePack.Reading
/-!
The heads of items. In whichever way a head is written, the shortest or another, it is read as
itself; and what is read keeps within the widths of the format.
-/
namespace PhaseKeeper.MessagePack

theorem reads_marker (b : UInt8) : Reads marker [b] (.ofByte b) := fun _ => rfl

theorem reads_head {b : UInt8} {m : Marker} {bytes : Bytes} {h : Head}
    (hb : Marker.ofByte b = m) (hread : Reads (headOf m) bytes h) : Reads head (b :: bytes) h := by
  subst hb
  exact (reads_marker b).bind hread

section Bytes
variable {n : Nat}

theorem ofByte_posFix (h : n < 0x80) : Marker.ofByte (.ofNat n) = .posFix n := by
  simp only [Marker.ofByte, UInt8.toNat_ofNat_of_lt' (show n < 256 by omega)]
  exact if_pos h

theorem ofByte_fixMap (h : n < 0x10) : Marker.ofByte (.ofNat (0x80 + n)) = .fixMap n := by
  simp only [Marker.ofByte, UInt8.toNat_ofNat_of_lt' (show 0x80 + n < 256 by omega)]
  rw [if_neg (by omega), if_pos (by omega), Nat.add_sub_cancel_left]

theorem ofByte_fixList (h : n < 0x10) : Marker.ofByte (.ofNat (0x90 + n)) = .fixList n := by
  simp only [Marker.ofByte, UInt8.toNat_ofNat_of_lt' (show 0x90 + n < 256 by omega)]
  rw [if_neg (by omega), if_neg (by omega), if_pos (by omega), Nat.add_sub_cancel_left]

theorem ofByte_fixText (h : n < 0x20) : Marker.ofByte (.ofNat (0xA0 + n)) = .fixText n := by
  simp only [Marker.ofByte, UInt8.toNat_ofNat_of_lt' (show 0xA0 + n < 256 by omega)]
  rw [if_neg (by omega), if_neg (by omega), if_neg (by omega), if_pos (by omega),
    Nat.add_sub_cancel_left]

theorem ofByte_negFix (h : 0xE0 ≤ n) (h' : n < 0x100) :
    Marker.ofByte (.ofNat n) = .negFix (n - 0xE0) := by
  simp only [Marker.ofByte, UInt8.toNat_ofNat_of_lt' h']
  rw [if_neg (by omega), if_neg (by omega), if_neg (by omega), if_neg (by omega), if_pos h]

end Bytes

theorem ofByte_uint : ∀ k < 4, Marker.ofByte (.ofNat (0xCC + k)) = .uint (2 ^ k) := by decide

theorem ofByte_int : ∀ k < 4, Marker.ofByte (.ofNat (0xD0 + k)) = .int (2 ^ k) := by decide

theorem ofByte_text : ∀ k < 3, Marker.ofByte (.ofNat (0xD9 + k)) = .text (2 ^ k) := by decide

theorem ofByte_binary : ∀ k < 3, Marker.ofByte (.ofNat (0xC4 + k)) = .binary (2 ^ k) := by decide

theorem ofByte_list : ∀ k < 2, Marker.ofByte (.ofNat (0xDC + k)) = .list (2 ^ (k + 1)) := by decide

theorem ofByte_map : ∀ k < 2, Marker.ofByte (.ofNat (0xDE + k)) = .map (2 ^ (k + 1)) := by decide

/-- All ways to write a head, the shortest and the others. A text and a binary are written whole; of a
list and a map only the length is. -/
inductive Spells : Head → Bytes → Prop where
  | nothing : Spells .nothing [0xC0]
  | bool (b : Bool) : Spells (.bool b) [if b then 0xC3 else 0xC2]
  | posFix {n : Nat} (h : n < 0x80) : Spells (.uint n) [.ofNat n]
  | uint {k n : Nat} (hk : k < 4) (h : n < 256 ^ 2 ^ k) :
    Spells (.uint n) (.ofNat (0xCC + k) :: toBigEndian (2 ^ k) n)
  | negFix {n : Nat} (hpos : 0 < n) (h : n ≤ 0x20) : Spells (.int (-n)) [.ofNat (0x100 - n)]
  | int {k : Nat} {n : Int} (hk : k < 4) (hlow : -2 ^ (8 * 2 ^ k - 1) ≤ n)
    (hhigh : n < 2 ^ (8 * 2 ^ k - 1)) :
    Spells (.int n) (.ofNat (0xD0 + k) :: toBigEndian (2 ^ k) (n % 256 ^ 2 ^ k).toNat)
  | float32 {n : Nat} (h : n < 256 ^ 4) :
    Spells (.float (Binary64.ofBinary32 (.ofNat n))) (0xCA :: toBigEndian 4 n)
  | float64 (bits : UInt64) : Spells (.float bits) (0xCB :: toBigEndian 8 bits.toNat)
  | fixText {bytes : Bytes} (h : bytes.length < 0x20) :
    Spells (.text bytes) (.ofNat (0xA0 + bytes.length) :: bytes)
  | text {k : Nat} {bytes : Bytes} (hk : k < 3) (h : bytes.length < 256 ^ 2 ^ k) :
    Spells (.text bytes) (.ofNat (0xD9 + k) :: (toBigEndian (2 ^ k) bytes.length ++ bytes))
  | binary {k : Nat} {bytes : Bytes} (hk : k < 3) (h : bytes.length < 256 ^ 2 ^ k) :
    Spells (.binary bytes) (.ofNat (0xC4 + k) :: (toBigEndian (2 ^ k) bytes.length ++ bytes))
  | fixList {n : Nat} (h : n < 0x10) : Spells (.list n) [.ofNat (0x90 + n)]
  | list {k n : Nat} (hk : k < 2) (h : n < 256 ^ 2 ^ (k + 1)) :
    Spells (.list n) (.ofNat (0xDC + k) :: toBigEndian (2 ^ (k + 1)) n)
  | fixMap {n : Nat} (h : n < 0x10) : Spells (.map n) [.ofNat (0x80 + n)]
  | map {k n : Nat} (hk : k < 2) (h : n < 256 ^ 2 ^ (k + 1)) :
    Spells (.map n) (.ofNat (0xDE + k) :: toBigEndian (2 ^ (k + 1)) n)

theorem pow_width {w : Nat} (hw : 0 < w) : 256 ^ w = 2 * 2 ^ (8 * w - 1) := by
  rw [← Nat.pow_succ', show (8 * w - 1).succ = 8 * w by omega, Nat.pow_mul]

theorem signed_emod {half : Nat} {n : Int} (hlow : -half ≤ n) (hhigh : n < half) :
    signed half (n % (2 * half : Nat)).toNat = n := by
  obtain hn | hn := Int.lt_or_le n 0
  · have hmod : n % (2 * half : Nat) = n + (2 * half : Nat) := by
      rw [← Int.add_emod_right, Int.emod_eq_of_lt (by omega) (by omega)]
    rw [signed, hmod, if_neg (by omega)]
    omega
  · rw [signed, Int.emod_eq_of_lt hn (by omega), if_pos (by omega), Int.toNat_of_nonneg hn]

theorem reads_signed {w : Nat} {n : Int} (hw : 0 < w) (hlow : -2 ^ (8 * w - 1) ≤ n)
    (hhigh : n < 2 ^ (8 * w - 1)) :
    Reads (headOf (.int w)) (toBigEndian w (n % 256 ^ w).toNat) (.int n) := by
  have hsize : (256 ^ w : Int) = (2 * 2 ^ (8 * w - 1) : Nat) := by
    rw [← pow_width hw]
    norm_cast
  have hlt : (n % 256 ^ w).toNat < 256 ^ w := by
    have hpos : (0 : Int) < 256 ^ w := by positivity
    have := Int.emod_lt_of_pos n hpos
    have := Int.emod_nonneg n hpos.ne'
    zify
    omega
  have hread := (reads_bigEndian hlt).map fun m => Head.int (signed (2 ^ (8 * w - 1)) m)
  rw [hsize, signed_emod (by exact_mod_cast hlow) (by exact_mod_cast hhigh), ← hsize] at hread
  exact hread

theorem reads_body (w : Nat) {bytes : Bytes} (h : bytes.length < 256 ^ w) (f : Bytes → Head) :
    Reads (do return f (← take (← bigEndian w) .shortBody))
      (toBigEndian w bytes.length ++ bytes) (f bytes) :=
  (reads_bigEndian h).bind ((reads_take bytes _).map f)

theorem Spells.reads {h : Head} {bytes : Bytes} (hs : Spells h bytes) : Reads head bytes h := by
  cases hs with
  | nothing => exact reads_head (m := .nil) (by decide) (.pure _)
  | bool b => exact reads_head (m := .bool b) (by cases b <;> decide) (.pure _)
  | posFix h => exact reads_head (ofByte_posFix h) (.pure _)
  | uint hk h => exact reads_head (ofByte_uint _ hk) ((reads_bigEndian h).map Head.uint)
  | @negFix n hpos h =>
    have hread : Reads (headOf (.negFix (0x100 - n - 0xE0))) []
        (.int ((0x100 - n - 0xE0 : Nat) - 32)) := .pure _
    rw [show ((0x100 - n - 0xE0 : Nat) : Int) - 32 = -(n : Int) by omega] at hread
    exact reads_head (ofByte_negFix (by omega) (by omega)) hread
  | int hk hlow hhigh =>
    exact reads_head (ofByte_int _ hk) (reads_signed (Nat.two_pow_pos _) hlow hhigh)
  | float32 h =>
    exact reads_head (m := .float32) (by decide)
      ((reads_bigEndian (w := 4) h).map fun n => Head.float (Binary64.ofBinary32 (.ofNat n)))
  | float64 bits =>
    have hread := (reads_bigEndian (w := 8) bits.toNat_lt).map fun n => Head.float (.ofNat n)
    rw [UInt64.ofNat_toNat] at hread
    exact reads_head (m := .float64) (by decide) hread
  | fixText h => exact reads_head (ofByte_fixText h) ((reads_take _ _).map _)
  | text hk h => exact reads_head (ofByte_text _ hk) (reads_body _ h _)
  | binary hk h => exact reads_head (ofByte_binary _ hk) (reads_body _ h _)
  | fixList h => exact reads_head (ofByte_fixList h) (.pure _)
  | list hk h => exact reads_head (ofByte_list _ hk) ((reads_bigEndian h).map Head.list)
  | fixMap h => exact reads_head (ofByte_fixMap h) (.pure _)
  | map hk h => exact reads_head (ofByte_map _ hk) ((reads_bigEndian h).map Head.map)

theorem spells_writeUInt {n : Nat} (h : n < UInt64.size) : Spells (.uint n) (writeUInt n) := by
  simp only [writeUInt]
  split_ifs with h₁ h₂ h₃ h₄
  · exact .posFix h₁
  · exact .uint (k := 0) (by decide) h₂
  · exact .uint (k := 1) (by decide) h₃
  · exact .uint (k := 2) (by decide) h₄
  · exact .uint (k := 3) (by decide) h

theorem emod_neg {size n : Nat} (hpos : 0 < n) (h : n ≤ size) :
    (-(n : Int) % (size : Nat)).toNat = size - n := by
  rw [← Int.add_emod_right, Int.emod_eq_of_lt (by omega) (by omega)]
  omega

theorem spells_writeNegative {n : Nat} (hpos : 0 < n) (h : n ≤ 0x8000000000000000) :
    Spells (.int (-n)) (writeNegative n) := by
  simp only [writeNegative]
  split_ifs with h₁ h₂ h₃ h₄
  · exact .negFix hpos h₁
  · rw [← emod_neg hpos (h₂.trans (by decide))]
    exact .int (k := 0) (by decide) (by omega) (by omega)
  · rw [← emod_neg hpos (h₃.trans (by decide))]
    exact .int (k := 1) (by decide) (by omega) (by omega)
  · rw [← emod_neg hpos (h₄.trans (by decide))]
    exact .int (k := 2) (by decide) (by omega) (by omega)
  · rw [← emod_neg hpos (h.trans (by decide))]
    exact .int (k := 3) (by decide) (by omega) (by omega)

theorem spells_writeText {s : String} (h : (bytesOf s).length < UInt32.size) :
    Spells (.text (bytesOf s)) (writeText s) := by
  simp only [writeText]
  split_ifs with h₁ h₂ h₃
  · exact .fixText h₁
  · exact .text (k := 0) (by decide) h₂
  · exact .text (k := 1) (by decide) h₃
  · exact .text (k := 2) (by decide) h

theorem spells_writeBinary {bytes : Bytes} (h : bytes.length < UInt32.size) :
    Spells (.binary bytes) (writeBinary bytes) := by
  simp only [writeBinary]
  split_ifs with h₁ h₂
  · exact .binary (k := 0) (by decide) h₁
  · exact .binary (k := 1) (by decide) h₂
  · exact .binary (k := 2) (by decide) h

theorem spells_writeListHead {n : Nat} (h : n < UInt32.size) :
    Spells (.list n) (writeListHead n) := by
  simp only [writeListHead]
  split_ifs with h₁ h₂
  · exact .fixList h₁
  · exact .list (k := 0) (by decide) h₂
  · exact .list (k := 1) (by decide) h

theorem spells_writeMapHead {n : Nat} (h : n < UInt32.size) : Spells (.map n) (writeMapHead n) := by
  simp only [writeMapHead]
  split_ifs with h₁ h₂
  · exact .fixMap h₁
  · exact .map (k := 0) (by decide) h₂
  · exact .map (k := 1) (by decide) h

def Marker.isNarrow : Marker → Bool
  | .uint w => w ≤ 8
  | .int w => 0 < w && w ≤ 8
  | .text w | .binary w | .list w | .map w => w ≤ 4
  | .posFix n | .fixText n | .fixList n | .fixMap n => n < 0x80
  | .negFix n => n < 0x20
  | _ => true

theorem isNarrow_ofByte (b : UInt8) : (Marker.ofByte b).isNarrow = true := by
  have hall : ∀ n < 256, (Marker.ofByte (.ofNat n)).isNarrow = true := by decide +kernel
  rw [← UInt8.ofNat_toNat (x := b)]
  exact hall _ b.toNat_lt

/-- The numbers and lengths that MessagePack has. -/
def Head.Bounded : Head → Prop
  | .uint n => n < UInt64.size
  | .int n => -0x8000000000000000 ≤ n ∧ n < 0x8000000000000000
  | .text bytes | .binary bytes => bytes.length < UInt32.size
  | .list n | .map n => n < UInt32.size
  | _ => True

theorem bigEndian_narrow {w k : Nat} (h : w ≤ k) : Ensures (bigEndian w) (· < 256 ^ k) :=
  (bigEndian_ensures w).mono fun _ hn => Nat.lt_of_lt_of_le hn (Nat.pow_le_pow_right (by decide) h)

theorem signed_bounded {w n : Nat} (hw : 0 < w) (hw' : w ≤ 8) (h : n < 256 ^ w) :
    (Head.int (signed (Nat.pow 2 (8 * w - 1)) n)).Bounded := by
  have hsize : 256 ^ w = 2 * Nat.pow 2 (8 * w - 1) := pow_width hw
  have hhalf : Nat.pow 2 (8 * w - 1) ≤ 0x8000000000000000 :=
    Nat.pow_le_pow_right (show 0 < 2 by decide) (show 8 * w - 1 ≤ 63 by omega)
  simp only [Head.Bounded, signed]
  split_ifs <;> omega

theorem headOf_ensures {m : Marker} (h : m.isNarrow = true) : Ensures (headOf m) Head.Bounded := by
  have short (n : Nat) (hn : n < 0x80) : n < UInt32.size := Nat.lt_of_lt_of_le hn (by decide)
  have body (w : Nat) (hw : w ≤ 4) (f : Bytes → Head)
      (hf : ∀ bytes, bytes.length < UInt32.size → (f bytes).Bounded) :
      Ensures (do return f (← take (← bigEndian w) .shortBody)) Head.Bounded :=
    (bigEndian_narrow (k := 4) hw).bind fun n hn => (take_ensures n _).map fun bytes hlen =>
      hf bytes (hlen ▸ hn)
  cases m with
  | nil => exact .pure trivial
  | reserved => exact .throw _
  | bool b => exact .pure trivial
  | posFix n =>
    exact .pure (Nat.lt_of_lt_of_le (of_decide_eq_true h) (by decide : 0x80 ≤ UInt64.size))
  | negFix n =>
    have hn : n < 0x20 := of_decide_eq_true h
    exact .pure (by simp only [Head.Bounded]; omega)
  | uint w => exact (bigEndian_narrow (k := 8) (of_decide_eq_true h)).map fun _ hn => hn
  | int w =>
    simp only [Marker.isNarrow, Bool.and_eq_true, decide_eq_true_eq] at h
    exact (bigEndian_ensures w).map fun n hn => signed_bounded h.1 h.2 hn
  | float32 => exact (bigEndian_ensures 4).map fun _ _ => trivial
  | float64 => exact (bigEndian_ensures 8).map fun _ _ => trivial
  | fixText n =>
    exact (take_ensures n _).map fun bytes hlen => by
      rw [Head.Bounded, hlen]
      exact short n (of_decide_eq_true h)
  | text w => exact body w (of_decide_eq_true h) .text fun _ hb => hb
  | binary w => exact body w (of_decide_eq_true h) .binary fun _ hb => hb
  | fixList n => exact .pure (short n (of_decide_eq_true h))
  | list w => exact (bigEndian_narrow (k := 4) (of_decide_eq_true h)).map fun _ hn => hn
  | fixMap n => exact .pure (short n (of_decide_eq_true h))
  | map w => exact (bigEndian_narrow (k := 4) (of_decide_eq_true h)).map fun _ hn => hn
  | fixExt n => exact .pure trivial
  | ext w => exact (bigEndian_ensures w).map fun _ _ => trivial

theorem marker_ensures : Ensures marker fun m => m.isNarrow = true := by
  intro bytes m rest heq
  cases bytes with
  | nil => cases heq
  | cons b r =>
    cases heq
    exact isNarrow_ofByte b

theorem head_ensures : Ensures head Head.Bounded :=
  marker_ensures.bind fun _ hm => headOf_ensures hm

end PhaseKeeper.MessagePack
