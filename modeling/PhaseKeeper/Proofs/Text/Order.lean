import Mathlib.Data.String.Basic
import Mathlib.Tactic.Common
import PhaseKeeper.Proofs.Text.Utf8
/-! Texts are ordered as their bytes are. -/
namespace PhaseKeeper

namespace Text.Utf8

theorem cons_lt_cons {m n : Nat} {r r' : Bytes} (hn : n < 256) (hle : m ≤ n)
    (h : m = n → r < r') : (.ofNat m :: r : Bytes) < .ofNat n :: r' := by
  rw [List.cons_lt_cons_iff]
  obtain hlt | rfl := Nat.lt_or_eq_of_le hle
  · left
    rw [UInt8.lt_iff_toNat_lt, UInt8.toNat_ofNat_of_lt' hn,
      UInt8.toNat_ofNat_of_lt' (hlt.trans hn)]
    exact hlt
  · exact .inr ⟨rfl, h rfl⟩

/-- The more bytes a character has, the greater is the first of them; and characters of as many bytes
are compared like numbers to base 64. -/
theorem encodeChar_lt {c d : Char} (h : c < d) (r r' : Bytes) :
    String.utf8EncodeChar c ++ r < String.utf8EncodeChar d ++ r' := by
  have hlt : c.toNat < d.toNat := h
  obtain ⟨hc, he⟩ | ⟨hc, hc', he⟩ | ⟨hc, hc', -, he⟩ | ⟨hc, hc', he⟩ := encodeChar_cases c
  · obtain ⟨hd, he'⟩ | ⟨hd, hd', he'⟩ | ⟨hd, hd', -, he'⟩ | ⟨hd, hd', he'⟩ := encodeChar_cases d <;>
      rw [he, he'] <;> exact cons_lt_cons (by omega) (by omega) fun _ => by omega
  · obtain ⟨hd, he'⟩ | ⟨hd, hd', he'⟩ | ⟨hd, hd', -, he'⟩ | ⟨hd, hd', he'⟩ := encodeChar_cases d
    · omega
    · rw [he, he']
      exact cons_lt_cons (by omega) (by omega) fun _ =>
        cons_lt_cons (by omega) (by omega) fun _ => by omega
    · rw [he, he']
      exact cons_lt_cons (by omega) (by omega) fun _ => by omega
    · rw [he, he']
      exact cons_lt_cons (by omega) (by omega) fun _ => by omega
  · obtain ⟨hd, he'⟩ | ⟨hd, hd', he'⟩ | ⟨hd, hd', -, he'⟩ | ⟨hd, hd', he'⟩ := encodeChar_cases d
    · omega
    · omega
    · rw [he, he']
      exact cons_lt_cons (by omega) (by omega) fun _ =>
        cons_lt_cons (by omega) (by omega) fun _ =>
        cons_lt_cons (by omega) (by omega) fun _ => by omega
    · rw [he, he']
      exact cons_lt_cons (by omega) (by omega) fun _ => by omega
  · obtain ⟨hd, he'⟩ | ⟨hd, hd', he'⟩ | ⟨hd, hd', -, he'⟩ | ⟨hd, hd', he'⟩ := encodeChar_cases d
    · omega
    · omega
    · omega
    · rw [he, he']
      exact cons_lt_cons (by omega) (by omega) fun _ =>
        cons_lt_cons (by omega) (by omega) fun _ =>
        cons_lt_cons (by omega) (by omega) fun _ =>
        cons_lt_cons (by omega) (by omega) fun _ => by omega

theorem encode_lt {s t : List Char} (h : s < t) : encode s < encode t := by
  induction s generalizing t with
  | nil =>
    cases t with
    | nil => exact absurd h (List.not_lt_nil _)
    | cons d t =>
      obtain ⟨b, r, hb⟩ := List.exists_cons_of_ne_nil (String.utf8EncodeChar_ne_nil (c := d))
      rw [encode_cons, hb]
      exact List.nil_lt_cons b _
  | cons c s ih =>
    cases t with
    | nil => exact absurd h (List.not_lt_nil _)
    | cons d t =>
      rw [encode_cons, encode_cons]
      obtain hcd | ⟨rfl, hst⟩ := List.cons_lt_cons_iff.1 h
      · exact encodeChar_lt hcd _ _
      · exact List.append_left_lt (ih hst)

end Text.Utf8

theorem bytesOf_lt {s t : String} (h : s < t) : bytesOf s < bytesOf t :=
  Text.Utf8.encode_lt (String.lt_iff_toList_lt.1 h)

end PhaseKeeper
