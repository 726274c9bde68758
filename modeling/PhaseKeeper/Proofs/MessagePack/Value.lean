import Mathlib.Tactic.Common
import PhaseKeeper.Proofs.Json.Fit
import PhaseKeeper.Proofs.MessagePack.Head
import PhaseKeeper.Proofs.Text.Utf8
/-!
JSON values in MessagePack. A value that fits is read back as itself if it is not nested too deep,
and refused for its depth if it is; and nothing else is ever read.
-/
namespace PhaseKeeper.MessagePack

open Json (Fits FitsItems FitsMembers Ordered depthItems depthMembers)

theorem reads_text {s : String} {bytes : Bytes} (h : Spells (.text (bytesOf s)) bytes) :
    Reads text bytes s := by
  refine h.reads.finish ?_
  simp only [text.ofUtf8, textOf_bytesOf]
  exact .pure s

theorem reads_firstKey {s : String} (h : (bytesOf s).length < UInt32.size) :
    Reads firstKey (writeText s) s := by
  refine (spells_writeText h).reads.finish ?_
  simp only [textOf_bytesOf]
  exact .pure s

def entry (read : Reader Json) : Reader (String × Json) := do
  let k ← text
  let j ← read
  return (k, j)

theorem reads_entry {read : Reader Json} {k : String} {j : Json} {bytes : Bytes}
    (hk : (bytesOf k).length < UInt32.size) (h : Reads read bytes j) :
    Reads (entry read) (writeText k ++ bytes) (k, j) :=
  (reads_text (spells_writeText hk)).bind (h.finish (.pure _))

def Head.isWhole : Head → Bool
  | .list _ | .map _ | .extension _ => false
  | _ => true

theorem reads_scalar (d : Nat) {bytes : Bytes} {h : Head} {j : Json} (hread : Reads head bytes h)
    (hwhole : h.isWhole = true) (hj : Reads (value.scalar h) [] j) : Reads (value d) bytes j := by
  cases d with
  | zero =>
    refine hread.finish ?_
    cases h <;> first | exact hj | cases hwhole
  | succ d =>
    refine hread.finish ?_
    cases h <;> first | exact hj | cases hwhole

theorem reads_int (d : Nat) {n : Int} (h : (Json.int n).Fits) :
    Reads (value d) (writeInt n) (.int n) := by
  obtain ⟨hlow, hhigh⟩ := h
  simp only [writeInt]
  split_ifs with hn
  · refine reads_scalar d (spells_writeUInt (n := n.toNat) (by omega)).reads rfl ?_
    simp only [value.scalar, Int.toNat_of_nonneg hn]
    exact .pure _
  · refine reads_scalar d (spells_writeNegative (n := n.natAbs) (by omega) (by omega)).reads rfl ?_
    simp only [value.scalar, show -(n.natAbs : Int) = n by omega]
    exact .pure _

mutual

theorem reads_value (d : Nat) : (j : Json) → j.Fits → j.depth ≤ d → Reads (value d) (write j) j
  | .null, _, _ => reads_scalar d Spells.nothing.reads rfl (.pure _)
  | .bool b, _, _ => reads_scalar d (Spells.bool b).reads rfl (.pure _)
  | .int n, h, _ => reads_int d h
  | .float bits, h, _ => by
    refine reads_scalar d (Spells.float64 bits).reads rfl ?_
    simp only [value.scalar, finite, if_pos (show Binary64.isFinite bits = true from h)]
    exact .pure _
  | .text s, h, _ => by
    refine reads_scalar d (spells_writeText h).reads rfl ?_
    simp only [value.scalar, textOf_bytesOf]
    exact .pure _
  | .list items, h, hd => by
    cases d with
    | zero => simp [Json.depth] at hd
    | succ d =>
      simp only [Json.depth, Nat.add_le_add_iff_right] at hd
      exact (spells_writeListHead h.1).reads.bind ((reads_items d items h.2 hd).map _)
  | .object members, h, hd => by
    cases d with
    | zero => simp [Json.depth] at hd
    | succ d =>
      simp only [Json.depth, Nat.add_le_add_iff_right] at hd
      have hread := (reads_members d members h.2.2 hd).map Json.ofMembers
      rw [Json.ofMembers_ordered h.2.1] at hread
      exact (spells_writeMapHead h.1).reads.bind hread

theorem reads_items (d : Nat) : (items : List Json) → FitsItems items → depthItems items ≤ d →
    Reads (times (value d) items.length) (writeItems items) items
  | [], _, _ => .pure _
  | j :: r, h, hd => by
    obtain ⟨hj, hr⟩ := max_le_iff.1 hd
    exact (reads_value d j h.1 hj).bind ((reads_items d r h.2 hr).finish (.pure _))

theorem reads_entries (d : Nat) : (members : List (String × Json)) → FitsMembers members →
    depthMembers members ≤ d → Reads (times (entry (value d)) members.length)
      (writeMembers members) members
  | [], _, _ => .pure _
  | (k, j) :: r, h, hd => by
    obtain ⟨hj, hr⟩ := max_le_iff.1 hd
    exact (reads_entry h.1 (reads_value d j h.2.1 hj)).bind ((reads_entries d r h.2.2 hr).finish (.pure _))

theorem reads_members (d : Nat) : (ms : List (String × Json)) → FitsMembers ms →
    depthMembers ms ≤ d → Reads (members (value d) ms.length) (writeMembers ms) ms
  | [], _, _ => .pure _
  | (k, j) :: r, h, hd => by
    obtain ⟨hj, hr⟩ := max_le_iff.1 hd
    rw [writeMembers, List.append_assoc]
    exact (reads_firstKey h.1).bind ((reads_value d j h.2.1 hj).bind
      ((reads_entries d r h.2.2 hr).finish (.pure _)))

end

mutual

theorem fails_value (d : Nat) : (j : Json) → j.Fits → d < j.depth →
    Fails (value d) (write j) .tooDeep
  | .list items, h, hd => by
    cases d with
    | zero =>
      have hhead : Fails (value 0) (writeListHead items.length) .tooDeep :=
        .finish (spells_writeListHead h.1).reads (.throw _)
      exact hhead.append _
    | succ d =>
      simp only [Json.depth, Nat.add_lt_add_iff_right] at hd
      exact .bind (spells_writeListHead h.1).reads ((fails_items d items h.2 hd).map _)
  | .object members, h, hd => by
    cases d with
    | zero =>
      have hhead : Fails (value 0) (writeMapHead members.length) .tooDeep :=
        .finish (spells_writeMapHead h.1).reads (.throw _)
      exact hhead.append _
    | succ d =>
      simp only [Json.depth, Nat.add_lt_add_iff_right] at hd
      exact .bind (spells_writeMapHead h.1).reads ((fails_members d members h.2.2 hd).map _)
  | .null, _, hd | .bool _, _, hd | .int _, _, hd | .float _, _, hd | .text _, _, hd => by
    simp [Json.depth] at hd

theorem fails_items (d : Nat) : (items : List Json) → FitsItems items → d < depthItems items →
    Fails (times (value d) items.length) (writeItems items) .tooDeep
  | [], _, hd => by simp [depthItems] at hd
  | j :: r, h, hd => by
    by_cases hj : d < j.depth
    · exact (Fails.first (fails_value d j h.1 hj)).append _
    · have hr : d < depthItems r := (lt_max_iff.1 hd).resolve_left hj
      exact .bind (reads_value d j h.1 (not_lt.1 hj)) (.first (fails_items d r h.2 hr))

theorem fails_entries (d : Nat) : (members : List (String × Json)) → FitsMembers members →
    d < depthMembers members →
    Fails (times (entry (value d)) members.length) (writeMembers members) .tooDeep
  | [], _, hd => by simp [depthMembers] at hd
  | (k, j) :: r, h, hd => by
    by_cases hj : d < j.depth
    · have hentry : Fails (entry (value d)) (writeText k ++ write j) .tooDeep :=
        .bind (reads_text (spells_writeText h.1)) (.first (fails_value d j h.2.1 hj))
      exact (Fails.first hentry).append _
    · have hr : d < depthMembers r := (lt_max_iff.1 hd).resolve_left hj
      exact .bind (reads_entry h.1 (reads_value d j h.2.1 (not_lt.1 hj)))
        (.first (fails_entries d r h.2.2 hr))

theorem fails_members (d : Nat) : (ms : List (String × Json)) → FitsMembers ms →
    d < depthMembers ms → Fails (members (value d) ms.length) (writeMembers ms) .tooDeep
  | [], _, hd => by simp [depthMembers] at hd
  | (k, j) :: r, h, hd => by
    by_cases hj : d < j.depth
    · exact (Fails.bind (reads_firstKey h.1) (.first (fails_value d j h.2.1 hj))).append _
    · have hr : d < depthMembers r := (lt_max_iff.1 hd).resolve_left hj
      rw [writeMembers, List.append_assoc]
      exact .bind (reads_firstKey h.1) (.bind (reads_value d j h.2.1 (not_lt.1 hj))
        (.first (fails_entries d r h.2.2 hr)))

end

theorem length_of_textOf {bytes : Bytes} {s : String} (ht : textOf bytes = .ok s)
    (h : bytes.length < UInt32.size) : (bytesOf s).length < UInt32.size := by
  rwa [bytesOf_of_textOf ht]

theorem ofUtf8_ensures {bad : Text.Utf8.Fault → ReadError} {bytes : Bytes}
    (h : bytes.length < UInt32.size) :
    Ensures (text.ofUtf8 bad bytes) fun s => (bytesOf s).length < UInt32.size := by
  simp only [text.ofUtf8]
  cases ht : textOf bytes with
  | error fault => exact .throw _
  | ok s => exact .pure (length_of_textOf ht h)

theorem text_ensures : Ensures text fun s => (bytesOf s).length < UInt32.size := by
  refine head_ensures.bind fun h hb => ?_
  cases h with
  | text bytes => exact ofUtf8_ensures hb
  | binary bytes => exact ofUtf8_ensures hb
  | _ => exact .throw _

theorem firstKey_ensures : Ensures firstKey fun s => (bytesOf s).length < UInt32.size := by
  refine head_ensures.bind fun h hb => ?_
  cases h with
  | text bytes => exact @ofUtf8_ensures .badText bytes hb
  | _ => exact .throw _

/-- What can be read with a budget of `d`. -/
def Readable (d : Nat) (j : Json) : Prop := j.Fits ∧ j.depth ≤ d

theorem scalar_ensures (d : Nat) {h : Head} (hb : h.Bounded) :
    Ensures (value.scalar h) (Readable d) := by
  cases h with
  | nothing => exact .pure ⟨trivial, Nat.zero_le d⟩
  | bool b => exact .pure ⟨trivial, Nat.zero_le d⟩
  | uint n => exact .pure ⟨⟨by omega, Int.ofNat_lt.2 hb⟩, Nat.zero_le d⟩
  | int n => exact .pure ⟨⟨hb.1, hb.2.trans (by decide)⟩, Nat.zero_le d⟩
  | float bits =>
    refine .pure ?_
    simp only [finite]
    split_ifs with hf
    · exact ⟨hf, Nat.zero_le d⟩
    · exact ⟨trivial, Nat.zero_le d⟩
  | text bytes =>
    simp only [value.scalar]
    cases ht : textOf bytes with
    | error fault => exact .throw _
    | ok s => exact .pure ⟨length_of_textOf ht hb, Nat.zero_le d⟩
  | binary bytes => exact .throw _
  | list n => exact .throw _
  | map n => exact .throw _
  | extension n => exact .throw _

theorem members_ensures {read : Reader Json} {P : Json → Prop} (h : Ensures read P) (n : Nat) :
    Ensures (members read n) fun ms => ms.length = n ∧
      ∀ m ∈ ms, (bytesOf m.1).length < UInt32.size ∧ P m.2 := by
  cases n with
  | zero => exact .pure ⟨rfl, fun a ha => absurd ha List.not_mem_nil⟩
  | succ n =>
    have hentry : Ensures (entry read) fun m => (bytesOf m.1).length < UInt32.size ∧ P m.2 :=
      text_ensures.bind fun k hk => h.bind fun j hj => .pure ⟨hk, hj⟩
    refine firstKey_ensures.bind fun k hk => h.bind fun j hj =>
      (times_ensures hentry n).bind fun r hr => .pure ⟨?_, ?_⟩
    · rw [List.length_cons, hr.1]
    · exact List.forall_mem_cons.2 ⟨⟨hk, hj⟩, hr.2⟩

theorem readable_list {d n : Nat} {items : List Json} (hn : n < UInt32.size)
    (h : items.length = n ∧ ∀ j ∈ items, Readable d j) : Readable (d + 1) (.list items) := by
  obtain ⟨rfl, hall⟩ := h
  exact ⟨⟨hn, Json.fitsItems_iff.2 fun j hj => (hall j hj).1⟩,
    Nat.succ_le_succ (Json.depthItems_le_iff.2 fun j hj => (hall j hj).2)⟩

theorem readable_object {d n : Nat} {ms : List (String × Json)} (hn : n < UInt32.size)
    (h : ms.length = n ∧ ∀ m ∈ ms, (bytesOf m.1).length < UInt32.size ∧ Readable d m.2) :
    Readable (d + 1) (.ofMembers ms) := by
  obtain ⟨rfl, hall⟩ := h
  obtain ⟨kept, heq, hordered, hlen, hkept⟩ := Json.ofMembers_spec ms
  have hmember (m) (hm : m ∈ kept) := hall m (hkept m hm)
  rw [heq]
  exact ⟨⟨Nat.lt_of_le_of_lt hlen hn, hordered,
      Json.fitsMembers_iff.2 fun m hm => ⟨(hmember m hm).1, (hmember m hm).2.1⟩⟩,
    Nat.succ_le_succ (Json.depthMembers_le_iff.2 fun m hm => (hmember m hm).2.2)⟩

theorem value_ensures (d : Nat) : Ensures (value d) (Readable d) := by
  induction d with
  | zero =>
    refine head_ensures.bind fun h hb => ?_
    cases h with
    | list n => exact .throw _
    | map n => exact .throw _
    | extension n => exact .throw _
    | _ => exact scalar_ensures 0 hb
  | succ d ih =>
    refine head_ensures.bind fun h hb => ?_
    cases h with
    | list n => exact (times_ensures ih n).map fun items hi => readable_list hb hi
    | map n => exact (members_ensures ih n).map fun ms hms => readable_object hb hms
    | _ => exact scalar_ensures (d + 1) hb

/-- A value comes back as itself just if it fits and is not nested too deep. -/
theorem readValue_write_iff (j : Json) :
    readValue (write j) = .ok j ↔ j.Fits ∧ j.depth ≤ maxDepth :=
  ⟨fun h => (value_ensures maxDepth).of_readAll h,
    fun h => (reads_value maxDepth j h.1 h.2).readAll⟩

theorem readValue_tooDeep {j : Json} (h : j.Fits) (hd : maxDepth < j.depth) :
    readValue (write j) = .error .tooDeep :=
  (fails_value maxDepth j h hd).readAll

end PhaseKeeper.MessagePack
