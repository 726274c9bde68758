import Mathlib.Tactic.Common
import PhaseKeeper.Proofs.Message.Forms
/-!
The envelope on the wire. A message is read back as itself, and whatever is read as a message can be
written and read again.
-/
namespace PhaseKeeper.Message

open MessagePack (Ensures head_ensures text_ensures read_ensures require require_some writeListHead
  writeText writeBinary writeUInt spells_writeListHead spells_writeText spells_writeBinary
  spells_writeUInt)

theorem binary_ensures : Ensures binary fun bytes => bytes.length < UInt32.size := by
  refine head_ensures.bind fun h hb => ?_
  cases h with
  | text bytes => exact .pure hb
  | binary bytes => exact .pure hb
  | _ => exact .throw _

theorem instant_ensures : Ensures instant fun t => t.isValid = true := by
  refine (Ensures.any _).bind fun h _ => ?_
  cases h with
  | text bytes =>
    dsimp only
    cases ht : textOf bytes with
    | error fault => exact .throw _
    | ok s =>
      dsimp only
      cases hi : Instant.ofText s with
      | error e => exact .throw _
      | ok t => exact .pure (Instant.isValid_of_ofText hi)
  | _ => exact .throw _

/-- What the lengths of the format allow, at a moment that has a written form. -/
structure Fits (m : Message) : Prop where
  topic : (bytesOf m.topic).length < UInt32.size
  payload : m.payload.length < UInt32.size
  timestamp : m.timestamp.isValid = true

theorem written_toBytes {m : Message} (h : m.Fits) : m.Written m.toBytes := by
  have hcorrelation : m.correlationId.bytes.length < UInt32.size := by
    rw [m.correlationId.length_bytes]
    decide
  have hversion : m.version.toNat < UInt64.size := m.version.toNat_lt.trans (by decide)
  have hform : m.Written (writeListHead 5 ++ [writeText m.topic, writeBinary m.payload,
      writeText m.timestamp.text, writeBinary m.correlationId.bytes,
      writeUInt m.version.toNat].flatten) :=
    .list (spells_writeListHead (show 5 < UInt32.size by decide)) (.inl rfl)
      (.cons (.topic (spells_writeText h.topic))
        (.cons (.payload (spells_writeBinary h.payload))
          (.cons (.timestamp (spells_writeText (Instant.length_text_lt h.timestamp)))
            (.cons (.correlationId (spells_writeBinary hcorrelation))
              (.cons (.version (.inl (spells_writeUInt hversion))) .nil)))))
  simpa [toBytes] using hform

theorem ofBytes_toBytes {m : Message} (h : m.Fits) : ofBytes m.toBytes = .ok m := by
  have hread := ofBytes_written h.timestamp (written_toBytes h) []
  rwa [List.append_nil] at hread

def Part.Fits : Part → Prop
  | .topic s => (bytesOf s).length < UInt32.size
  | .payload bytes => bytes.length < UInt32.size
  | .timestamp t => t.isValid = true
  | _ => True

theorem parts_ensures (i : Nat) : Ensures (parts.part i) Part.Fits := by
  match i with
  | 0 => exact text_ensures.map fun _ hs => hs
  | 1 => exact binary_ensures.map fun _ hb => hb
  | 2 => exact instant_ensures.map fun _ ht => ht
  | 3 => exact (Ensures.any _).map fun _ _ => trivial
  | _ + 4 => exact (Ensures.any _).map fun _ _ => trivial

theorem fits_of_ofBytes {bytes : Bytes} {m : Message} (h : ofBytes bytes = .ok m) : m.Fits := by
  obtain ⟨ps, hps, h⟩ := ok_of_bind h
  have hfits := (read_ensures parts_ensures).of_readAll hps
  obtain ⟨topic, htopic, h⟩ := ok_of_bind h
  obtain ⟨payload, hpayload, h⟩ := ok_of_bind h
  obtain ⟨timestamp, htimestamp, h⟩ := ok_of_bind h
  obtain ⟨correlationId, -, h⟩ := ok_of_bind h
  cases h
  obtain ⟨p, hp, hpick⟩ := require_some htopic
  obtain ⟨q, hq, hpick'⟩ := require_some hpayload
  obtain ⟨r, hr, hpick''⟩ := require_some htimestamp
  constructor
  · cases p <;> cases hpick
    exact hfits _ hp
  · cases q <;> cases hpick'
    exact hfits _ hq
  · cases r <;> cases hpick''
    exact hfits _ hr

/-- Nothing but its lengths and its moment keeps a message from being read back. -/
theorem ofBytes_toBytes_iff {m : Message} : ofBytes m.toBytes = .ok m ↔ m.Fits :=
  ⟨fits_of_ofBytes, ofBytes_toBytes⟩

/-- A message is read back from its bytes as it was, and a message that was read from any bytes is
read again from its own. -/
theorem envelope_round_trip :
    (∀ m : Message, (bytesOf m.topic).length < 2 ^ 32 → m.payload.length < 2 ^ 32 →
      m.timestamp.isValid = true → ofBytes m.toBytes = .ok m) ∧
    ∀ bytes m, ofBytes bytes = .ok m → ofBytes m.toBytes = .ok m :=
  ⟨fun _ htopic hpayload htimestamp => ofBytes_toBytes ⟨htopic, hpayload, htimestamp⟩,
    fun _ _ h => ofBytes_toBytes (fits_of_ofBytes h)⟩

/-- A message of a leap second in the year 10000, whose payload is not UTF-8. -/
def inLeapSecond : Message := ⟨"é", [0xC1, 0xFF], ⟨253402300859, 1500000000⟩, .nil, 65535⟩

theorem envelope_round_trip_leap_second :
    inLeapSecond.timestamp.text = "+10000-01-01T00:00:60.500Z" ∧
      inLeapSecond.timestamp.isValid = true ∧ ofBytes inLeapSecond.toBytes = .ok inLeapSecond :=
  ⟨by decide, by decide, envelope_round_trip.2 _ _
    (envelope_round_trip.1 inLeapSecond (by decide) (by decide) (by decide))⟩

end PhaseKeeper.Message
