import Mathlib.Tactic.Common
import PhaseKeeper.Message.Envelope
import PhaseKeeper.Proofs.MessagePack.Record
import PhaseKeeper.Proofs.Time.Text
/-!
The forms of an envelope. A message may be written as a list or as a map, with its keys in any order
and others among them, and every length and number in any width. All of it is read as the message.
-/
namespace PhaseKeeper.Message

open MessagePack (Reads ReadError Spells Item reads_text reads_uint16 reads_items_all
  reads_entries_all reads_list reads_map read_long)

theorem reads_binary {body bytes : Bytes} (h : Spells (.binary body) bytes) :
    Reads binary bytes body :=
  h.reads.finish (.pure _)

theorem reads_instant {t : Instant} {bytes : Bytes} (h : t.isValid = true)
    (ht : Spells (.text (bytesOf t.text)) bytes) : Reads instant bytes t := by
  refine ht.reads.finish ?_
  simp only [textOf_bytesOf, Instant.ofText_text h]
  exact .pure t

theorem reads_identifier {u : Uuid} {bytes : Bytes} (h : Spells (.binary u.bytes) bytes) :
    Reads identifier bytes u := by
  have hof : Uuid.ofBytes? u.bytes = some u := dif_pos u.length_bytes
  refine h.reads.finish ?_
  simp only [hof]
  exact .pure u

/-- The forms of the fields, by their places. The version may be written as a signed number too. -/
inductive Field (m : Message) : Nat → Bytes → Prop where
  | topic {bytes : Bytes} (h : Spells (.text (bytesOf m.topic)) bytes) : m.Field 0 bytes
  | payload {bytes : Bytes} (h : Spells (.binary m.payload) bytes) : m.Field 1 bytes
  | timestamp {bytes : Bytes} (h : Spells (.text (bytesOf m.timestamp.text)) bytes) : m.Field 2 bytes
  | correlationId {bytes : Bytes} (h : Spells (.binary m.correlationId.bytes) bytes) :
    m.Field 3 bytes
  | version {bytes : Bytes}
    (h : Spells (.uint m.version.toNat) bytes ∨ Spells (.int m.version.toNat) bytes) :
    m.Field 4 bytes

def part (m : Message) : Nat → Part
  | 0 => .topic m.topic
  | 1 => .payload m.payload
  | 2 => .timestamp m.timestamp
  | 3 => .correlationId m.correlationId
  | _ => .version m.version

theorem reads_field {m : Message} (hm : m.timestamp.isValid = true) (i : Nat) (bytes : Bytes)
    (h : m.Field i bytes) : Reads (parts.part i) bytes (m.part i) := by
  cases h with
  | topic h => exact (reads_text h).map Part.topic
  | payload h => exact (reads_binary h).map Part.payload
  | timestamp h => exact (reads_instant hm h).map Part.timestamp
  | correlationId h => exact (reads_identifier h).map Part.correlationId
  | version h => exact (reads_uint16 h).map Part.version

/-- How many fields are enough: only the version, which is the last, may be left out, if it is 1. -/
def Suffice (m : Message) (n : Nat) : Prop := n = 5 ∨ n = 4 ∧ m.version = 1

/-- The bytes that say just this message. Among the entries of a map are others of any number, under
keys that are no fields. -/
inductive Written (m : Message) : Bytes → Prop where
  | list {front : Bytes} {fields : List Bytes} (hn : Spells (.list fields.length) front)
    (hall : m.Suffice fields.length)
    (h : List.Forall₂ m.Field (List.range fields.length) fields) :
    m.Written (front ++ fields.flatten)
  | map {front : Bytes} {entries : List (Option Nat × Bytes)} {n : Nat}
    (hn : Spells (.map entries.length) front) (hall : m.Suffice n)
    (hfields : (entries.filterMap Prod.fst).Perm (List.range n))
    (h : ∀ e ∈ entries, parts.Entry m.Field e.1 e.2) :
    m.Written (front ++ entries.flatMap Prod.snd)

theorem findSome?_of_mem {α β : Type} {f : α → Option β} {as : List α} {a : α} {b : β} (ha : a ∈ as)
    (hb : f a = some b) (honly : ∀ a, f a = some b ∨ f a = none) : as.findSome? f = some b := by
  cases h : as.findSome? f with
  | none => cases (List.findSome?_eq_none_iff.1 h a ha).symm.trans hb
  | some c =>
    obtain ⟨a', -, hc⟩ := List.exists_of_findSome?_eq_some h
    exact hc.symm.trans ((honly a').resolve_right (by simp [hc]))

def Picks {α : Type} (m : Message) (pick : Part → Option α) (a : α) : Prop :=
  ∀ j, pick (m.part j) = some a ∨ pick (m.part j) = none

section Parts
variable {m : Message} {is : List Nat}

section Pick
variable {α : Type} {pick : Part → Option α} {a : α} {i : Nat}

theorem picks_of_parts (htopic : pick (.topic m.topic) = some a ∨ pick (.topic m.topic) = none)
    (hpayload : pick (.payload m.payload) = some a ∨ pick (.payload m.payload) = none)
    (htimestamp : pick (.timestamp m.timestamp) = some a ∨ pick (.timestamp m.timestamp) = none)
    (hcorrelation : pick (.correlationId m.correlationId) = some a ∨
      pick (.correlationId m.correlationId) = none)
    (hversion : pick (.version m.version) = some a ∨ pick (.version m.version) = none) :
    m.Picks pick a
  | 0 => htopic
  | 1 => hpayload
  | 2 => htimestamp
  | 3 => hcorrelation
  | _ + 4 => hversion

theorem findSome?_part (hi : i ∈ is) (ha : pick (m.part i) = some a) (honly : m.Picks pick a) :
    (is.map m.part).findSome? pick = some a := by
  rw [List.findSome?_map]
  exact findSome?_of_mem (f := pick ∘ m.part) hi ha honly

theorem require_part {β : Type} {next : α → Except ReadError β} {b : β} {name : String}
    (hi : i ∈ is) (ha : pick (m.part i) = some a) (honly : m.Picks pick a) (h : next a = .ok b) :
    (MessagePack.require (is.map m.part) name pick >>= next) = .ok b := by
  rw [MessagePack.require, findSome?_part hi ha honly]
  exact h

theorem getD_part {d : α} (h : i ∈ is ∨ a = d) (ha : pick (m.part i) = some a)
    (honly : m.Picks pick a) : ((is.map m.part).findSome? pick).getD d = a := by
  obtain hi | hd := h
  · rw [findSome?_part hi ha honly]
    rfl
  · cases hfound : (is.map m.part).findSome? pick with
    | none => exact hd.symm
    | some b =>
      obtain ⟨p, hp, hb⟩ := List.exists_of_findSome?_eq_some hfound
      obtain ⟨j, -, rfl⟩ := List.mem_map.1 hp
      exact Option.some_inj.1 (hb.symm.trans ((honly j).resolve_right (by simp [hb])))

end Pick

theorem ofParts_part (hfields : ∀ i < 4, i ∈ is) (hversion : 4 ∈ is ∨ m.version = 1) :
    ofParts (is.map m.part) = .ok m := by
  rw [ofParts]
  refine require_part (hfields 0 (by decide)) rfl
    (picks_of_parts (.inl rfl) (.inr rfl) (.inr rfl) (.inr rfl) (.inr rfl)) ?_
  refine require_part (hfields 1 (by decide)) rfl
    (picks_of_parts (.inr rfl) (.inl rfl) (.inr rfl) (.inr rfl) (.inr rfl)) ?_
  refine require_part (hfields 2 (by decide)) rfl
    (picks_of_parts (.inr rfl) (.inr rfl) (.inl rfl) (.inr rfl) (.inr rfl)) ?_
  refine require_part (hfields 3 (by decide)) rfl
    (picks_of_parts (.inr rfl) (.inr rfl) (.inr rfl) (.inl rfl) (.inr rfl)) ?_
  refine congrArg (fun n => Except.ok { m with version := n }) ?_
  exact getD_part hversion rfl
    (picks_of_parts (.inr rfl) (.inr rfl) (.inr rfl) (.inr rfl) (.inl rfl))

end Parts

theorem Suffice.mem {m : Message} {n : Nat} (h : m.Suffice n) :
    (∀ i < 4, i ∈ List.range n) ∧ (4 ∈ List.range n ∨ m.version = 1) := by
  simp only [List.mem_range]
  obtain rfl | ⟨rfl, hv⟩ := h
  · exact ⟨fun i hi => by omega, .inl (by decide)⟩
  · exact ⟨fun i hi => hi, .inr hv⟩

theorem ofBytes_written {m : Message} {bytes : Bytes} (hm : m.timestamp.isValid = true)
    (h : m.Written bytes) (rest : Bytes) : ofBytes (bytes ++ rest) = .ok m := by
  -- A list yields its fields in order, a map in any order; the parts are the same.
  have key {is : List Nat} {n : Nat} (hall : m.Suffice n) (hfields : is.Perm (List.range n))
      (h : Reads parts.read bytes (is.map m.part)) : ofBytes (bytes ++ rest) = .ok m := by
    obtain ⟨hfirst, hversion⟩ := hall.mem
    rw [ofBytes, h.readAll_append]
    exact ofParts_part (fun i hi => hfields.mem_iff.2 (hfirst i hi))
      (hversion.imp_left hfields.mem_iff.2)
  cases h with
  | @list front fields hn hall hforms =>
    have hcount : fields.length = 5 ∨ fields.length = 4 := hall.imp_right And.left
    rw [List.range_eq_range'] at hforms
    refine key hall (List.range_eq_range' ▸ List.Perm.refl _) (reads_list hn ?_ ?_
      (reads_items_all (reads_field hm) hforms))
    · exact (show 4 ≤ fields.length by omega)
    · exact (show fields.length ≤ 5 by omega)
  | map hn hall hfields hforms =>
    exact key hall hfields (reads_map hn (reads_entries_all (by decide) (reads_field hm) hforms
      (hfields.nodup_iff.2 List.nodup_range)))

theorem ofBytes_long {n : Nat} {front : Bytes} (hn : Spells (.list n) front) (h : 5 < n)
    (rest : Bytes) : ∃ e, ofBytes (front ++ rest) = .error e := by
  obtain ⟨e, he⟩ := read_long (r := parts) hn h rest
  exact ⟨e, by rw [ofBytes, MessagePack.readAll, he]; rfl⟩

/-- A message is read as itself from any bytes that say it, as a list or as a map, whatever follows
them; and no list of more than five items is read as a message. -/
theorem wire_forms :
    (∀ (m : Message) (bytes rest : Bytes), m.timestamp.isValid = true → m.Written bytes →
      ofBytes (bytes ++ rest) = .ok m) ∧
    ∀ (n : Nat) (front rest : Bytes), 5 < n → Spells (.list n) front →
      ∃ e, ofBytes (front ++ rest) = .error e :=
  ⟨fun _ _ rest hm h => ofBytes_written hm h rest, fun _ _ rest h hn => ofBytes_long hn h rest⟩

def plain : Message := ⟨"é", [0xC1], .epoch, .nil, 1⟩

/-- The entries of `plain` as another writer may choose them: without the version, with keys of its
own, and hardly anything in its shortest form. -/
def abroad : List (Option Nat × Bytes) :=
  [(none, [0xA1, 0x78] ++ [0x81, 0xC0, 0x92, 0xCA, 0x3F, 0x80, 0, 0, 0xD0, 0xFF]),
    (some 3, [0xDB, 0, 0, 0, 14] ++ bytesOf "correlation_id" ++
      ([0xC6, 0, 0, 0, 16] ++ Uuid.nil.bytes)),
    (some 1, [0xA7] ++ bytesOf "payload" ++ [0xC5, 0, 1, 0xC1]),
    (some 2, [0xD9, 9] ++ bytesOf "timestamp" ++ ([0xDA, 0, 20] ++ bytesOf "1970-01-01T00:00:00Z")),
    (some 0, [0xA5] ++ bytesOf "topic" ++ [0xD9, 2, 0xC3, 0xA9]),
    (none, [0xC4, 1, 0xFF] ++ [0x90])]

theorem item_nested : Item 1022 [0x81, 0xC0, 0x92, 0xCA, 0x3F, 0x80, 0, 0, 0xD0, 0xFF] := by
  have hfloat : Item 1020 [0xCA, 0x3F, 0x80, 0, 0] :=
    .whole (.float32 (n := 0x3F800000) (by decide)) rfl
  have hint : Item 1020 [0xD0, 0xFF] :=
    .whole (.int (k := 0) (n := -1) (by decide) (by decide) (by decide)) rfl
  have hlist : Item 1021 ([0x92] ++ [[0xCA, 0x3F, 0x80, 0, 0], [0xD0, 0xFF]].flatten) :=
    .list (.fixList (by decide)) (by simp [hfloat, hint])
  have hnil : Item 1021 [0xC0] := .whole .nothing rfl
  have hmap : Item 1022 ([0x81] ++ [([0xC0], [0x92, 0xCA, 0x3F, 0x80, 0, 0, 0xD0, 0xFF])].flatMap
      fun e => e.1 ++ e.2) :=
    .map (.fixMap (by decide)) (by simpa using hnil) (by simpa using hlist)
  exact hmap

theorem entries_abroad : ∀ e ∈ abroad, parts.Entry plain.Field e.1 e.2 := by
  have hempty : Item 1022 ([0x90] ++ ([] : List Bytes).flatten) :=
    .list (.fixList (by decide)) (by simp)
  have htext : parts.Unknown (.text [0x78]) := by
    unfold MessagePack.Record.Unknown
    decide
  have hbinary : parts.Unknown (.binary [0xFF]) := by
    unfold MessagePack.Record.Unknown
    decide
  simp only [abroad, List.forall_mem_cons]
  refine ⟨.unknown (.fixText (by decide)) htext item_nested,
    .known rfl (.text (k := 2) (by decide) (by decide))
      (.correlationId (.binary (k := 2) (by decide) (by decide))),
    .known rfl (.fixText (by decide))
      (.payload (.binary (k := 1) (by decide) (by decide))),
    .known rfl (.text (k := 0) (by decide) (by decide))
      (.timestamp (.text (k := 1) (by decide) (by decide))),
    .known rfl (.fixText (by decide))
      (.topic (.text (k := 0) (by decide) (by decide))),
    .unknown (.binary (k := 0) (by decide) (by decide)) hbinary hempty, by simp⟩

theorem wire_forms_abroad :
    ofBytes ([0xDE, 0, 6] ++ abroad.flatMap Prod.snd ++ [0xC1]) = .ok plain ∧
      ∃ e, ofBytes ([0xDC, 0, 6] ++ plain.toBytes) = .error e := by
  have hmap : Spells (.map 6) [0xDE, 0, 6] := .map (k := 0) (by decide) (by decide)
  have hlist : Spells (.list 6) [0xDC, 0, 6] := .list (k := 0) (by decide) (by decide)
  have hfour : plain.Suffice 4 := .inr ⟨rfl, rfl⟩
  have hwritten : plain.Written ([0xDE, 0, 6] ++ abroad.flatMap Prod.snd) :=
    .map hmap hfour (by decide) entries_abroad
  exact ⟨wire_forms.1 plain _ [0xC1] (by decide) hwritten, wire_forms.2 6 _ _ (by decide) hlist⟩

end PhaseKeeper.Message
