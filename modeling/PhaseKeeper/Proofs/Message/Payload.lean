import Mathlib.Tactic.Common
import PhaseKeeper.Message.Payload
import PhaseKeeper.Proofs.Message.Envelope
/-!
Payloads on the wire: any JSON value, and the event of completed work, which is read back both as
the typed event and as the JSON value of that event.
-/
namespace PhaseKeeper

open MessagePack (Reads ReadError maxDepth readValue readValue_write_iff readValue_tooDeep write
  writeText writeMapHead writeMembers spells_writeText spells_writeMapHead reads_members reads_text
  reads_optionalBool reads_entries_field reads_entries_nil reads_map)

/-- The payload of a message is read as the JSON value that it was made of just if that value fits
and is nested at most 1023 deep; nested deeper, it is refused for its depth. -/
theorem payload_round_trip (v : Json) (topic jobId : String) (u random : Uuid) (now : Instant)
    {d : Draft} (hd : d ∈ [⟨topic, write v, none⟩, ⟨topic, write v, some u⟩,
      .ofJob topic jobId (write v)]) :
    ((d.stamp random now).decodeValue = .ok v ↔ v.Fits ∧ v.depth ≤ 1023) ∧
      (v.Fits → 1023 < v.depth → (d.stamp random now).decodeValue = .error .tooDeep) := by
  have hpayload : (d.stamp random now).decodeValue = readValue (write v) := by
    simp only [List.mem_cons, List.not_mem_nil, or_false] at hd
    obtain rfl | rfl | rfl := hd <;> rfl
  rw [hpayload]
  exact ⟨readValue_write_iff v, readValue_tooDeep⟩

def nestedPair : Nat → Json
  | 0 => .list [.int 1, .float 0x3FF0000000000000]
  | n + 1 => .list [nestedPair n]

theorem nestedPair_fits (n : Nat) : (nestedPair n).Fits ∧ (nestedPair n).depth = n + 1 := by
  induction n with
  | zero =>
    have hfinite : Binary64.isFinite 0x3FF0000000000000 = true := by decide
    simp [nestedPair, Json.Fits, Json.FitsItems, Json.depth, Json.depthItems, hfinite, UInt32.size]
  | succ n ih => simp [nestedPair, Json.Fits, Json.FitsItems, Json.depth, Json.depthItems, ih]

theorem payload_round_trip_nested :
    ((⟨"t", write (nestedPair 1022), none⟩ : Draft).stamp .nil .epoch).decodeValue =
        .ok (nestedPair 1022) ∧
      ((Draft.ofJob "t" "j" (write (nestedPair 1023))).stamp .nil .epoch).decodeValue =
        .error .tooDeep := by
  obtain ⟨hfits, hdepth⟩ := nestedPair_fits 1022
  obtain ⟨hfits', hdepth'⟩ := nestedPair_fits 1023
  constructor
  · exact (payload_round_trip _ "t" "j" .nil .nil .epoch List.mem_cons_self).1.2
      ⟨hfits, hdepth.le⟩
  · refine (payload_round_trip _ "t" "j" .nil .nil .epoch ?_).2 hfits' ?_
    · simp
    · rw [hdepth']
      decide

namespace CompletionEvent
variable {e : CompletionEvent}

def members (e : CompletionEvent) : List (String × Json) :=
  [("event_id", .text e.eventId), ("job_id", .text e.jobId)] ++
    match e.partialCompletion with
      | some b => [("has_partial_completion", .bool b)]
      | none => []

theorem pack_eq (e : CompletionEvent) :
    e.pack = writeMapHead e.members.length ++ writeMembers e.members := by
  obtain ⟨id, job, _ | b⟩ := e <;>
    simp [pack, members, MessagePack.writeRecord, writeMembers, write]

theorem ofMembers_members (e : CompletionEvent) : Json.ofMembers e.members = e.toJson := by
  obtain ⟨id, job, _ | b⟩ := e <;> rfl

theorem ofJson_toJson (e : CompletionEvent) : ofJson e.toJson = .ok e := by
  obtain ⟨id, job, _ | b⟩ := e <;> rfl

theorem length_of_pack (h : e.pack.length < UInt32.size) :
    (bytesOf e.eventId).length < UInt32.size ∧ (bytesOf e.jobId).length < UInt32.size := by
  have htext (s : String) : (bytesOf s).length ≤ (writeText s).length := by
    simp [writeText]
  have hid := htext e.eventId
  have hjob := htext e.jobId
  simp only [pack, MessagePack.writeRecord, List.cons_append, List.nil_append, List.flatMap_cons,
    List.length_append] at h
  omega

theorem fitsMembers (h : e.pack.length < UInt32.size) : Json.FitsMembers e.members := by
  obtain ⟨hid, hjob⟩ := length_of_pack h
  have hkey : (bytesOf "event_id").length < UInt32.size ∧ (bytesOf "job_id").length < UInt32.size ∧
    (bytesOf "has_partial_completion").length < UInt32.size := by decide
  refine Json.fitsMembers_iff.2 fun m hm => ?_
  obtain ⟨id, job, flag⟩ := e
  cases flag with
  | none =>
    simp only [members, List.append_nil, List.mem_cons, List.not_mem_nil, or_false] at hm
    obtain rfl | rfl := hm
    · exact ⟨hkey.1, hid⟩
    · exact ⟨hkey.2.1, hjob⟩
  | some b =>
    simp only [members, List.cons_append, List.nil_append, List.mem_cons, List.not_mem_nil,
      or_false] at hm
    obtain rfl | rfl | rfl := hm
    · exact ⟨hkey.1, hid⟩
    · exact ⟨hkey.2.1, hjob⟩
    · exact ⟨hkey.2.2, trivial⟩

theorem readValue_pack (h : e.pack.length < UInt32.size) : readValue e.pack = .ok e.toJson := by
  have hcount : e.members.length ≤ 3 := by
    obtain ⟨id, job, _ | b⟩ := e <;> simp [members]
  have hsize : e.members.length < UInt32.size := Nat.lt_of_le_of_lt hcount (by decide)
  have hdepth : Json.depthMembers e.members ≤ 1022 := by
    obtain ⟨id, job, _ | b⟩ := e <;> simp [members, Json.depthMembers, Json.depth]
  have hread : Reads (MessagePack.value maxDepth) e.pack (.ofMembers e.members) := by
    rw [pack_eq]
    exact (spells_writeMapHead hsize).reads.bind ((reads_members 1022 _ (fitsMembers h) hdepth).map _)
  rw [readValue, hread.readAll, ofMembers_members]

theorem reads_identifiers {id job : String} {n : Nat} {back : Bytes} {ps : List Part}
    (hid : (bytesOf id).length < UInt32.size) (hjob : (bytesOf job).length < UInt32.size)
    (h : Reads (parts.entries [1, 0] n) back ps) :
    Reads (parts.entries [] (n + 2)) (writeText "event_id" ++ writeText id ++
      (writeText "job_id" ++ writeText job ++ back)) (.eventId id :: .jobId job :: ps) :=
  reads_entries_field (spells_writeText (by decide)) (by decide) rfl
    ((reads_text (spells_writeText hid)).map _)
    (reads_entries_field (spells_writeText (by decide)) (by decide) rfl
      ((reads_text (spells_writeText hjob)).map _) h)

theorem reads_pack (h : e.pack.length < UInt32.size) : Reads parts.read e.pack
    ([.eventId e.eventId, .jobId e.jobId] ++ (match e.partialCompletion with
      | some b => [.partialCompletion (some b)]
      | none => [])) := by
  obtain ⟨hid, hjob⟩ := length_of_pack h
  obtain ⟨id, job, flag⟩ := e
  cases flag with
  | none =>
    have hread := reads_identifiers hid hjob (reads_entries_nil parts _)
    exact reads_map (spells_writeMapHead (show 2 < UInt32.size by decide)) (by simpa using hread)
  | some b =>
    have hkey := spells_writeText (s := "has_partial_completion") (by decide)
    have hflag := reads_entries_field (r := parts) (i := 2) hkey (by decide) (by decide)
      ((reads_optionalBool b).map Part.partialCompletion) (reads_entries_nil parts [2, 1, 0])
    have hread := reads_identifiers hid hjob hflag
    exact reads_map (spells_writeMapHead (show 3 < UInt32.size by decide)) (by simpa using hread)

theorem unpack_pack (h : e.pack.length < UInt32.size) : unpack e.pack = .ok e := by
  rw [unpack, (reads_pack h).readAll]
  obtain ⟨id, job, _ | b⟩ := e <;> rfl

end CompletionEvent

end PhaseKeeper
