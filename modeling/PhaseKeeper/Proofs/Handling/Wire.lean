import Mathlib.Tactic.Common
import PhaseKeeper.Proofs.Handling.Acceptance
import PhaseKeeper.Proofs.Message.Payload
/-!
An event that arrives in a message is handled like the event itself, and whether it is refused
depends on its type and its identifiers only.
-/
namespace PhaseKeeper

section Payload
variable {t : String} {e : CompletionEvent}

theorem keysOnce_toJson (e : CompletionEvent) : e.toJson.KeysOnce := by
  obtain ⟨id, j, _ | b⟩ := e <;> simp [CompletionEvent.toJson, Json.KeysOnce]

theorem passable_toJson_iff : Passable t e.toJson ↔
    t ∈ Topic.completions ∧ ¬ Blank e.eventId ∧ ¬ Blank e.jobId := by
  have hid : e.toJson.get? "event_id" = some (.text e.eventId) := by
    obtain ⟨id, job, _ | b⟩ := e <;> rfl
  have hjob : e.toJson.get? "job_id" = some (.text e.jobId) := by
    obtain ⟨id, job, _ | b⟩ := e <;> rfl
  have hflag : e.toJson.Flags "has_partial_completion" := by
    obtain ⟨id, job, _ | b⟩ := e
    · exact .inl (.inl rfl)
    · exact .inr ⟨b, rfl⟩
  constructor
  · rintro ⟨ht, -, ⟨s, hs, hnot⟩, ⟨s', hs', hnot'⟩, -⟩
    rw [hid] at hs
    rw [hjob] at hs'
    cases hs
    cases hs'
    exact ⟨ht, hnot, hnot'⟩
  · rintro ⟨ht, hnot, hnot'⟩
    exact ⟨ht, ⟨_, rfl⟩, ⟨_, hid, hnot⟩, ⟨_, hjob, hnot'⟩, hflag⟩

end Payload

theorem handleEvent_rejected_iff {σ : Type} (answer : (r : Request) → σ → r.Reply × σ) (s : σ)
    {t : String} {e : CompletionEvent} :
    (∃ cause, ((handleEvent .standard t e.toJson).run answer s).1 = .rejected cause) ↔
      t ∉ Topic.completions ∨ Blank e.eventId ∨ Blank e.jobId := by
  rw [rejected_iff_refused answer s (keysOnce_toJson e), ← not_iff_not, not_refused_iff,
    passable_toJson_iff]
  tauto

/-- What a receiver makes of the event sent under the topic `t`: the message arrives, its payload is
the event for a receiver that knows the type and for one that does not, it is handled as the event
itself is, and with the standard schemas it is rejected just if the topic or an identifier says so.
-/
theorem wire_agrees {e : CompletionEvent} {t : String} {now : Instant} (random : Uuid)
    (hpack : e.pack.length < 2 ^ 32) (htopic : (bytesOf t).length < 2 ^ 32)
    (hnow : now.isValid = true) :
    ∃ m, Message.ofBytes ((⟨t, e.pack, none⟩ : Draft).stamp random now).toBytes = .ok m ∧
      CompletionEvent.unpack m.payload = .ok e ∧
      (∃ j, m.decodeValue = .ok j ∧ CompletionEvent.ofJson j = .ok e) ∧
      (∀ registry, handleMessage registry m = handleEvent registry t e.toJson) ∧
      ∀ {σ : Type} (answer : (r : Request) → σ → r.Reply × σ) (s : σ),
        (∃ cause, ((handleMessage .standard m).run answer s).1 = .rejected cause) ↔
          t ∉ Topic.completions ∨ Blank e.eventId ∨ Blank e.jobId := by
  have hvalue : MessagePack.readValue e.pack = .ok e.toJson := CompletionEvent.readValue_pack hpack
  have hhandle (registry) : handleMessage registry ((⟨t, e.pack, none⟩ : Draft).stamp random now) =
      handleEvent registry t e.toJson := by
    simp only [handleMessage, Message.decodeValue, Draft.stamp, hvalue]
  refine ⟨_, Message.ofBytes_toBytes ⟨htopic, hpack, hnow⟩, CompletionEvent.unpack_pack hpack,
    ⟨e.toJson, hvalue, CompletionEvent.ofJson_toJson e⟩, hhandle, fun answer s => ?_⟩
  rw [hhandle]
  exact handleEvent_rejected_iff answer s

def partialKeypoints : CompletionEvent := ⟨"e1", "j1", some true⟩

theorem wire_agrees_partial_keypoints : ∃ m,
    Message.ofBytes ((⟨Topic.videoKeypoints, partialKeypoints.pack, none⟩ : Draft).stamp
      .nil .epoch).toBytes = .ok m ∧
    CompletionEvent.unpack m.payload = .ok partialKeypoints ∧
    ∀ d : Deployment, ¬ ∃ cause, (d.perform 0 (handleMessage .standard m)).1 = .rejected cause := by
  obtain ⟨m, hm, hunpack, -, -, hrejected⟩ := wire_agrees (e := partialKeypoints)
    (t := Topic.videoKeypoints) .nil (by decide) (by decide) (show Instant.epoch.isValid by decide)
  refine ⟨m, hm, hunpack, fun d => ?_⟩
  have htopic : Topic.videoKeypoints ∈ Topic.completions := by simp [Topic.completions]
  have hevent : ¬ Blank partialKeypoints.eventId := not_blank 'e' (by simp [partialKeypoints]) rfl
  have hjob : ¬ Blank partialKeypoints.jobId := not_blank 'j' (by simp [partialKeypoints]) rfl
  rw [Deployment.perform, hrejected]
  rintro (h | h | h)
  · exact h htopic
  · exact hevent h
  · exact hjob h

end PhaseKeeper
