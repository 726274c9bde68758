import Mathlib.Tactic.Common
import PhaseKeeper.Message.Payload
import PhaseKeeper.Proofs.MessagePack.Record
/-!
What goes out about jobs and workers: the request to match a job, the notice that a job is complete and
the health of a worker. Each is read back from its bytes just if its texts are not too long for the
format; for nothing with a longer text can be read at all.
-/
namespace PhaseKeeper

open MessagePack (Reads Ensures reads_text reads_writeRecord text_ensures read_ensures require_some
  writeText spells_writeText)

namespace MessagePack

theorem reads_variant {α : Type} {known : List (String × α)} {name : String} {a : α}
    (h : known.lookup name = some a) (hshort : (bytesOf name).length < UInt32.size) :
    Reads (variant known) (writeText name) a := by
  refine (spells_writeText hshort).reads.finish (Reads.lift ?_)
  simp only [variant.pick, variant.named, textOf_bytesOf, h]

end MessagePack

namespace MatchRequest
variable {m : MatchRequest}

structure Fits (m : MatchRequest) : Prop where
  jobId : (bytesOf m.jobId).length < UInt32.size
  industry : (bytesOf m.industry).length < UInt32.size
  productSetId : (bytesOf m.productSetId).length < UInt32.size
  videoSetId : (bytesOf m.videoSetId).length < UInt32.size

theorem fits_ofJob {jobId industry : String} : (ofJob jobId industry).Fits ↔
    (bytesOf jobId).length < UInt32.size ∧ (bytesOf industry).length < UInt32.size :=
  ⟨fun h => ⟨h.jobId, h.industry⟩, fun h => ⟨h.1, h.2, h.1, h.1⟩⟩

def text (m : MatchRequest) : Nat → String
  | 0 => m.jobId
  | 1 => m.industry
  | 2 => m.productSetId
  | _ => m.videoSetId

theorem reads_pack (h : m.Fits) :
    Reads parts.read m.pack ((List.range 4).map fun i => (i, m.text i)) := by
  refine reads_writeRecord (by decide) (by decide) (by decide) rfl fun i f hf => ?_
  have hpart {s : String} (hs : (bytesOf s).length < UInt32.size) :
      Reads (parts.part i) (writeText s) (i, s) :=
    (reads_text (spells_writeText hs)).map _
  match i with
  | 0 => cases hf; exact hpart h.jobId
  | 1 => cases hf; exact hpart h.industry
  | 2 => cases hf; exact hpart h.productSetId
  | 3 => cases hf; exact hpart h.videoSetId

theorem fits_of_unpack {bytes : Bytes} (h : unpack bytes = .ok m) : m.Fits := by
  obtain ⟨ps, hps, h⟩ := ok_of_bind h
  have hparts (i : Nat) :
      Ensures (parts.part i) fun p => (bytesOf p.2).length < UInt32.size :=
    text_ensures.map fun _ hs => hs
  have hfits := (read_ensures hparts).of_readAll hps
  have hfield {i : Nat} {name s : String} (hs : MessagePack.require ps name
      (fun p => if p.1 = i then some p.2 else none) = .ok s) : (bytesOf s).length < UInt32.size := by
    obtain ⟨p, hp, hpick⟩ := require_some hs
    obtain ⟨-, heq⟩ := Option.ite_none_right_eq_some.1 hpick
    cases heq
    exact hfits p hp
  obtain ⟨jobId, hjob, h⟩ := ok_of_bind h
  obtain ⟨industry, hindustry, h⟩ := ok_of_bind h
  obtain ⟨productSetId, hproduct, h⟩ := ok_of_bind h
  obtain ⟨videoSetId, hvideo, h⟩ := ok_of_bind h
  cases h
  exact ⟨hfield hjob, hfield hindustry, hfield hproduct, hfield hvideo⟩

theorem unpack_pack_iff (m : MatchRequest) : unpack m.pack = .ok m ↔ m.Fits := by
  refine ⟨fits_of_unpack, fun h => ?_⟩
  rw [unpack, (reads_pack h).readAll]
  rfl

end MatchRequest

namespace JobCompleted

theorem reads_pack {jobId : String} (h : (bytesOf jobId).length < UInt32.size) :
    Reads parts.read (JobCompleted.mk jobId).pack ((List.range 1).map fun _ => jobId) := by
  refine reads_writeRecord (by decide) (by decide) (by decide) rfl fun i f hf => ?_
  match i with
  | 0 => cases hf; exact reads_text (spells_writeText h)

theorem unpack_pack_iff (m : JobCompleted) :
    unpack m.pack = .ok m ↔ (bytesOf m.jobId).length < UInt32.size := by
  refine ⟨fun h => ?_, fun h => ?_⟩
  · obtain ⟨ps, hps, h⟩ := ok_of_bind h
    obtain ⟨jobId, hjob, h⟩ := ok_of_bind h
    cases h
    obtain ⟨s, hs, hpick⟩ := require_some hjob
    cases hpick
    exact (read_ensures fun _ => text_ensures).of_readAll hps _ hs
  · rw [unpack, (reads_pack h).readAll]
    rfl

end JobCompleted

namespace WorkerHealth

def part (h : WorkerHealth) : Nat → Part
  | 0 => .workerId h.workerId
  | _ => .status h.status

theorem reads_pack {h : WorkerHealth} (hshort : (bytesOf h.workerId).length < UInt32.size) :
    Reads parts.read h.pack ((List.range 2).map h.part) := by
  refine reads_writeRecord (by decide) (by decide) (by decide) rfl fun i f hf => ?_
  match i with
  | 0 => cases hf; exact (reads_text (spells_writeText hshort)).map _
  | 1 =>
    cases hf
    have hstatus : Reads (MessagePack.variant WorkerStatus.named) (writeText h.status.name)
        h.status := by
      cases h.status with
      | healthy => exact MessagePack.reads_variant rfl (by decide)
      | unhealthy => exact MessagePack.reads_variant rfl (by decide)
    exact hstatus.map _

def Part.Fits : Part → Prop
  | .workerId s => (bytesOf s).length < UInt32.size
  | .status _ => True

theorem parts_ensures (i : Nat) : Ensures (parts.part i) Part.Fits := by
  match i with
  | 0 => exact text_ensures.map fun _ hs => hs
  | _ + 1 => exact (Ensures.any _).map fun _ _ => trivial

theorem unpack_pack_iff (h : WorkerHealth) :
    unpack h.pack = .ok h ↔ (bytesOf h.workerId).length < UInt32.size := by
  refine ⟨fun hread => ?_, fun hshort => ?_⟩
  · obtain ⟨ps, hps, hread⟩ := ok_of_bind hread
    have hfits := (read_ensures parts_ensures).of_readAll hps
    obtain ⟨workerId, hworker, hread⟩ := ok_of_bind hread
    obtain ⟨status, -, hread⟩ := ok_of_bind hread
    cases hread
    obtain ⟨p, hp, hpick⟩ := require_some hworker
    cases p <;> cases hpick
    exact hfits _ hp
  · rw [unpack, (reads_pack hshort).readAll]
    obtain ⟨worker, _ | _⟩ := h <;> rfl

end WorkerHealth
end PhaseKeeper
