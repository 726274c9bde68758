import PhaseKeeper.Handling.Notice
/-! Messages about different jobs are different, and so are requests and notices. -/
namespace PhaseKeeper

theorem bytesOf_injective {s t : String} (h : bytesOf s = bytesOf t) : s = t := by
  have hs : s.toList.utf8Encode = t.toList.utf8Encode := congrArg List.toByteArray h
  rw [String.utf8Encode_toList, String.utf8Encode_toList] at hs
  exact String.toByteArray_inj.1 hs

namespace MessagePack

theorem length_toBigEndian (width n : Nat) : (toBigEndian width n).length = width := by
  induction width generalizing n with
  | zero => rfl
  | succ w ih => simp [toBigEndian, ih]

/-- The longer a text, the longer the head before it; so the whole tells how long the text is. -/
theorem writeText_injective {s t : String} (h : writeText s = writeText t) : s = t := by
  simp only [writeText] at h
  have hlen := congrArg List.length h
  simp only [List.length_append, apply_ite List.length, List.length_cons, List.length_nil,
    length_toBigEndian] at hlen
  have hn : (bytesOf s).length = (bytesOf t).length := by grind
  rw [hn] at h
  exact bytesOf_injective (List.append_cancel_left h)

end MessagePack

theorem JobCompleted.pack_injective {j k : String}
    (h : (JobCompleted.mk j).pack = (JobCompleted.mk k).pack) : j = k := by
  simp only [pack, MessagePack.writeRecord, List.flatMap_cons, List.flatMap_nil,
    List.append_nil] at h
  exact MessagePack.writeText_injective (List.append_cancel_left (List.append_cancel_left h))

theorem JobCompleted.draft_injective {j k : String}
    (h : (JobCompleted.mk j).draft = (JobCompleted.mk k).draft) : j = k :=
  pack_injective (congrArg Draft.payload h)

theorem JobCompleted.draft_ne_request (j k industry : String) :
    (JobCompleted.mk j).draft ≠ (MatchRequest.ofJob k industry).draft := by
  intro h
  have ht : Topic.jobCompleted = Topic.matchRequest := congrArg Draft.topic h
  exact absurd ht (by decide)

end PhaseKeeper
