import PhaseKeeper.Proofs.Sequence.Erasure
import PhaseKeeper.Proofs.Sequence.Likeness
/-!
How many events an engine keeps in mind makes no difference to jobs, ledger and messages. It only decides
who notices that an event came before, the engine or its store; and the store can fail to.
-/
namespace PhaseKeeper

namespace MemoryStore
variable {s s' : MemoryStore} {e e' : LedgerEntry}

theorem untimed_eq_iff : s.untimed = s'.untimed ↔
    s.rows.map JobRow.untimed = s'.rows.map JobRow.untimed ∧
      s.ledger.map LedgerEntry.untimed = s'.ledger.map LedgerEntry.untimed ∧
      s.faults = s'.faults ∧ s.pending = s'.pending :=
  iff_of_eq (MemoryStore.mk.injEq ..)

theorem insertEntry_untimed (hs : s.untimed = s'.untimed) (he : e.untimed = e'.untimed) :
    (s.insertEntry e).1 = (s'.insertEntry e').1 ∧
      (s.insertEntry e).2.untimed = (s'.insertEntry e').2.untimed := by
  obtain ⟨hrows, hledger, hfaults, hpending⟩ := untimed_eq_iff.1 hs
  obtain ⟨hid, hjob, -⟩ : e.eventId = e'.eventId ∧ e.jobId = e'.jobId ∧ _ :=
    LedgerEntry.mk.inj he
  have hrow : (s.row? e'.jobId).isNone = (s'.row? e'.jobId).isNone := by
    have h := congrArg (fun s => (s.row? e'.jobId).isNone) hs
    simpa only [row_untimed, Option.isNone_map] using h
  have hrecorded : s.recorded e'.eventId = s'.recorded e'.eventId := by
    rw [← recorded_untimed, hs, recorded_untimed]
  simp only [insertEntry, hid, hjob, hrow, hrecorded]
  cases (s'.row? e'.jobId).isNone with
  | true => exact ⟨rfl, hs⟩
  | false =>
    cases s'.recorded e'.eventId with
    | true => exact ⟨rfl, hs⟩
    | false =>
      have hnew : (s.ledger ++ [e]).map LedgerEntry.untimed =
          (s'.ledger ++ [e']).map LedgerEntry.untimed := by
        rw [List.map_append, List.map_append, hledger, List.map_singleton, List.map_singleton, he]
      exact ⟨rfl, untimed_eq_iff.2 ⟨hrows, hnew, hfaults, hpending⟩⟩

theorem insert_untimed (hs : s.untimed = s'.untimed) (he : e.untimed = e'.untimed)
    (now now' : Instant) :
    (s.answer now (.insertEvent e)).1 = (s'.answer now' (.insertEvent e')).1 ∧
      (s.answer now (.insertEvent e)).2.untimed = (s'.answer now' (.insertEvent e')).2.untimed := by
  have hjob : e.jobId = e'.jobId := (LedgerEntry.mk.inj he).2.1
  have hfails : s.fails .insertEvent e.jobId = s'.fails .insertEvent e'.jobId := by
    rw [fails, fails, (untimed_eq_iff.1 hs).2.2.1, hjob]
  by_cases hf : s.fails .insertEvent e.jobId = true
  · have h : s.answer now (.insertEvent e) = (.error _, s) := if_pos hf
    have h' : s'.answer now' (.insertEvent e') = (.error _, s') := if_pos (hfails.symm.trans hf)
    rw [h, h']
    refine ⟨?_, hs⟩
    simp only [StoreCall.op, StoreCall.jobId, hjob]
  · have h : s.answer now (.insertEvent e) = s.insertEntry e := if_neg hf
    have h' : s'.answer now' (.insertEvent e') = s'.insertEntry e' :=
      if_neg fun hf' => hf (hfails.trans hf')
    rw [h, h']
    exact insertEntry_untimed hs he

end MemoryStore

namespace Deployment
variable {d d' : Deployment}

theorem Alike.likeness (e : Errand) : Likeness Alike e where
  congr := by
    intro d d' c c' h hs hb hs' hb'
    exact (of_eq hs hb).symm.trans (h.trans (of_eq hs' hb'))
  recorded := by
    intro d d' h
    rw [← MemoryStore.recorded_untimed, h.store, MemoryStore.recorded_untimed]
  insert := by
    intro d d' h member now now'
    have he : (e.entryAt now).untimed = (e.entryAt now').untimed := rfl
    have hinsert := MemoryStore.insert_untimed h.store he d.clock d'.clock
    exact ⟨hinsert.1, hinsert.2, h.bus⟩
  move := fun h hr member => h.answer hr member

theorem Alike.follow (h : d.Alike d') (hs : d.Sound) (hs' : d'.Sound) (script : List Command) :
    (d.follow script).Alike (d'.follow script) := by
  induction script generalizing d d' with
  | nil => exact h
  | cons c cs ih => exact ih (h.obey hs hs' c).2 (hs.obey c) (hs'.obey c)

theorem deliver_of_none {call : Call} (hnone : call.errand? = none) (d d' : Deployment) :
    (d.deliver call).1 = (d'.deliver call).1 := by
  cases call.handling_cases with
  | inl h =>
    obtain ⟨-, cause, hh⟩ := h
    rw [deliver, deliver, hh]
    rfl
  | inr h =>
    obtain ⟨e, he, -⟩ := h
    rw [hnone] at he
    cases he

/-- Engines that were built with these capacities over what is there, and have seen nothing yet. -/
def upon (store : MemoryStore) (bus : RecordingBus) (clock : Instant) (capacities : List Nat) :
    Deployment :=
  { ofCapacities capacities clock with store, bus }

theorem sound_upon (store : MemoryStore) (bus : RecordingBus) (clock : Instant)
    (capacities : List Nat) : (upon store bus clock capacities).Sound := by
  intro id hc
  have hnew := sound_ofCapacities capacities clock id hc
  cases hnew

end Deployment

theorem Outcome.Blurs.congr {d d' : Deployment} {e : Errand} {o o' : Outcome}
    (h : Blurs d.store e o o') (halike : d.Alike d') : Blurs d'.store e o o' := by
  cases h with
  | failed cause hf =>
    rw [MemoryStore.fails, (MemoryStore.untimed_eq_iff.1 halike.store).2.2.1] at hf
    exact .failed cause hf
  | homeless hj =>
    have hjob := congrArg (·.job? e.event.jobId) halike.store
    simp only [MemoryStore.job_untimed, hj, Option.map_none] at hjob
    exact .homeless (Option.map_eq_none_iff.1 hjob.symm)

/-- Whatever is done, it comes to the same whatever the capacities; and every delivery has the same
outcome, unless its event is recorded, one side says so, and the store of the other fails to record it or
does not know its job. -/
theorem capacity_immaterial (store : MemoryStore) (bus : RecordingBus) (clock clock' : Instant)
    (capacities capacities' : List Nat) (script : List Command) :
    let d := (Deployment.upon store bus clock capacities).follow script
    let d' := (Deployment.upon store bus clock' capacities').follow script
    d.Alike d' ∧ ∀ call, (d.deliver call).1 = (d'.deliver call).1 ∨
      ∃ e, call.errand? = some e ∧ d.store.recorded e.event.eventId = true ∧
        (Outcome.Blurs d.store e (d.deliver call).1 (d'.deliver call).1 ∨
          Outcome.Blurs d.store e (d'.deliver call).1 (d.deliver call).1) := by
  intro d d'
  have hs : d.Sound := (Deployment.sound_upon store bus clock capacities).follow script
  have hs' : d'.Sound := (Deployment.sound_upon store bus clock' capacities').follow script
  have halike : d.Alike d' := by
    have hstart : (Deployment.upon store bus clock capacities).Alike
        (Deployment.upon store bus clock' capacities') := ⟨rfl, rfl⟩
    exact hstart.follow (Deployment.sound_upon _ _ _ _) (Deployment.sound_upon _ _ _ _) script
  refine ⟨halike, fun call => ?_⟩
  -- what is in a cache is recorded, so only how a repeated event is turned away can differ
  cases he : call.errand? with
  | none => exact .inl (Deployment.deliver_of_none he d d')
  | some e =>
    have hsame := ((Deployment.Alike.likeness e).deliver halike hs hs' he).2
    apply hsame.imp_right
    intro hdiffers
    refine ⟨e, rfl, ?_⟩
    cases hdiffers with
    | inl h => exact ⟨hs _ h.1, .inl (h.2.congr halike.symm)⟩
    | inr h =>
      refine ⟨?_, .inr h.2⟩
      rw [(Deployment.Alike.likeness e).recorded halike]
      exact hs' _ h.1

end PhaseKeeper
