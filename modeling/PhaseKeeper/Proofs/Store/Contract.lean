import PhaseKeeper.Proofs.Interleaving.Pact
import PhaseKeeper.Proofs.Store.Tables
/-!
The two stores keep one contract: whatever they are asked for, in whatever order, they reply the same,
and they go on holding the same jobs and events. Only an event that is to be refused for two reasons is
refused for one by the memory store and for the other by the database.
-/
namespace PhaseKeeper

theorem Phase.name_injective {p q : Phase} (h : p.name = q.name) : p = q := by
  have hp := p.ofName?_name
  rw [h, q.ofName?_name] at hp
  exact (Option.some.inj hp).symm

/-- A job is created, unless there is one with its identifier. -/
def MemoryStore.create (s : MemoryStore) (job : Job) : MemoryStore :=
  if (s.job? job.id).isSome then s else s.insertJob job

/-- Two reasons to refuse an event: it is recorded already, and its job does not exist. -/
def StoreCall.DoublyWrong (s : MemoryStore) : StoreCall → Prop
  | .insertEvent e => s.recorded e.eventId = true ∧ s.job? e.jobId = none
  | _ => False

namespace Tables
open Relational (Query)

def answerQuery : (q : Query) → Tables → q.Reply × Tables
  | .run s, t => t.execute s
  | .report _, t => ((), t)

def call (t : Tables) (c : StoreCall) : c.Reply × Tables := (Relational.answer c).run answerQuery t

/-- The tables hold the same jobs and events as a memory store in which nothing fails. -/
structure Mirrors (t : Tables) (s : MemoryStore) : Prop where
  calm : s.Calm
  record : ∀ j, t.record? j = (s.job? j).map JobRecord.ofJob
  events : ∀ row, row ∈ t.events ↔ ∃ e ∈ s.ledger, EventRecord.ofEntry e = row

variable {t : Tables} {s : MemoryStore} {j k : String} {p : Phase}

theorem run_statement {α : Type} (s : Statement) (f : s.Reply → Relational.Querying α)
    (t : Tables) : (Relational.run s >>= f).run answerQuery t =
      (f (t.execute s).1).run answerQuery (t.execute s).2 := rfl

namespace Mirrors

theorem any_events (h : t.Mirrors s) (f : EventRecord → Bool) :
    t.events.any f = s.ledger.any (f ∘ EventRecord.ofEntry) := by
  refine Bool.eq_iff_iff.2 ?_
  simp only [List.any_eq_true, h.events, Function.comp_apply]
  constructor
  · rintro ⟨_, ⟨e, he, rfl⟩, hf⟩
    exact ⟨e, he, hf⟩
  · rintro ⟨e, he, hf⟩
    exact ⟨_, ⟨e, he, rfl⟩, hf⟩

theorem answer_eq (h : t.Mirrors s) (now : Instant) (c : StoreCall) :
    s.answer now c = MemoryStore.perform now c s := by
  rw [MemoryStore.answer, if_neg]
  simp [MemoryStore.fails, h.calm.faults]

theorem call_phaseOf (h : t.Mirrors s) (now : Instant) (j : String) :
    t.call (.phaseOf j) = ((s.answer now (.phaseOf j)).1, t) := by
  have hphase : (t.record? j).map JobRecord.phase = (s.phase? j).map Phase.name := by
    rw [h.record, MemoryStore.phase?, Option.map_map, Option.map_map]
    rfl
  rw [h.answer_eq]
  change (Relational.phaseOf j).run answerQuery t = (.ok (s.phase? j), t)
  rw [Relational.phaseOf, run_statement]
  simp only [execute, hphase]
  cases s.phase? j with
  | none => rfl
  | some p =>
    simp only [Option.map_some, Phase.parse, Phase.ofName?_name]
    rfl

theorem call_assetsOf (h : t.Mirrors s) (now : Instant) (j : String) :
    t.call (.assetsOf j) = ((s.answer now (.assetsOf j)).1, t) := by
  have hflags : t.flags? j =
      (s.job? j).map fun job => (some job.assets.images, some job.assets.videos) := by
    rw [flags?, h.record, Option.map_map]
    rfl
  rw [h.answer_eq]
  change (Relational.assetsOf j).run answerQuery t = _
  rw [Relational.assetsOf, run_statement]
  simp only [execute, hflags, MemoryStore.perform]
  cases s.job? j <;> rfl

theorem call_industryOf (h : t.Mirrors s) (now : Instant) (j : String) :
    t.call (.industryOf j) = ((s.answer now (.industryOf j)).1, t) := by
  have hindustry : (t.record? j).map JobRecord.industry = (s.job? j).map Job.industry := by
    rw [h.record, Option.map_map]
    rfl
  rw [h.answer_eq]
  change (Relational.industryOf j).run answerQuery t = _
  rw [Relational.industryOf, run_statement]
  simp only [execute, hindustry, MemoryStore.perform]
  cases s.job? j <;> rfl

theorem call_hasEvent (h : t.Mirrors s) (now : Instant) (j eventType : String) :
    t.call (.hasEvent j eventType) = ((s.answer now (.hasEvent j eventType)).1, t) := by
  have hany : (t.events.any fun e => e.jobId = j ∧ e.eventType = eventType) =
      s.hasEvent j eventType := by
    rw [h.any_events, MemoryStore.hasEvent]
    congr 1
    funext e
    exact Bool.decide_and _ _
  rw [h.answer_eq]
  change (Except.ok _, t) = (Except.ok _, t)
  rw [hany]

theorem call_swapPhase (h : t.Mirrors s) (j : String) (p q : Phase) :
    t.call (.swapPhase j p q) =
      (.ok (s.phase? j = some p), (t.execute (.swapPhase j p q)).2) := by
  have hcount : ((t.record? j).filter fun r => r.phase = p.name).toList.length =
      if s.phase? j = some p then 1 else 0 := by
    rw [h.record, MemoryStore.phase?]
    cases s.job? j with
    | none => rfl
    | some job =>
      by_cases hp : job.phase = p
      · simp [JobRecord.ofJob, hp]
      · have hname : job.phase.name ≠ p.name := fun he => hp (Phase.name_injective he)
        simp [JobRecord.ofJob, hp, hname]
  change (Relational.swapPhase j p q).run answerQuery t = _
  rw [Relational.swapPhase, run_statement, swap_count, hcount]
  by_cases hp : s.phase? j = some p <;> simp [hp] <;> rfl

theorem hits_iff {job : Job} (hk : s.job? k = some job) :
    ((JobRecord.ofJob job).id = j ∧ (JobRecord.ofJob job).phase = p.name) ↔
      k = j ∧ s.phase? j = some p := by
  have hid : (JobRecord.ofJob job).id = k := MemoryStore.job_id hk
  rw [hid]
  refine and_congr_right fun hj => ?_
  rw [← hj, MemoryStore.phase_of_job hk, Option.some.injEq]
  exact ⟨fun hn => Phase.name_injective hn, congrArg Phase.name⟩

theorem swapped (h : t.Mirrors s) (now : Instant) (j : String) (p q : Phase) :
    (t.execute (.swapPhase j p q)).2.Mirrors (s.answer now (.swapPhase j p q)).2 ∧
      (s.answer now (.swapPhase j p q)).1 = .ok (s.phase? j = some p) := by
  have hs := MemoryStore.swapped_answer h.calm.pending j p q now
  generalize s.answer now (.swapPhase j p q) = x at hs
  obtain ⟨x, s'⟩ := x
  dsimp only at hs
  cases hs with
  | failed cause hf => exact absurd h.calm.faults hf
  | lost hl =>
    refine ⟨⟨h.calm, fun k => ?_, h.events⟩, by simp [hl]⟩
    rw [record_swap, h.record]
    cases hk : s.job? k with
    | none => rfl
    | some job =>
      have hmiss := mt (hits_iff (p := p) (j := j) hk).1 fun hit => hl hit.2
      simp only [Option.map_some, if_neg hmiss]
  | done hm =>
    refine ⟨⟨⟨hm.faults.trans h.calm.faults, hm.pending.trans h.calm.pending⟩, fun k => ?_, ?_⟩, ?_⟩
    · rw [record_swap, h.record]
      by_cases hkj : k = j
      · subst hkj
        obtain ⟨job, hk, -⟩ := MemoryStore.phase_eq_some hm.was
        obtain ⟨_, hk'⟩ := hm.job hk
        simp only [hk, hk', Option.map_some, if_pos ((hits_iff hk).2 ⟨rfl, hm.was⟩)]
        rfl
      · have hsame : s'.job? k = s.job? k := by
          rw [MemoryStore.job?, hm.other hkj, MemoryStore.job?]
        rw [hsame]
        cases hk : s.job? k with
        | none => rfl
        | some job =>
          have hmiss := mt (hits_iff (p := p) (j := j) hk).1 fun hit => hkj hit.1
          simp only [Option.map_some, if_neg hmiss]
    · intro row
      rw [hm.ledger]
      exact h.events row
    · simp [hm.was]

theorem recorded_iff (h : t.Mirrors s) (id : String) :
    id ∈ t.events.map EventRecord.eventId ↔ s.recorded id = true := by
  have hany := h.any_events fun row => row.eventId = id
  simp only [List.mem_map, MemoryStore.recorded]
  rw [show (fun e : LedgerEntry => decide (e.eventId = id)) =
    (fun row : EventRecord => decide (row.eventId = id)) ∘ EventRecord.ofEntry from rfl, ← hany]
  simp

theorem job_iff (h : t.Mirrors s) (j : String) :
    j ∈ t.jobs.map JobRecord.id ↔ (s.job? j).isSome = true := by
  rw [mem_ids, ← Option.isSome_iff_exists, h.record, Option.isSome_map]

theorem append (h : t.Mirrors s) {e : LedgerEntry}
    (hkey : e.eventId ∉ t.events.map EventRecord.eventId)
    (hjob : e.jobId ∈ t.jobs.map JobRecord.id) :
    (t.append (.ofEntry e) hkey hjob).Mirrors { s with ledger := s.ledger ++ [e] } where
  calm := ⟨h.calm.faults, h.calm.pending⟩
  record := h.record
  events := by
    intro row
    simp only [Tables.append, List.mem_append, List.mem_singleton, h.events, or_and_right,
      exists_or, exists_eq_left]
    exact or_congr_right eq_comm

theorem call_insertEvent (t : Tables) (e : LedgerEntry) :
    t.call (.insertEvent e) =
      if e.eventId ∈ t.events.map EventRecord.eventId then
        (.error (.alreadyRecorded e.eventId), t)
      else if e.jobId ∈ t.jobs.map JobRecord.id then (.ok (), (t.execute (.insertEvent e)).2)
      else (.error (.jobNotFound e.jobId), t) := by
  change (Relational.insertEvent e).run answerQuery t = _
  rw [Relational.insertEvent, run_statement]
  by_cases hkey : e.eventId ∈ t.events.map EventRecord.eventId
  · simp only [execute, dif_pos hkey, if_pos hkey]
    rfl
  · by_cases hjob : e.jobId ∈ t.jobs.map JobRecord.id
    · simp only [execute_insert hkey hjob, if_neg hkey, if_pos hjob]
      rfl
    · simp only [execute, dif_neg hkey, dif_neg hjob, if_neg hkey, if_neg hjob]
      rfl

theorem inserted (h : t.Mirrors s) (now : Instant) (e : LedgerEntry)
    (hc : ¬ (StoreCall.insertEvent e).DoublyWrong s) :
    (t.call (.insertEvent e)).1 = (s.answer now (.insertEvent e)).1 ∧
      (t.call (.insertEvent e)).2.Mirrors (s.answer now (.insertEvent e)).2 := by
  have hi := s.inserted_answer e now
  generalize s.answer now (.insertEvent e) = x at hi
  obtain ⟨x, s'⟩ := x
  dsimp only at hi
  rw [call_insertEvent]
  cases hi with
  | failed reason hf => exact absurd h.calm.faults hf
  | known hk =>
    rw [if_pos ((h.recorded_iff _).2 hk)]
    exact ⟨rfl, h⟩
  | homeless hj =>
    have hkey : e.eventId ∉ t.events.map EventRecord.eventId := fun hm =>
      hc ⟨(h.recorded_iff _).1 hm, hj⟩
    have hjob : e.jobId ∉ t.jobs.map JobRecord.id := by simp [h.job_iff, hj]
    rw [if_neg hkey, if_neg hjob]
    exact ⟨rfl, h⟩
  | done hr =>
    have hkey : e.eventId ∉ t.events.map EventRecord.eventId := by simp [h.recorded_iff, hr.fresh]
    have hjob : e.jobId ∈ t.jobs.map JobRecord.id := (h.job_iff _).2 hr.job
    rw [if_neg hkey, if_pos hjob, execute_insert hkey hjob, hr.eq]
    exact ⟨rfl, h.append hkey hjob⟩

theorem refused (h : t.Mirrors s) (now : Instant) {e : LedgerEntry}
    (hc : (StoreCall.insertEvent e).DoublyWrong s) :
    s.answer now (.insertEvent e) = (.error (.jobNotFound e.jobId), s) ∧
      t.call (.insertEvent e) = (.error (.alreadyRecorded e.eventId), t) := by
  obtain ⟨hk, hj⟩ := hc
  have hrow : (s.row? e.jobId).isNone := by simpa [MemoryStore.job?] using hj
  constructor
  · rw [h.answer_eq]
    exact if_pos hrow
  · rw [call_insertEvent, if_pos ((h.recorded_iff _).2 hk)]

theorem call (h : t.Mirrors s) (now : Instant) (c : StoreCall) :
    (¬ c.DoublyWrong s → (t.call c).1 = (s.answer now c).1) ∧
      (t.call c).2.Mirrors (s.answer now c).2 := by
  cases c with
  | phaseOf j =>
    rw [h.call_phaseOf now, (s.answer_phaseOf j now).1]
    exact ⟨fun _ => rfl, h⟩
  | assetsOf j =>
    rw [h.call_assetsOf now, (s.answer_assetsOf j now).1]
    exact ⟨fun _ => rfl, h⟩
  | hasEvent j eventType =>
    rw [h.call_hasEvent now, (s.answer_hasEvent j eventType now).1]
    exact ⟨fun _ => rfl, h⟩
  | industryOf j =>
    rw [h.call_industryOf now, s.answer_industryOf j now]
    exact ⟨fun _ => rfl, h⟩
  | swapPhase j p q =>
    rw [h.call_swapPhase, (h.swapped now j p q).2]
    exact ⟨fun _ => rfl, (h.swapped now j p q).1⟩
  | insertEvent e =>
    by_cases hc : (StoreCall.insertEvent e).DoublyWrong s
    · refine ⟨fun hn => absurd hc hn, ?_⟩
      rw [(h.refused now hc).1, (h.refused now hc).2]
      exact h
    · exact ⟨fun _ => (h.inserted now e hc).1, (h.inserted now e hc).2⟩

theorem empty : Tables.empty.Mirrors .empty where
  calm := ⟨rfl, rfl⟩
  record _ := rfl
  events _ := by simp [Tables.empty, MemoryStore.empty]

theorem create (h : t.Mirrors s) (job : Job) : (t.create (.ofJob job)).Mirrors (s.create job) := by
  have hid : (JobRecord.ofJob job).id = job.id := rfl
  unfold MemoryStore.create Tables.create
  by_cases hj : (s.job? job.id).isSome
  · rw [if_pos hj, dif_pos (hid ▸ (h.job_iff job.id).2 hj)]
    exact h
  · have hkey : (JobRecord.ofJob job).id ∉ t.jobs.map JobRecord.id := fun hm => hj ((h.job_iff _).1 hm)
    rw [if_neg hj, dif_neg hkey]
    refine ⟨⟨h.calm.faults, h.calm.pending⟩, fun k => ?_, h.events⟩
    have hrecord := record_create t (.ofJob job) k
    rw [Tables.create, dif_neg hkey] at hrecord
    have hjob : (s.insertJob job).job? k = if job.id = k then some job else s.job? k := by
      rw [MemoryStore.job?, MemoryStore.row_insertJob]
      split <;> rfl
    rw [hrecord, h.record, hjob, hid]
    by_cases hk : job.id = k
    · have hnone : s.job? k = none := by simpa [hk] using hj
      simp [hk, hnone]
    · simp [hk]

end Mirrors

end Tables

inductive StoreAction where
  | call (now : Instant) (c : StoreCall)
  | create (job : Job)

def MemoryStore.follow (s : MemoryStore) (actions : List StoreAction) : MemoryStore :=
  actions.foldl (fun s action =>
    match action with
    | .call now c => (s.answer now c).2
    | .create job => s.create job) s

def Tables.follow (t : Tables) (actions : List StoreAction) : Tables :=
  actions.foldl (fun t action =>
    match action with
    | .call _ c => (t.call c).2
    | .create job => t.create (.ofJob job)) t

theorem Tables.Mirrors.follow {t : Tables} {s : MemoryStore} (h : t.Mirrors s)
    (actions : List StoreAction) : (t.follow actions).Mirrors (s.follow actions) := by
  induction actions generalizing t s with
  | nil => exact h
  | cons action actions ih =>
    cases action with
    | call now c => exact ih (h.call now c).2
    | create job => exact ih (h.create job)

end PhaseKeeper
