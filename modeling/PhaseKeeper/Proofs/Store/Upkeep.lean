import Mathlib.Data.List.Nodup
import Mathlib.Tactic.Common
import PhaseKeeper.Proofs.Sequence.Script
/-!
What can be relied on in a memory store, whatever has been done to it: jobs were created and created
again, calls were made to fail, writes by others were set up, and calls were made. Nothing here needs the
store to be free of faults or of pending writes.
-/
namespace PhaseKeeper

namespace MemoryStore

inductive Operation where
  /-- A job that is there already is replaced. -/
  | create (job : Job)
  | fail (op : StoreOp) (jobId : Option String)
  | recover
  | interleave (jobId : String) (phase : Phase)
  | call (now : Instant) (c : StoreCall)

def operate (s : MemoryStore) : Operation → MemoryStore
  | .create job => s.insertJob job
  | .fail op j => s.fail op j
  | .recover => s.recover
  | .interleave j p => s.interleave j p
  | .call now c => (s.answer now c).2

def undergo (s : MemoryStore) (ops : List Operation) : MemoryStore := ops.foldl operate s

/-- What is recorded under an identifier. -/
def entryOf? (s : MemoryStore) (id : String) : Option LedgerEntry := s.ledger.find? (·.eventId = id)

/-- The phase of a job once the pending write on it is carried out. -/
def settledPhase? (s : MemoryStore) (j : String) : Option Phase :=
  (s.phase? j).map fun p => (s.pending.lookup j).getD p

variable {s s' : MemoryStore} {now : Instant} {j k : String} {p q : Phase}

theorem mem_putRow {row r : JobRow} {rows : List JobRow} (h : r ∈ putRow row rows) :
    r = row ∨ r ∈ rows := by
  induction rows with
  | nil => exact .inl (List.mem_singleton.1 h)
  | cons r' rows ih =>
    rw [putRow] at h
    split_ifs at h
    · exact (List.mem_cons.1 h).imp_right (List.mem_cons_of_mem r')
    · obtain rfl | h := List.mem_cons.1 h
      · exact .inr List.mem_cons_self
      · exact (ih h).imp_right (List.mem_cons_of_mem r')

theorem ids_putRow (row : JobRow) (rows : List JobRow) :
    (putRow row rows).map (·.job.id) = if row.job.id ∈ rows.map (·.job.id)
      then rows.map (·.job.id) else rows.map (·.job.id) ++ [row.job.id] := by
  induction rows with
  | nil => rfl
  | cons r rows ih =>
    by_cases h : r.job.id = row.job.id
    · simp [putRow, h]
    · rw [putRow, if_neg h, List.map_cons, ih, List.map_cons]
      simp only [List.mem_cons, Ne.symm h, false_or]
      split_ifs <;> rfl

theorem lookup_withoutPending (s : MemoryStore) (j k : String) :
    (s.withoutPending j).pending.lookup k = if k = j then none else s.pending.lookup k := by
  change (s.pending.filter (·.1 ≠ j)).lookup k = _
  induction s.pending with
  | nil => simp
  | cons x xs ih => grind

theorem lookup_interleave (s : MemoryStore) (j k : String) (p : Phase) :
    (s.interleave j p).pending.lookup k = if k = j then some p else s.pending.lookup k := by
  change ((j, p) :: (s.withoutPending j).pending).lookup k = _
  rw [List.lookup_cons, lookup_withoutPending]
  by_cases h : k = j
  · simp [h]
  · simp [h, beq_eq_false_iff_ne.2 h]

theorem pending_settle (s : MemoryStore) (j : String) :
    (s.settle j).pending = (s.withoutPending j).pending := by
  unfold settle
  split <;> rfl

theorem row_settle (s : MemoryStore) (j : String) : (s.settle j).row? j =
    (s.row? j).map fun r => ((s.pending.lookup j).map r.write).getD r := by
  unfold settle
  cases hr : s.row? j with
  | none => exact hr
  | some r =>
    cases s.pending.lookup j with
    | none => exact hr
    | some p => exact Spares.row_putRow (s := s.withoutPending j) hr rfl

theorem phase_settle (s : MemoryStore) (j : String) : (s.settle j).phase? j = s.settledPhase? j := by
  rw [settledPhase?, phase?, job?, row_settle, phase?, job?]
  cases s.row? j with
  | none => rfl
  | some r => cases s.pending.lookup j <;> rfl

theorem history_settle (s : MemoryStore) (j : String) : (s.settle j).history j =
    s.history j ++ if (s.job? j).isSome then (s.pending.lookup j).toList else [] := by
  rw [history, row_settle, history, job?]
  cases s.row? j with
  | none => rfl
  | some r => cases s.pending.lookup j <;> simp [JobRow.write]

theorem swap_cases (now : Instant) (s : MemoryStore) (j : String) (p q : Phase) :
    (s.phase? j = some p ∧ (s.swap now j p q).1 = true ∧ s.Moved j p q (s.swap now j p q).2) ∨
      s.phase? j ≠ some p ∧ s.swap now j p q = (false, s) := by
  unfold swap
  cases hr : s.row? j with
  | none => exact .inr ⟨by simp [phase?, job?, hr], rfl⟩
  | some r =>
    have hphase : s.phase? j = some r.job.phase := by simp [phase?, job?, hr]
    by_cases hp : r.job.phase = p
    · simp only [hp, if_true]
      exact .inl ⟨hp ▸ hphase, trivial, moved_putRow hr hp now⟩
    · simp only [hp, if_false]
      exact .inr ⟨fun h => hp (Option.some.inj (hphase.symm.trans h)), trivial⟩

/-- What a swap of a job comes to. Whatever it returns, a write that was pending on the job is carried
out and is pending no longer. -/
structure Attempted (s : MemoryStore) (j : String) (p q : Phase) (swapped : Bool)
    (s' : MemoryStore) : Prop where
  swapped_iff : swapped = true ↔ s.settledPhase? j = some p
  history : s'.history j =
    s.history j ++ (if (s.job? j).isSome then (s.pending.lookup j).toList else []) ++
      if swapped then [q] else []
  other : ∀ {k}, k ≠ j → s'.row? k = s.row? k
  pending : s'.pending = (s.withoutPending j).pending
  ledger : s'.ledger = s.ledger
  faults : s'.faults = s.faults

theorem attempted_swap (now : Instant) (s : MemoryStore) (j : String) (p q : Phase) :
    s.Attempted j p q ((s.settle j).swap now j p q).1 ((s.settle j).swap now j p q).2 := by
  have hsettle := Spares.settle s j
  have hpending := pending_settle s j
  cases (s.settle j).swap_cases now j p q with
  | inl h =>
    obtain ⟨hp, hswapped, hmoved⟩ := h
    exact {
      swapped_iff := iff_of_true hswapped (phase_settle s j ▸ hp)
      history := by rw [hmoved.history, history_settle, hswapped, if_pos rfl]
      other := fun hk => (hmoved.other hk).trans (hsettle.other hk)
      pending := hmoved.pending.trans hpending
      ledger := hmoved.ledger.trans hsettle.ledger
      faults := hmoved.faults.trans hsettle.faults }
  | inr h =>
    obtain ⟨hp, hlost⟩ := h
    rw [hlost]
    exact {
      swapped_iff := iff_of_false Bool.false_ne_true (phase_settle s j ▸ hp)
      history := by simp [history_settle]
      other := hsettle.other
      pending := hpending
      ledger := hsettle.ledger
      faults := hsettle.faults }

theorem answer_swap (now : Instant) (s : MemoryStore) (j : String) (p q : Phase) :
    (s.fails .swapPhase j = true ∧
        ∃ cause, s.answer now (.swapPhase j p q) = (.error cause, s)) ∨
      s.fails .swapPhase j = false ∧ ∃ swapped,
        (s.answer now (.swapPhase j p q)).1 = .ok swapped ∧
          s.Attempted j p q swapped (s.answer now (.swapPhase j p q)).2 := by
  cases hf : s.fails .swapPhase j with
  | true => exact .inl ⟨rfl, _, if_pos hf⟩
  | false =>
    have hworks : s.answer now (.swapPhase j p q) = perform now (.swapPhase j p q) s :=
      if_neg (Bool.eq_false_iff.1 hf)
    rw [hworks]
    exact .inr ⟨rfl, _, rfl, attempted_swap now s j p q⟩

theorem answer_error {c : StoreCall} {cause : StoreFault} (h : (s.answer now c).1 = .error cause) :
    (s.answer now c).2 = s := by
  cases c with
  | phaseOf j => exact (s.answer_phaseOf j now).1
  | assetsOf j => exact (s.answer_assetsOf j now).1
  | hasEvent j t => exact (s.answer_hasEvent j t now).1
  | industryOf j => exact s.answer_industryOf j now
  | swapPhase j p q =>
    obtain ⟨-, cause', hx⟩ | ⟨-, swapped, hx, -⟩ := s.answer_swap now j p q
    · rw [hx]
    · rw [hx] at h
      cases h
  | insertEvent e =>
    have hi := s.inserted_answer e now
    generalize s.answer now (.insertEvent e) = x at h hi
    obtain ⟨x, s'⟩ := x
    dsimp only at h hi ⊢
    cases hi with
    | done => cases h
    | known | homeless | failed => rfl

/-- Each key stands for one thing, histories end in the phase of their job, and recorded events are
those of jobs. -/
structure WellKept (s : MemoryStore) : Prop where
  jobs : (s.rows.map (·.job.id)).Nodup
  history : ∀ r ∈ s.rows, r.history.getLast? = some r.job.phase
  entries : (s.ledger.map (·.eventId)).Nodup
  housed : ∀ e ∈ s.ledger, e.jobId ∈ s.rows.map (·.job.id)

theorem wellKept_empty : WellKept empty := ⟨.nil, nofun, .nil, nofun⟩

theorem row_iff_mem_ids : (s.row? j).isSome ↔ j ∈ s.rows.map (·.job.id) := by
  simp [row?, List.find?_isSome]

theorem getLast_write (r : JobRow) (p : Phase) : (r.write p).history.getLast? = some p := by
  simp [JobRow.write]

namespace WellKept

theorem putRow (h : s.WellKept) {row : JobRow} (hrow : row.history.getLast? = some row.job.phase) :
    WellKept { s with rows := putRow row s.rows } where
  jobs := by
    rw [ids_putRow]
    split_ifs with hm
    · exact h.jobs
    · rw [← List.concat_eq_append]
      exact List.Nodup.concat hm h.jobs
  history r hr := by
    obtain rfl | hr := mem_putRow hr
    · exact hrow
    · exact h.history r hr
  entries := h.entries
  housed e he := by
    rw [ids_putRow]
    split_ifs
    · exact h.housed e he
    · exact List.mem_append_left _ (h.housed e he)

theorem withoutPending (h : s.WellKept) (j : String) : (s.withoutPending j).WellKept := { h with }

theorem settle (h : s.WellKept) (j : String) : (s.settle j).WellKept := by
  unfold MemoryStore.settle
  split
  · exact (h.withoutPending j).putRow (getLast_write _ _)
  · exact h.withoutPending j

theorem swap (h : s.WellKept) (now : Instant) (j : String) (p q : Phase) :
    (s.swap now j p q).2.WellKept := by
  unfold MemoryStore.swap
  split
  · exact h
  · split
    · exact h.putRow (getLast_write _ _)
    · exact h

theorem recorded {e : LedgerEntry} (h : s.WellKept) (hr : s.Recorded e s') : s'.WellKept := by
  rw [hr.eq]
  refine { h with entries := ?_, housed := fun e' he' => ?_ }
  · rw [List.map_append, List.map_singleton, ← List.concat_eq_append]
    refine List.Nodup.concat (fun hid => ?_) h.entries
    obtain ⟨e', he', heq⟩ := List.mem_map.1 hid
    have hknown : s.recorded e.eventId = true := List.any_eq_true.2 ⟨e', he', by simpa using heq⟩
    rw [hr.fresh] at hknown
    cases hknown
  · obtain he' | he' := List.mem_append.1 he'
    · exact h.housed e' he'
    · obtain rfl := List.mem_singleton.1 he'
      have hjob := hr.job
      rw [job?, Option.isSome_map] at hjob
      exact row_iff_mem_ids.1 hjob

theorem answer (h : s.WellKept) (now : Instant) (c : StoreCall) : (s.answer now c).2.WellKept := by
  cases c with
  | phaseOf j => rwa [(s.answer_phaseOf j now).1]
  | assetsOf j => rwa [(s.answer_assetsOf j now).1]
  | hasEvent j t => rwa [(s.answer_hasEvent j t now).1]
  | industryOf j => rwa [s.answer_industryOf j now]
  | swapPhase j p q =>
    unfold MemoryStore.answer
    split
    · exact h
    · exact (h.settle j).swap now j p q
  | insertEvent e =>
    have hi := s.inserted_answer e now
    generalize s.answer now (.insertEvent e) = x at hi
    obtain ⟨x, s'⟩ := x
    dsimp only at hi ⊢
    cases hi with
    | done hr => exact h.recorded hr
    | known | homeless | failed => exact h

theorem operate (h : s.WellKept) (op : Operation) : (s.operate op).WellKept := by
  cases op with
  | create job => exact h.putRow rfl
  | fail | recover | interleave => exact { h with }
  | call now c => exact h.answer now c

theorem undergo (h : s.WellKept) (ops : List Operation) : (s.undergo ops).WellKept := by
  induction ops generalizing s with
  | nil => exact h
  | cons op ops ih => exact ih (h.operate op)

theorem row (h : s.WellKept) {r : JobRow} (hr : r ∈ s.rows) : s.row? r.job.id = some r := by
  have hsome : (s.row? r.job.id).isSome := row_iff_mem_ids.2 (List.mem_map_of_mem hr)
  obtain ⟨r', hr'⟩ := Option.isSome_iff_exists.1 hsome
  rw [hr', List.inj_on_of_nodup_map h.jobs (List.mem_of_find?_eq_some hr') hr (row_id hr')]

theorem history_of_job (h : s.WellKept) {job : Job} (hj : s.job? j = some job) :
    ∃ before, s.history j = before ++ [job.phase] := by
  obtain ⟨r, hr, rfl⟩ := job_eq_some hj
  have hlast := h.history r (List.mem_of_find?_eq_some hr)
  refine ⟨r.history.dropLast, ?_⟩
  rw [MemoryStore.history, hr]
  exact (List.dropLast_append_getLast? r.job.phase hlast).symm

theorem entry (h : s.WellKept) {e : LedgerEntry} (he : e ∈ s.ledger) :
    s.entryOf? e.eventId = some e := by
  have hsome : (s.entryOf? e.eventId).isSome := List.find?_isSome.2 ⟨e, he, by simp⟩
  obtain ⟨e', he'⟩ := Option.isSome_iff_exists.1 hsome
  have hid : e'.eventId = e.eventId := by simpa using List.find?_some he'
  rw [he', List.inj_on_of_nodup_map h.entries (List.mem_of_find?_eq_some he') he hid]

end WellKept

theorem ledger_answer (s : MemoryStore) (now : Instant) (c : StoreCall) :
    s.ledger <+: (s.answer now c).2.ledger := by
  by_cases hc : ∃ e, c = .insertEvent e
  · obtain ⟨e, rfl⟩ := hc
    have hi := s.inserted_answer e now
    generalize s.answer now (.insertEvent e) = x at hi
    obtain ⟨x, s'⟩ := x
    dsimp only at hi ⊢
    cases hi with
    | done hr => exact hr.later.ledger
    | known | homeless | failed => exact List.prefix_rfl
  · exact (Spares.answer (not_exists.1 hc) now s).ledger ▸ List.prefix_rfl

theorem ledger_operate (s : MemoryStore) (op : Operation) : s.ledger <+: (s.operate op).ledger := by
  cases op with
  | create | fail | recover | interleave => exact List.prefix_rfl
  | call now c => exact s.ledger_answer now c

theorem ledger_undergo (s : MemoryStore) (ops : List Operation) :
    s.ledger <+: (s.undergo ops).ledger := by
  induction ops generalizing s with
  | nil => exact List.prefix_rfl
  | cons op ops ih => exact (s.ledger_operate op).trans (ih (s.operate op))

/-- An operation that carries out the pending write on a job, or sets up another one. -/
def Operation.Settles (j : String) (s : MemoryStore) : Operation → Prop
  | .interleave k _ => k = j
  | .call _ (.swapPhase k _ _) => k = j ∧ s.fails .swapPhase j = false
  | _ => False

def Awaits (j : String) : MemoryStore → List Operation → Prop
  | _, [] => True
  | s, op :: ops => ¬ op.Settles j s ∧ Awaits j (s.operate op) ops

theorem lookup_operate {op : Operation} (h : ¬ op.Settles j s) :
    (s.operate op).pending.lookup j = s.pending.lookup j := by
  cases op with
  | create | fail | recover => rfl
  | interleave k p => exact (lookup_interleave s k j p).trans (if_neg fun hk => h hk.symm)
  | call now c =>
    cases c with
    | phaseOf k => exact congrArg (·.pending.lookup j) (s.answer_phaseOf k now).1
    | assetsOf k => exact congrArg (·.pending.lookup j) (s.answer_assetsOf k now).1
    | hasEvent k t => exact congrArg (·.pending.lookup j) (s.answer_hasEvent k t now).1
    | industryOf k => exact congrArg (·.pending.lookup j) (s.answer_industryOf k now)
    | swapPhase k p q =>
      change (s.answer now (.swapPhase k p q)).2.pending.lookup j = _
      obtain ⟨-, cause, hx⟩ | ⟨hf, swapped, -, hx⟩ := s.answer_swap now k p q
      · rw [hx]
      · have hjk : j ≠ k := by
          rintro rfl
          exact h ⟨rfl, hf⟩
        rw [hx.pending, lookup_withoutPending, if_neg hjk]
    | insertEvent e =>
      change (s.answer now (.insertEvent e)).2.pending.lookup j = _
      have hi := s.inserted_answer e now
      generalize s.answer now (.insertEvent e) = x at hi
      obtain ⟨x, s'⟩ := x
      dsimp only at hi ⊢
      cases hi with
      | done hr => rw [hr.eq]
      | known | homeless | failed => rfl

theorem lookup_undergo {ops : List Operation} (h : Awaits j s ops) :
    (s.undergo ops).pending.lookup j = s.pending.lookup j := by
  induction ops generalizing s with
  | nil => rfl
  | cons op ops ih => exact (ih h.2).trans (lookup_operate h.1)

/-- What can be relied on from now on. -/
structure Dependable (s : MemoryStore) : Prop where
  /-- Each row is found under the identifier of its job. -/
  row : ∀ r ∈ s.rows, s.row? r.job.id = some r
  /-- A job is in the phase in which its history ends. -/
  history : ∀ {j job}, s.job? j = some job → ∃ before, s.history j = before ++ [job.phase]
  /-- An entry is found under its identifier, and belongs to a job. -/
  entry : ∀ e ∈ s.ledger, s.entryOf? e.eventId = some e ∧ (s.job? e.jobId).isSome
  /-- What is recorded under an identifier stays there as it is. -/
  kept : ∀ ops {id e}, s.entryOf? id = some e → (s.undergo ops).entryOf? id = some e
  /-- Who gets an error has changed nothing. -/
  refused : ∀ now c {cause}, (s.answer now c).1 = .error cause → (s.answer now c).2 = s
  /-- A swap takes place if its job, with the pending write on it carried out, is in the expected phase. -/
  swapped_iff : ∀ now j p q, (s.answer now (.swapPhase j p q)).1 = .ok true ↔
    s.fails .swapPhase j = false ∧ s.settledPhase? j = some p
  /-- The other jobs stay as they are. -/
  other : ∀ now j p q {k}, k ≠ j → (s.answer now (.swapPhase j p q)).2.row? k = s.row? k
  /-- A pending write waits for a swap. -/
  awaited : ∀ j p ops, Awaits j (s.interleave j p) ops →
    ((s.interleave j p).undergo ops).pending.lookup j = some p
  /-- The first swap that does not fail carries it out, and uses it up whatever it returns. -/
  settled : ∀ now j p q, s.fails .swapPhase j = false → ∃ swapped,
    (s.answer now (.swapPhase j p q)).1 = .ok swapped ∧
      (s.answer now (.swapPhase j p q)).2.pending.lookup j = none ∧
      (s.answer now (.swapPhase j p q)).2.history j = s.history j ++
        (if (s.job? j).isSome then (s.pending.lookup j).toList else []) ++ if swapped then [q] else []

theorem WellKept.dependable (h : s.WellKept) : s.Dependable where
  row _ := h.row
  history := h.history_of_job
  entry e he := by
    refine ⟨h.entry he, ?_⟩
    rw [job?, Option.isSome_map]
    exact row_iff_mem_ids.2 (h.housed e he)
  kept ops id e he := by
    obtain ⟨more, hmore⟩ := s.ledger_undergo ops
    rw [entryOf?, ← hmore, List.find?_append]
    exact congrArg (Option.or · _) he
  refused now c cause := answer_error
  swapped_iff now j p q := by
    obtain ⟨hf, cause, hx⟩ | ⟨hf, swapped, hx, hs⟩ := s.answer_swap now j p q
    · simp [hx, hf]
    · rw [hx, Except.ok.injEq, hs.swapped_iff]
      simp [hf]
  other now j p q k hk := by
    obtain ⟨-, cause, hx⟩ | ⟨-, swapped, -, hs⟩ := s.answer_swap now j p q
    · rw [hx]
    · exact hs.other hk
  awaited j p ops ha := by
    rw [lookup_undergo ha, lookup_interleave, if_pos rfl]
  settled now j p q hf := by
    obtain ⟨hf', -⟩ | ⟨-, swapped, hx, hs⟩ := s.answer_swap now j p q
    · rw [hf] at hf'
      cases hf'
    · refine ⟨swapped, hx, ?_, hs.history⟩
      rw [hs.pending, lookup_withoutPending, if_pos rfl]

/-- Whatever has been done to a store that was empty at first, it can be relied on. -/
theorem dependable_undergo (ops : List Operation) : (empty.undergo ops).Dependable :=
  (wellKept_empty.undergo ops).dependable

/-- A write by others is pending on the job, so that a swap from its old phase is refused, which uses the
write up. To create the job once more does not touch what is recorded of it. -/
theorem dependable_undergo_interleaved :
    let job : Job := ⟨"J1", "fashion", .collection, ⟨true, false⟩, .epoch⟩
    let e : LedgerEntry := ⟨"e1", "J1", "t", .epoch⟩
    let s := empty.undergo
      [.create job, .call .epoch (.insertEvent e), .interleave "J1" .matching]
    let x := s.answer .epoch (.swapPhase "J1" .collection .featureExtraction)
    (∃ swapped, x.1 = .ok swapped ∧ x.2.pending.lookup "J1" = none) ∧ x.1 ≠ .ok true ∧
      (s.undergo [.recover, .create job]).entryOf? "e1" = some e := by
  intro job e s x
  have h : s.Dependable := dependable_undergo _
  obtain ⟨swapped, hswapped, hpending, -⟩ :=
    h.settled .epoch "J1" .collection .featureExtraction (by decide)
  refine ⟨⟨swapped, hswapped, hpending⟩, fun htrue => ?_, h.kept _ (by decide)⟩
  exact absurd ((h.swapped_iff _ _ _ _).1 htrue).2 (by decide)

end MemoryStore
end PhaseKeeper
