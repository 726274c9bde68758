import PhaseKeeper.Store.Memory
/-!
What a call does to a memory store that nobody else writes to. Two kinds of calls write: a swap moves
one job, and an insertion appends one entry. So the ledger only grows, and jobs stay what they are.
-/
namespace PhaseKeeper

namespace Phase

theorem le_refl (p : Phase) : p ≤ p := Nat.le_refl p.rank

theorem le_trans {p q r : Phase} (h : p ≤ q) (k : q ≤ r) : p ≤ r := Nat.le_trans h k

theorem le_of_lt {p q : Phase} (h : p < q) : p ≤ q := Nat.le_of_lt h

theorem lt_of_le_of_ne {p q : Phase} (h : p ≤ q) (hn : p ≠ q) : p < q :=
  Nat.lt_of_le_of_ne h fun he => hn (rank_injective he)

theorem le_antisymm {p q : Phase} (h : p ≤ q) (k : q ≤ p) : p = q :=
  rank_injective (Nat.le_antisymm h k)

theorem lt_irrefl (p : Phase) : ¬ p < p := Nat.lt_irrefl p.rank

theorem not_lt_of_le {p q : Phase} (h : p ≤ q) : ¬ q < p := Nat.not_lt_of_le h

theorem eq_completed_of_le {p : Phase} (h : Phase.completed ≤ p) : p = .completed := by
  cases p <;> first | rfl | exact absurd h (by decide)

theorem lt_evidence {p : Phase} (h : p < .completed) (hn : p ≠ .evidence) : p < .evidence := by
  revert h hn
  cases p <;> decide

theorem ensureForward_of_lt {p q : Phase} (h : p < q) : p.ensureForward q = .ok () := if_pos h

end Phase

namespace MemoryStore
variable {s s' s'' : MemoryStore} {now : Instant} {j k : String} {p q : Phase}

theorem find_putRow (row : JobRow) (rows : List JobRow) (j : String) :
    (putRow row rows).find? (·.job.id = j) =
      if row.job.id = j then some row else rows.find? (·.job.id = j) := by
  induction rows with
  | nil => by_cases h : row.job.id = j <;> simp [putRow, h]
  | cons r rs ih =>
    by_cases hr : r.job.id = row.job.id
    · by_cases h : row.job.id = j <;> simp [putRow, hr, h]
    · by_cases hj : r.job.id = j
      · have h : row.job.id ≠ j := fun he => hr (hj.trans he.symm)
        rw [putRow, if_neg hr, if_neg h]
        simp [hj]
      · simp [putRow, hr, hj, ih]

theorem row_id {r : JobRow} (h : s.row? j = some r) : r.job.id = j := by
  simpa using List.find?_some h

theorem job_eq_some {job : Job} (h : s.job? j = some job) :
    ∃ r, s.row? j = some r ∧ r.job = job := Option.map_eq_some_iff.1 h

theorem job_id {job : Job} (h : s.job? j = some job) : job.id = j := by
  obtain ⟨r, hr, rfl⟩ := job_eq_some h
  exact row_id hr

theorem phase_eq_some (h : s.phase? j = some p) : ∃ job, s.job? j = some job ∧ job.phase = p :=
  Option.map_eq_some_iff.1 h

theorem phase_of_job {job : Job} (h : s.job? j = some job) : s.phase? j = some job.phase := by
  simp [phase?, h]

theorem row_insertJob (s : MemoryStore) (job : Job) (j : String) :
    (s.insertJob job).row? j = if job.id = j then some ⟨job, [job.phase]⟩ else s.row? j :=
  find_putRow _ _ _

theorem settle_of_pending (h : s.pending = []) (j : String) : s.settle j = s := by
  have hw : s.withoutPending j = s := by
    cases s
    simp_all [withoutPending]
  unfold settle
  split
  · simp_all
  · exact hw

/-- `s'` is `s` after the job `j` has moved from `p` to `q`. -/
structure Moved (s : MemoryStore) (j : String) (p q : Phase) (s' : MemoryStore) : Prop where
  was : s.phase? j = some p
  job : ∀ {job}, s.job? j = some job → ∃ t, s'.job? j = some { job with phase := q, updatedAt := t }
  history : s'.history j = s.history j ++ [q]
  other : ∀ {k}, k ≠ j → s'.row? k = s.row? k
  ledger : s'.ledger = s.ledger
  faults : s'.faults = s.faults
  pending : s'.pending = s.pending

structure Recorded (s : MemoryStore) (e : LedgerEntry) (s' : MemoryStore) : Prop where
  job : (s.job? e.jobId).isSome
  fresh : s.recorded e.eventId = false
  eq : s' = { s with ledger := s.ledger ++ [e] }

inductive Swapped (s : MemoryStore) (j : String) (p q : Phase) :
    Except StoreFault Bool → MemoryStore → Prop
  | done {s' : MemoryStore} (h : Moved s j p q s') : Swapped s j p q (.ok true) s'
  | lost (h : s.phase? j ≠ some p) : Swapped s j p q (.ok false) s
  | failed (cause : StoreFault) (h : s.faults ≠ []) : Swapped s j p q (.error cause) s

inductive Inserted (s : MemoryStore) (e : LedgerEntry) : Except StoreFault Unit → MemoryStore → Prop
  | done {s' : MemoryStore} (h : Recorded s e s') : Inserted s e (.ok ()) s'
  | known (h : s.recorded e.eventId = true) : Inserted s e (.error (.alreadyRecorded e.eventId)) s
  | homeless (h : s.job? e.jobId = none) : Inserted s e (.error (.jobNotFound e.jobId)) s
  | failed (reason : String) (h : s.faults ≠ []) : Inserted s e (.error (.unavailable reason)) s

theorem faults_of_fails {op : StoreOp} (h : s.fails op j = true) : s.faults ≠ [] := by
  intro he
  simp [fails, he] at h

theorem moved_putRow {r : JobRow} (hr : s.row? j = some r) (hp : r.job.phase = p) (t : Instant) :
    let row := { r.write q with job := { (r.write q).job with updatedAt := t } }
    Moved s j p q { s with rows := putRow row s.rows } where
  was := by simp [phase?, job?, hr, hp]
  job := by
    intro job hj
    obtain ⟨r', hr', rfl⟩ := job_eq_some hj
    have he : r' = r := Option.some.inj (hr'.symm.trans hr)
    refine ⟨t, ?_⟩
    simp [job?, row?, find_putRow, JobRow.write, row_id hr, he]
  history := by
    have hh : s.history j = r.history := by simp [history, hr]
    rw [hh]
    simp [history, row?, find_putRow, JobRow.write, row_id hr]
  other := by
    intro k hk
    have hn : ¬ j = k := fun he => hk he.symm
    simp [row?, find_putRow, JobRow.write, row_id hr, hn]
  ledger := rfl
  faults := rfl
  pending := rfl

theorem swapped_answer (h : s.pending = []) (j : String) (p q : Phase) (now : Instant) :
    Swapped s j p q (s.answer now (.swapPhase j p q)).1 (s.answer now (.swapPhase j p q)).2 := by
  unfold answer
  split
  · exact .failed _ (faults_of_fails ‹_›)
  · simp only [perform, settle_of_pending h, swap]
    cases hr : s.row? j with
    | none => exact .lost (by simp [phase?, job?, hr])
    | some r =>
      by_cases hp : r.job.phase = p
      · simp only [hp, if_true]
        exact .done (moved_putRow hr hp now)
      · simp only [hp, if_false]
        exact .lost (by simp [phase?, job?, hr, hp])

theorem inserted_answer (s : MemoryStore) (e : LedgerEntry) (now : Instant) :
    Inserted s e (s.answer now (.insertEvent e)).1 (s.answer now (.insertEvent e)).2 := by
  unfold answer
  split
  · exact .failed _ (faults_of_fails ‹_›)
  · simp only [perform, insertEntry]
    by_cases hj : (s.row? e.jobId).isNone
    · simp only [hj, if_true]
      exact .homeless (by simpa [job?] using hj)
    · by_cases hk : s.recorded e.eventId = true
      · simp only [hj, hk, if_true]
        exact .known hk
      · simp only [hj, hk]
        exact .done ⟨by simpa [job?, Option.isSome_iff_ne_none] using hj, by simpa using hk, rfl⟩

theorem answer_phaseOf (s : MemoryStore) (j : String) (now : Instant) :
    (s.answer now (.phaseOf j)).2 = s ∧
      ((s.answer now (.phaseOf j)).1 = .ok (s.phase? j) ∨
        s.faults ≠ [] ∧ ∃ cause, (s.answer now (.phaseOf j)).1 = .error cause) := by
  unfold answer
  split
  · exact ⟨rfl, .inr ⟨faults_of_fails ‹_›, _, rfl⟩⟩
  · exact ⟨rfl, .inl rfl⟩

theorem answer_hasEvent (s : MemoryStore) (j t : String) (now : Instant) :
    (s.answer now (.hasEvent j t)).2 = s ∧
      ((s.answer now (.hasEvent j t)).1 = .ok (s.hasEvent j t) ∨
        s.faults ≠ [] ∧ ∃ cause, (s.answer now (.hasEvent j t)).1 = .error cause) := by
  unfold answer
  split
  · exact ⟨rfl, .inr ⟨faults_of_fails ‹_›, _, rfl⟩⟩
  · exact ⟨rfl, .inl rfl⟩

theorem answer_assetsOf (s : MemoryStore) (j : String) (now : Instant) :
    (s.answer now (.assetsOf j)).2 = s ∧
      ((∃ job, s.job? j = some job ∧ (s.answer now (.assetsOf j)).1 = .ok job.assets) ∨
        (s.faults ≠ [] ∨ s.job? j = none) ∧
          ∃ cause, (s.answer now (.assetsOf j)).1 = .error cause) := by
  unfold answer
  split
  · exact ⟨rfl, .inr ⟨.inl (faults_of_fails ‹_›), _, rfl⟩⟩
  · simp only [perform]
    cases hj : s.job? j with
    | none => exact ⟨rfl, .inr ⟨.inr rfl, _, rfl⟩⟩
    | some job => exact ⟨rfl, .inl ⟨job, rfl, rfl⟩⟩

theorem answer_industryOf (s : MemoryStore) (j : String) (now : Instant) :
    (s.answer now (.industryOf j)).2 = s := by
  unfold answer
  split
  · rfl
  · simp only [perform]
    cases s.job? j <;> rfl

/-- What holds from one moment to a later one, whoever makes calls meanwhile. -/
structure Later (s s' : MemoryStore) : Prop where
  ledger : s.ledger <+: s'.ledger
  job : ∀ {j : String} {job : Job}, s.job? j = some job → ∃ job' : Job, s'.job? j = some job' ∧
    job'.assets = job.assets ∧ job'.industry = job.industry ∧ job.phase ≤ job'.phase

theorem Later.refl (s : MemoryStore) : Later s s :=
  ⟨List.prefix_rfl, fun {_ job} h => ⟨job, h, rfl, rfl, Phase.le_refl _⟩⟩

theorem Later.trans (h : Later s s') (k : Later s' s'') : Later s s'' where
  ledger := h.ledger.trans k.ledger
  job := by
    intro j job hj
    obtain ⟨job', hj', ha', hi', hp'⟩ := h.job hj
    obtain ⟨job'', hj'', ha'', hi'', hp''⟩ := k.job hj'
    exact ⟨job'', hj'', ha''.trans ha', hi''.trans hi', Phase.le_trans hp' hp''⟩

theorem Later.mem_ledger (h : Later s s') {e : LedgerEntry} :
    e ∈ s'.ledger ↔ e ∈ s.ledger ∨ e ∈ s'.ledger.drop s.ledger.length := by
  obtain ⟨rest, hrest⟩ := h.ledger
  rw [← hrest]
  simp

theorem Later.phase (h : Later s s') (hp : s.phase? j = some p) :
    ∃ q, s'.phase? j = some q ∧ p ≤ q := by
  obtain ⟨job, hj, rfl⟩ := phase_eq_some hp
  obtain ⟨job', hj', -, -, hle⟩ := h.job hj
  exact ⟨job'.phase, phase_of_job hj', hle⟩

theorem Later.completed (h : Later s s') (hp : s.phase? j = some .completed) :
    s'.phase? j = some .completed := by
  obtain ⟨q, hq, hle⟩ := h.phase hp
  rw [hq, Phase.eq_completed_of_le hle]

theorem Later.hasEvent {t : String} (h : Later s s') (he : s.hasEvent j t = true) :
    s'.hasEvent j t = true := by
  obtain ⟨e, hm, hp⟩ := List.any_eq_true.1 he
  exact List.any_eq_true.2 ⟨e, h.ledger.subset hm, hp⟩

theorem Later.recorded {id : String} (h : Later s s') (hr : s.recorded id = true) :
    s'.recorded id = true := by
  obtain ⟨e, hm, he⟩ := List.any_eq_true.1 hr
  exact List.any_eq_true.2 ⟨e, h.ledger.subset hm, he⟩

theorem Recorded.recorded {e : LedgerEntry} (h : Recorded s e s') :
    s'.recorded e.eventId = true := by
  rw [h.eq]
  simp [MemoryStore.recorded]

theorem Moved.phase (h : Moved s j p q s') : s'.phase? j = some q := by
  obtain ⟨job, hj, -⟩ := phase_eq_some h.was
  obtain ⟨t, hj'⟩ := h.job hj
  exact phase_of_job hj'

theorem Moved.later (h : Moved s j p q s') (hlt : p < q) : Later s s' where
  ledger := h.ledger ▸ List.prefix_rfl
  job := by
    intro k job hk
    by_cases hkj : k = j
    · subst hkj
      obtain ⟨t, ht⟩ := h.job hk
      have hp : job.phase = p := Option.some.inj ((phase_of_job hk).symm.trans h.was)
      exact ⟨_, ht, rfl, rfl, hp ▸ Phase.le_of_lt hlt⟩
    · exact ⟨job, by simpa [job?, h.other hkj] using hk, rfl, rfl, Phase.le_refl _⟩

theorem Recorded.later {e : LedgerEntry} (h : Recorded s e s') : Later s s' := by
  rw [h.eq]
  exact ⟨List.prefix_append _ _, fun {_ job} hj => ⟨job, hj, rfl, rfl, Phase.le_refl _⟩⟩

theorem not_moved_self : ¬ s.Moved j p q s := by
  intro h
  have hlen := congrArg List.length h.history
  simp at hlen

theorem not_recorded_self {e : LedgerEntry} : ¬ s.Recorded e s := by
  intro h
  have hlen := congrArg (fun s => s.ledger.length) h.eq
  simp at hlen

variable {n : Nat} {t : String}

/-- The types of the events of a job behind the first `n` entries of the ledger. -/
def typesSince (s : MemoryStore) (n : Nat) (j : String) : List String :=
  ((s.ledger.drop n).filter (·.jobId = j)).map (·.eventType)

theorem mem_typesSince :
    t ∈ s.typesSince n j ↔ ∃ e ∈ s.ledger.drop n, e.jobId = j ∧ e.eventType = t := by
  simp [typesSince, and_assoc]

theorem hasEvent_iff : s.hasEvent j t = true ↔ t ∈ s.typesSince 0 j := by
  rw [mem_typesSince]
  simp [hasEvent]

theorem hasEvent_of_typesSince (h : t ∈ s.typesSince n j) : s.hasEvent j t = true := by
  obtain ⟨e, he, ht⟩ := mem_typesSince.1 h
  exact hasEvent_iff.2 (mem_typesSince.2 ⟨e, List.mem_of_mem_drop he, ht⟩)

theorem Later.typesSince (h : Later s s') (ht : t ∈ s.typesSince n j) : t ∈ s'.typesSince n j := by
  obtain ⟨e, he, hj⟩ := mem_typesSince.1 ht
  obtain ⟨rest, hrest⟩ := h.ledger
  refine mem_typesSince.2 ⟨e, ?_, hj⟩
  rw [← hrest, List.drop_append]
  exact List.mem_append_left _ he

theorem Later.hasEvent_iff (h : Later s s') :
    s'.hasEvent j t = true ↔ s.hasEvent j t = true ∨ t ∈ s'.typesSince s.ledger.length j := by
  refine ⟨fun he => ?_, fun he => he.elim h.hasEvent hasEvent_of_typesSince⟩
  obtain ⟨e, hm, hj⟩ := mem_typesSince.1 (MemoryStore.hasEvent_iff.1 he)
  obtain hold | hnew := h.mem_ledger.1 hm
  · exact .inl (MemoryStore.hasEvent_iff.2 (mem_typesSince.2 ⟨e, hold, hj⟩))
  · exact .inr (mem_typesSince.2 ⟨e, hnew, hj⟩)

theorem typesSince_congr (h : s'.ledger = s.ledger) (n : Nat) (j : String) :
    s'.typesSince n j = s.typesSince n j := by rw [typesSince, h, typesSince]

theorem Recorded.typesSince_other {e : LedgerEntry} (h : Recorded s e s') (hj : e.jobId ≠ j)
    (n : Nat) : s'.typesSince n j = s.typesSince n j := by
  have hnil : (([e] : List LedgerEntry).drop (n - s.ledger.length)).filter (·.jobId = j) = [] :=
    List.filter_eq_nil_iff.2 fun e' he' => by
      rw [List.mem_singleton.1 (List.mem_of_mem_drop he')]
      simpa using hj
  rw [h.eq]
  simp only [MemoryStore.typesSince, List.drop_append, List.filter_append, hnil, List.append_nil]

theorem Recorded.typesSince {e : LedgerEntry} (h : Recorded s e s') (hn : n ≤ s.ledger.length)
    (j : String) :
    s'.typesSince n j = s.typesSince n j ++ if e.jobId = j then [e.eventType] else [] := by
  rw [h.eq]
  simp only [MemoryStore.typesSince, List.drop_append_of_le_length hn, List.filter_append,
    List.map_append]
  by_cases hj : e.jobId = j <;> simp [hj]

end MemoryStore
end PhaseKeeper
