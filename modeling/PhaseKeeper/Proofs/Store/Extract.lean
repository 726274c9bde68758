import PhaseKeeper.Proofs.Store.Growth
/-!
The part of a memory store that one job has to do with: its row, its entries and those under some
identifiers, the faults that hit it, and the pending writes on it. Calls about the job see no more than
that, and nothing else that happens changes it.
-/
namespace PhaseKeeper.MemoryStore
variable {s : MemoryStore} {j k : String} {ids : List String}

def extract (s : MemoryStore) (j : String) (ids : List String) : MemoryStore where
  rows := (s.row? j).toList
  ledger := s.ledger.filter fun e => e.jobId = j || e.eventId ∈ ids
  faults := s.faults.filter fun f => f.2 = none || f.2 = some j
  pending := s.pending.filter (·.1 = j)

theorem row_extract (s : MemoryStore) (j : String) (ids : List String) :
    (s.extract j ids).row? j = s.row? j := by
  change (s.row? j).toList.find? (·.job.id = j) = s.row? j
  cases hr : s.row? j with
  | none => rfl
  | some r => simp [row_id hr]

theorem job_extract (s : MemoryStore) (j : String) (ids : List String) :
    (s.extract j ids).job? j = s.job? j := by rw [job?, row_extract, job?]

theorem phase_extract (s : MemoryStore) (j : String) (ids : List String) :
    (s.extract j ids).phase? j = s.phase? j := by rw [phase?, job_extract, phase?]

theorem fails_extract (s : MemoryStore) (op : StoreOp) (j : String) (ids : List String) :
    (s.extract j ids).fails op j = s.fails op j := by
  simp only [fails, extract, List.any_filter]
  congr 1
  funext f
  rw [Bool.and_left_comm, Bool.and_self]

theorem hasEvent_extract (s : MemoryStore) (j t : String) (ids : List String) :
    (s.extract j ids).hasEvent j t = s.hasEvent j t := by
  simp only [hasEvent, extract, List.any_filter]
  congr 1
  funext e
  cases decide (e.jobId = j) <;> simp

theorem recorded_extract (s : MemoryStore) (j : String) {id : String} (h : id ∈ ids) :
    (s.extract j ids).recorded id = s.recorded id := by
  simp only [recorded, extract, List.any_filter]
  congr 1
  funext e
  by_cases he : e.eventId = id
  · simp [he, h]
  · simp [he]

theorem lookup_extract (s : MemoryStore) (j : String) (ids : List String) :
    (s.extract j ids).pending.lookup j = s.pending.lookup j := by
  change (s.pending.filter (·.1 = j)).lookup j = s.pending.lookup j
  induction s.pending with
  | nil => rfl
  | cons x xs ih =>
    obtain ⟨k, p⟩ := x
    by_cases hk : k = j
    · simp [hk]
    · have hb : (j == k) = false := by simpa using fun h => hk h.symm
      simp [List.lookup_cons, hk, hb, ih]

theorem withoutPending_extract (s : MemoryStore) (j : String) (ids : List String) :
    (s.extract j ids).withoutPending j = (s.withoutPending j).extract j ids := by
  simp only [extract, withoutPending, List.filter_filter, Bool.and_comm]
  rfl

theorem putRow_extract {r : JobRow} (hr : s.row? j = some r) (row : JobRow)
    (hrow : row.job.id = j) (ids : List String) :
    { s.extract j ids with rows := putRow row (s.extract j ids).rows } =
      ({ s with rows := putRow row s.rows } : MemoryStore).extract j ids := by
  have hid : r.job.id = row.job.id := (row_id hr).trans hrow.symm
  have hput : ({ s with rows := putRow row s.rows } : MemoryStore).row? j = some row :=
    (find_putRow row s.rows j).trans (if_pos hrow)
  simp [extract, hput, hr, putRow, hid]

theorem settle_extract (s : MemoryStore) (j : String) (ids : List String) :
    (s.extract j ids).settle j = (s.settle j).extract j ids := by
  unfold settle
  rw [row_extract, lookup_extract]
  cases hr : s.row? j with
  | none => exact withoutPending_extract s j ids
  | some r =>
    cases s.pending.lookup j with
    | none => exact withoutPending_extract s j ids
    | some p =>
      have hr' : (s.withoutPending j).row? j = some r := hr
      have hid : (r.write p).job.id = r.job.id := rfl
      have hput := putRow_extract hr' (r.write p) (hid.trans (row_id hr)) ids
      rw [← withoutPending_extract] at hput
      exact hput

theorem swap_extract (now : Instant) (s : MemoryStore) (j : String) (p q : Phase)
    (ids : List String) : (s.extract j ids).swap now j p q =
      ((s.swap now j p q).1, (s.swap now j p q).2.extract j ids) := by
  unfold swap
  rw [row_extract]
  cases hr : s.row? j with
  | none => rfl
  | some r =>
    by_cases hp : r.job.phase = p
    · let row := { r.write q with job := { (r.write q).job with updatedAt := now } }
      have hid : row.job.id = r.job.id := rfl
      simp only [hp, if_true]
      exact Prod.ext rfl (putRow_extract hr row (hid.trans (row_id hr)) ids)
    · simp only [hp, if_false]

theorem insertEntry_extract {e : LedgerEntry} (hj : e.jobId = j) (hid : e.eventId ∈ ids) :
    (s.extract j ids).insertEntry e = ((s.insertEntry e).1, (s.insertEntry e).2.extract j ids) := by
  subst hj
  unfold insertEntry
  rw [row_extract, recorded_extract s e.jobId hid]
  cases (s.row? e.jobId).isNone with
  | true => rfl
  | false =>
    cases s.recorded e.eventId with
    | true => rfl
    | false => simp [extract, row?, List.filter_append]

theorem answer_extract {c : StoreCall} (hj : c.jobId = j)
    (hid : ∀ e, c = .insertEvent e → e.eventId ∈ ids) (now : Instant) (s : MemoryStore) :
    (s.extract j ids).answer now c = ((s.answer now c).1, (s.answer now c).2.extract j ids) := by
  subst hj
  unfold answer
  rw [fails_extract]
  split
  · rfl
  · cases c with
    | phaseOf j => exact Prod.ext (congrArg Except.ok (phase_extract s j ids)) rfl
    | hasEvent j t => exact Prod.ext (congrArg Except.ok (hasEvent_extract s j t ids)) rfl
    | assetsOf j | industryOf j =>
      simp only [perform, StoreCall.jobId, job_extract]
      cases s.job? j <;> rfl
    | insertEvent e => exact insertEntry_extract rfl (hid e rfl)
    | swapPhase j p q =>
      simp only [perform, StoreCall.jobId, settle_extract, swap_extract]

theorem withoutPending_extract_other (h : k ≠ j) (s : MemoryStore) (ids : List String) :
    (s.withoutPending k).extract j ids = s.extract j ids := by
  have hpending : (s.pending.filter (·.1 ≠ k)).filter (·.1 = j) = s.pending.filter (·.1 = j) := by
    rw [List.filter_filter]
    apply List.filter_congr
    intro x _
    by_cases hx : x.1 = j
    · simp [hx, h.symm]
    · simp [hx]
  simp only [extract, withoutPending, hpending]
  rfl

theorem putRow_extract_other {row : JobRow} (h : row.job.id ≠ j) (s : MemoryStore)
    (ids : List String) :
    ({ s with rows := putRow row s.rows } : MemoryStore).extract j ids = s.extract j ids := by
  have hput : ({ s with rows := putRow row s.rows } : MemoryStore).row? j = s.row? j :=
    (find_putRow row s.rows j).trans (if_neg h)
  simp only [extract, hput]

theorem settle_extract_other (h : k ≠ j) (s : MemoryStore) (ids : List String) :
    (s.settle k).extract j ids = s.extract j ids := by
  unfold settle
  split
  · rename_i r p hr _
    have hrow : (r.write p).job.id ≠ j := fun he => h ((row_id hr).symm.trans he)
    exact (putRow_extract_other hrow (s.withoutPending k) ids).trans
      (withoutPending_extract_other h s ids)
  · exact withoutPending_extract_other h s ids

theorem swap_extract_other (h : k ≠ j) (now : Instant) (s : MemoryStore) (p q : Phase)
    (ids : List String) : (s.swap now k p q).2.extract j ids = s.extract j ids := by
  unfold swap
  split
  · rfl
  · rename_i r hr
    split
    · let row := { r.write q with job := { (r.write q).job with updatedAt := now } }
      have hrow : row.job.id ≠ j := fun he => h ((row_id hr).symm.trans he)
      exact putRow_extract_other hrow s ids
    · rfl

theorem answer_extract_other {c : StoreCall} (hj : c.jobId ≠ j)
    (hid : ∀ e, c = .insertEvent e → e.eventId ∉ ids) (now : Instant) (s : MemoryStore) :
    (s.answer now c).2.extract j ids = s.extract j ids := by
  cases c with
  | phaseOf k => rw [(answer_phaseOf s k now).1]
  | hasEvent k t => rw [(answer_hasEvent s k t now).1]
  | assetsOf k => rw [(answer_assetsOf s k now).1]
  | industryOf k => rw [answer_industryOf s k now]
  | insertEvent e =>
    have hinserted := inserted_answer s e now
    generalize (s.answer now (.insertEvent e)).1 = x,
      (s.answer now (.insertEvent e)).2 = s' at hinserted
    cases hinserted with
    | known | homeless | failed => rfl
    | done h =>
      have hforeign : e.jobId ≠ j := hj
      rw [h.eq]
      simp [extract, row?, List.filter_append, hforeign, hid e rfl]
  | swapPhase k p q =>
    unfold answer
    split
    · rfl
    · exact (swap_extract_other hj now (s.settle k) p q ids).trans (settle_extract_other hj s ids)

theorem insertJob_extract (s : MemoryStore) (job : Job) (ids : List String) :
    (s.extract job.id ids).insertJob job = (s.insertJob job).extract job.id ids := by
  have hnew : (s.insertJob job).row? job.id = some ⟨job, [job.phase]⟩ :=
    (row_insertJob s job job.id).trans (if_pos rfl)
  have hrows : putRow ⟨job, [job.phase]⟩ (s.row? job.id).toList = [⟨job, [job.phase]⟩] := by
    cases hr : s.row? job.id with
    | none => rfl
    | some r => simp [putRow, row_id hr]
  simp only [extract, hnew]
  simp only [insertJob, hrows, Option.toList_some]

theorem insertJob_extract_other {job : Job} (h : job.id ≠ j) (s : MemoryStore) (ids : List String) :
    (s.insertJob job).extract j ids = s.extract j ids := by
  have hrow : (s.insertJob job).row? j = s.row? j := (row_insertJob s job j).trans (if_neg h)
  simp only [extract, hrow]
  rfl

theorem fail_extract {target : Option String} (h : target = none ∨ target = some j)
    (s : MemoryStore) (op : StoreOp) (ids : List String) :
    (s.extract j ids).fail op target = (s.fail op target).extract j ids := by
  have hhits : (decide (target = none) || decide (target = some j)) = true := by simpa using h
  simp [extract, fail, row?, List.filter_append, hhits]

theorem fail_extract_other (h : k ≠ j) (s : MemoryStore) (op : StoreOp) (ids : List String) :
    (s.fail op (some k)).extract j ids = s.extract j ids := by
  simp [extract, fail, row?, List.filter_append, h]

theorem interleave_extract (s : MemoryStore) (j : String) (p : Phase) (ids : List String) :
    (s.extract j ids).interleave j p = (s.interleave j p).extract j ids := by
  unfold interleave
  rw [withoutPending_extract]
  simp [extract, row?, withoutPending]

theorem interleave_extract_other (h : k ≠ j) (s : MemoryStore) (p : Phase) (ids : List String) :
    (s.interleave k p).extract j ids = s.extract j ids := by
  rw [← withoutPending_extract_other h s ids]
  simp [extract, interleave, withoutPending, row?, h]

end PhaseKeeper.MemoryStore
