import PhaseKeeper.Proofs.Interleaving.Bookkeeping
/-!
What is done to a deployment one thing after the other: jobs are created, the store and the bus are told
to fail, and deliveries are handled, each to its end before the next one comes.
-/
namespace PhaseKeeper

inductive Command where
  /-- A job that is there already is replaced. -/
  | create (jobId industry : String) (phase : Phase) (assets : Assets)
  | fail (op : StoreOp) (jobId : Option String)
  | recover
  /-- Someone else writes a phase just before the next swap. -/
  | interleave (jobId : String) (phase : Phase)
  | refuse (topic reason : String)
  | heal
  | deliver (call : Call)

def Outcome.taken : Outcome → Bool
  | .applied _ | .failed _ => true
  | .rejected _ | .duplicate | .storageFailed _ | .unknownJob => false

/-- A command with its outcome, if it has one. -/
structure Turn where
  command : Command
  outcome : Option Outcome

/-- Whether it was more than a delivery that was not taken. -/
def Turn.kept (x : Turn) : Bool := x.outcome.all Outcome.taken

namespace Deployment

def onBus (f : RecordingBus → RecordingBus) (d : Deployment) : Deployment := { d with bus := f d.bus }

def deliver (d : Deployment) (call : Call) : Outcome × Deployment :=
  d.perform call.member call.handling

/-- What a command does. Only deliveries have an outcome. -/
def obey (d : Deployment) : Command → Option Outcome × Deployment
  | .create j industry p assets => (none, d.onStore (·.insertJob ⟨j, industry, p, assets, d.clock⟩))
  | .fail op j => (none, d.onStore (·.fail op j))
  | .recover => (none, d.onStore (·.recover))
  | .interleave j p => (none, d.onStore (·.interleave j p))
  | .refuse topic reason => (none, d.onBus (·.refuse topic reason))
  | .heal => (none, d.onBus (·.heal))
  | .deliver call => (some (d.deliver call).1, (d.deliver call).2)

def follow (d : Deployment) (script : List Command) : Deployment :=
  script.foldl (fun d c => (d.obey c).2) d

def transcript : Deployment → List Command → List Turn
  | _, [] => []
  | d, c :: cs => ⟨c, (d.obey c).1⟩ :: transcript (d.obey c).2 cs

theorem follow_append (d : Deployment) (script more : List Command) :
    d.follow (script ++ more) = (d.follow script).follow more := List.foldl_append

/-- What the engines have seen lately is recorded. -/
def Sound (d : Deployment) : Prop := ∀ id, d.Caches id → d.store.recorded id = true

theorem sound_ofCapacities (capacities : List Nat) (clock : Instant) :
    (ofCapacities capacities clock).Sound := by
  intro id hc
  obtain ⟨r, hr, hid⟩ := hc
  obtain ⟨n, -, rfl⟩ := List.mem_map.1 hr
  cases hid

variable {d d' : Deployment} {j : String} {r : Request}

/-- The store takes the event in. -/
structure Accepts (d : Deployment) (e : Errand) : Prop where
  works : d.store.fails .insertEvent e.event.jobId = false
  job : ∃ job, d.store.job? e.event.jobId = some job
  new : d.store.recorded e.event.eventId = false

def entry (d : Deployment) (e : Errand) : LedgerEntry :=
  ⟨e.event.eventId, e.event.jobId, e.eventType, d.clock⟩

def noting (d : Deployment) (member : Nat) (e : Errand) : Deployment :=
  (d.tick.onStore fun s => { s with ledger := s.ledger ++ [d.entry e] }).remember member
    e.event.eventId

inductive Handled (d : Deployment) (call : Call) : Outcome × Deployment → Prop
  | rejected (cause : SchemaError) (h : call.errand? = none) : Handled d call (.rejected cause, d)
  | seen {e : Errand} (he : call.errand? = some e) (h : d.store.recorded e.event.eventId = true) :
      Handled d call (.duplicate, (d.lookUp call.member e.event.eventId).2)
  | known {e : Errand} (he : call.errand? = some e) (h : d.store.recorded e.event.eventId = true) :
      Handled d call (.duplicate, d.tick.remember call.member e.event.eventId)
  | failed {e : Errand} (cause : StoreFault) (he : call.errand? = some e)
      (h : d.store.fails .insertEvent e.event.jobId = true) :
      Handled d call (.storageFailed cause, d.tick)
  | homeless {e : Errand} (he : call.errand? = some e)
      (h : d.store.job? e.event.jobId = none) : Handled d call (.unknownJob, d.tick)
  | taken {e : Errand} (he : call.errand? = some e) (h : d.Accepts e) :
      Handled d call ((d.noting call.member e).perform call.member
        (advanceJob e.event.eventId e.event.jobId e.eventType))

theorem lookUp_cases (d : Deployment) (member : Nat) (id : String) :
    ((d.lookUp member id).1 = true ∧ d.Caches id) ∨ d.lookUp member id = (false, d) := by
  unfold lookUp
  cases hm : d.recent[member]? with
  | none => exact .inr rfl
  | some ids =>
    by_cases hhit : id ∈ ids.ids
    · simp only [RecentIds.lookUp_of_mem hhit]
      exact .inl ⟨trivial, ids, List.mem_of_getElem? hm, hhit⟩
    · obtain ⟨hlt, hget⟩ := List.getElem?_eq_some_iff.1 hm
      subst hget
      simp only [RecentIds.lookUp_of_not_mem hhit, List.set_getElem_self]
      exact .inr trivial

theorem perform_bind {α β : Type} (d : Deployment) (member : Nat) (p : Handling α)
    (f : α → Handling β) : d.perform member (p >>= f) =
      (d.perform member p).2.perform member (f (d.perform member p).1) :=
  Program.run_bind (answer member) p f d

theorem perform_ask {α : Type} (d : Deployment) (member : Nat) (r : Request)
    (f : r.Reply → Handling α) : d.perform member (ask r >>= f) =
      (d.answer member r).2.perform member (f (d.answer member r).1) := rfl

theorem answer_store {c : StoreCall} {x : c.Reply} {s : MemoryStore}
    (h : d.store.answer d.clock c = (x, s)) (member : Nat) :
    d.answer member (.store c) = (x, d.onStore fun _ => s) := by
  simp only [answer, callStore, h, onStore]

inductive Entered (d : Deployment) (member : Nat) (e : Errand) : Recording × Deployment → Prop
  | known (h : d.store.recorded e.event.eventId = true) :
      Entered d member e (.alreadyProcessed, d.tick.remember member e.event.eventId)
  | failed (reason : String) (h : d.store.fails .insertEvent e.event.jobId = true) :
      Entered d member e (.failed (.unavailable reason), d.tick)
  | homeless (h : d.store.job? e.event.jobId = none) :
      Entered d member e (.failed (.jobNotFound e.event.jobId), d.tick)
  | done (h : d.Accepts e) : Entered d member e (.recorded, d.noting member e)

theorem entered_insertNew (d : Deployment) (member : Nat) (e : Errand) :
    d.Entered member e (d.tick.perform member (insertNew (d.entry e))) := by
  have hans (x : Except StoreFault Unit) (s : MemoryStore)
      (h : d.tick.store.answer d.tick.clock (.insertEvent (d.entry e)) = (x, s)) :
      d.tick.answer member (.store (.insertEvent (d.entry e))) = (x, d.tick.onStore fun _ => s) :=
    answer_store h member
  unfold insertNew askStore
  rw [perform_ask]
  by_cases hf : d.store.fails .insertEvent e.event.jobId = true
  · rw [hans (.error (.unavailable _)) d.store (if_pos hf)]
    exact .failed _ hf
  · have hworks : d.store.answer d.tick.clock (.insertEvent (d.entry e)) =
        d.store.insertEntry (d.entry e) := if_neg hf
    cases hj : d.store.job? e.event.jobId with
    | none =>
      have hrow : (d.store.row? e.event.jobId).isNone := by simpa [MemoryStore.job?] using hj
      rw [hans (.error (.jobNotFound _)) d.store (hworks.trans (if_pos hrow))]
      exact .homeless hj
    | some job =>
      have hrow : ¬ (d.store.row? e.event.jobId).isNone := by
        intro hnone
        simp_all [MemoryStore.job?]
      by_cases hr : d.store.recorded e.event.eventId = true
      · have hinsert : d.store.insertEntry (d.entry e) =
            (.error (.alreadyRecorded e.event.eventId), d.store) :=
          (if_neg hrow).trans (if_pos hr)
        rw [hans _ _ (hworks.trans hinsert)]
        exact .known hr
      · have hinsert : d.store.insertEntry (d.entry e) =
            (.ok (), { d.store with ledger := d.store.ledger ++ [d.entry e] }) :=
          (if_neg hrow).trans (if_neg hr)
        rw [hans _ _ (hworks.trans hinsert)]
        exact .done ⟨by simpa using hf, ⟨job, hj⟩, by simpa using hr⟩

theorem perform_recordEvent (d : Deployment) (member : Nat) (e : Errand) :
    (d.Caches e.event.eventId ∧
        d.perform member (recordEvent e.event.eventId e.event.jobId e.eventType) =
          (.alreadyProcessed, (d.lookUp member e.event.eventId).2)) ∨
      d.perform member (recordEvent e.event.eventId e.event.jobId e.eventType) =
        d.tick.perform member (insertNew (d.entry e)) := by
  unfold recordEvent
  rw [perform_ask]
  cases d.lookUp_cases member e.event.eventId with
  | inl hhit =>
    have hans : d.answer member (.lookUp e.event.eventId) =
        (true, (d.lookUp member e.event.eventId).2) := Prod.ext hhit.1 rfl
    rw [hans]
    exact .inl ⟨hhit.2, rfl⟩
  | inr hmiss =>
    have hans : d.answer member (.lookUp e.event.eventId) = (false, d) := hmiss
    rw [hans]
    exact .inr rfl

theorem handled_deliver (hs : d.Sound) (call : Call) : d.Handled call (d.deliver call) := by
  unfold deliver
  cases call.handling_cases with
  | inl h =>
    obtain ⟨hnone, cause, hh⟩ := h
    rw [hh]
    exact .rejected cause hnone
  | inr h =>
    obtain ⟨e, he, hh⟩ := h
    rw [hh, Errand.handling, handleAccepted, perform_bind]
    cases d.perform_recordEvent call.member e with
    | inl hhit =>
      rw [hhit.2]
      exact .seen he (hs _ hhit.1)
    | inr hmiss =>
      rw [hmiss]
      have henter := d.entered_insertNew call.member e
      generalize d.tick.perform call.member (insertNew (d.entry e)) = entered at henter
      cases henter with
      | known h => exact .known he h
      | failed reason h => exact .failed _ he h
      | homeless h => exact .homeless he h
      | done h => exact .taken he h

end Deployment

/-- Only the phase of the job `j` may have changed. -/
structure MemoryStore.Spares (j : String) (s s' : MemoryStore) : Prop where
  ledger : s'.ledger = s.ledger
  faults : s'.faults = s.faults
  pending : s.pending = [] → s'.pending = []
  assets : (s'.job? j).map Job.assets = (s.job? j).map Job.assets
  industry : (s'.job? j).map Job.industry = (s.job? j).map Job.industry
  other : ∀ {k}, k ≠ j → s'.row? k = s.row? k

namespace MemoryStore.Spares
variable {j : String} {s s' s'' : MemoryStore}

theorem refl (s : MemoryStore) : Spares j s s :=
  ⟨rfl, rfl, fun h => h, rfl, rfl, fun _ => rfl⟩

theorem of_eq (h : s' = s) : Spares j s s' := by
  rw [h]
  exact refl s

theorem trans (h : Spares j s s') (k : Spares j s' s'') : Spares j s s'' :=
  ⟨k.ledger.trans h.ledger, k.faults.trans h.faults, fun hp => k.pending (h.pending hp),
    k.assets.trans h.assets, k.industry.trans h.industry, fun hk => (k.other hk).trans (h.other hk)⟩

theorem row_putRow {r row : JobRow} (hr : s.row? j = some r) (hrow : row.job.id = r.job.id) :
    ({ s with rows := MemoryStore.putRow row s.rows } : MemoryStore).row? j = some row :=
  (find_putRow row s.rows j).trans (if_pos (hrow.trans (row_id hr)))

theorem putRow {r row : JobRow} (hr : s.row? j = some r) (hrow : row.job.id = r.job.id)
    (ha : row.job.assets = r.job.assets) (hi : row.job.industry = r.job.industry) :
    Spares j s { s with rows := MemoryStore.putRow row s.rows } where
  ledger := rfl
  faults := rfl
  pending := fun h => h
  assets := by simp [job?, row_putRow hr hrow, hr, ha]
  industry := by simp [job?, row_putRow hr hrow, hr, hi]
  other := by
    intro k hk
    have hne : row.job.id ≠ k := fun h => hk (h.symm.trans (hrow.trans (row_id hr)))
    simp [row?, find_putRow, hne]

theorem withoutPending (s : MemoryStore) (j : String) : Spares j s (s.withoutPending j) :=
  ⟨rfl, rfl, fun h => by simp [MemoryStore.withoutPending, h], rfl, rfl, fun _ => rfl⟩

theorem settle (s : MemoryStore) (j : String) : Spares j s (s.settle j) := by
  unfold MemoryStore.settle
  split
  · rename_i r p hr _
    have hr' : (s.withoutPending j).row? j = some r := hr
    exact (withoutPending s j).trans (putRow hr' rfl rfl rfl)
  · exact withoutPending s j

theorem swap (now : Instant) (s : MemoryStore) (j : String) (p q : Phase) :
    Spares j s (s.swap now j p q).2 := by
  unfold MemoryStore.swap
  split
  · exact refl s
  · rename_i r hr
    split
    · exact putRow hr rfl rfl rfl
    · exact refl s

theorem answer {c : StoreCall} (hc : ∀ e, c ≠ .insertEvent e) (now : Instant) (s : MemoryStore) :
    Spares c.jobId s (s.answer now c).2 := by
  cases c with
  | phaseOf j => exact of_eq (answer_phaseOf s j now).1
  | hasEvent j t => exact of_eq (answer_hasEvent s j t now).1
  | assetsOf j => exact of_eq (answer_assetsOf s j now).1
  | industryOf j => exact of_eq (answer_industryOf s j now)
  | insertEvent e => exact absurd rfl (hc e)
  | swapPhase j p q =>
    unfold MemoryStore.answer
    split
    · exact refl s
    · exact (settle s j).trans (swap now (s.settle j) j p q)

end MemoryStore.Spares

namespace Deployment
variable {d d' : Deployment} {j : String} {member : Nat}

theorem answer_spares {r : Request} (hr : r.Moves j) (member : Nat) (d : Deployment) :
    MemoryStore.Spares j d.store (d.answer member r).2.store ∧
      (d.answer member r).2.recent = d.recent := by
  cases r with
  | store c =>
    obtain ⟨rfl, hne⟩ := hr.store
    exact ⟨.answer hne d.clock d.store, rfl⟩
  | publish | report => exact ⟨.refl _, rfl⟩
  | lookUp | remember | now =>
    simp [Request.Moves, Request.Reads, Request.Notifies, Request.Solicits] at hr

theorem perform_spares {α : Type} {p : Handling α} {R : α → Prop} (hp : p.Within (·.Moves j) R)
    (member : Nat) (d : Deployment) :
    MemoryStore.Spares j d.store (d.perform member p).2.store ∧
      (d.perform member p).2.recent = d.recent ∧ R (d.perform member p).1 := by
  induction p generalizing d with
  | done a => exact ⟨.refl _, rfl, hp⟩
  | ask r next ih =>
    have hr := answer_spares hp.1 member d
    have hrest := ih _ (hp.2 (d.answer member r).1) (d.answer member r).2
    exact ⟨hr.1.trans hrest.1, hrest.2.1.trans hr.2, hrest.2.2⟩

theorem taken_advanceJob {job : Job} (hj : d.store.job? j = some job) (id t : String) :
    (d.perform member (advanceJob id j t)).1.taken = true := by
  unfold advanceJob askStore
  rw [perform_ask]
  have hx : (d.answer member (.store (.phaseOf j))).1 = .ok (some job.phase) ∨
      ∃ cause, (d.answer member (.store (.phaseOf j))).1 = .error cause := by
    rw [← MemoryStore.phase_of_job hj]
    exact (MemoryStore.answer_phaseOf d.store j d.clock).2.imp_right fun h => h.2
  generalize d.answer member (.store (.phaseOf j)) = x at hx
  cases hx with
  | inl hx =>
    rw [hx]
    simp only [perform_bind]
    cases (x.2.perform member (applyEvent j t job.phase)).1 <;> rfl
  | inr hx =>
    obtain ⟨cause, hx⟩ := hx
    rw [hx]
    rfl

theorem Accepts.taken {e : Errand} (ha : d.Accepts e) (member : Nat) :
    ((d.noting member e).perform member
      (advanceJob e.event.eventId e.event.jobId e.eventType)).1.taken = true := by
  obtain ⟨job, hj⟩ := ha.job
  have hj' : (d.noting member e).store.job? e.event.jobId = some job := hj
  exact taken_advanceJob hj' _ _

namespace Handled
variable {call : Call} {y : Outcome × Deployment}

theorem of_accepts {e : Errand} (h : d.Handled call y) (he : call.errand? = some e)
    (ha : d.Accepts e) : y = (d.noting call.member e).perform call.member
      (advanceJob e.event.eventId e.event.jobId e.eventType) := by
  cases h with
  | rejected cause hnone =>
    rw [he] at hnone
    cases hnone
  | seen he' hr | known he' hr =>
    cases he.symm.trans he'
    rw [ha.new] at hr
    cases hr
  | failed cause he' hf =>
    cases he.symm.trans he'
    rw [ha.works] at hf
    cases hf
  | homeless he' hj =>
    cases he.symm.trans he'
    obtain ⟨job, hjob⟩ := ha.job
    rw [hjob] at hj
    cases hj
  | taken he' =>
    cases he.symm.trans he'
    rfl

theorem taken_iff (h : d.Handled call y) :
    y.1.taken = true ↔ ∃ e, call.errand? = some e ∧ d.Accepts e := by
  constructor
  · intro ht
    cases h with
    | rejected | seen | known | failed | homeless => cases ht
    | taken he ha => exact ⟨_, he, ha⟩
  · intro hex
    obtain ⟨e, he, ha⟩ := hex
    rw [h.of_accepts he ha]
    exact ha.taken call.member

theorem untaken (h : d.Handled call y) (ht : y.1.taken = false) :
    y.2.store = d.store ∧ y.2.bus = d.bus := by
  cases h with
  | rejected | known | failed | homeless => exact ⟨rfl, rfl⟩
  | seen =>
    simp only [lookUp]
    split <;> exact ⟨rfl, rfl⟩
  | taken he ha =>
    rw [ha.taken] at ht
    cases ht

end Handled

theorem Sound.congr (h : d.Sound) (hr : d'.recent = d.recent)
    (hl : d'.store.ledger = d.store.ledger) : d'.Sound := by
  intro id hc
  rw [Caches, hr] at hc
  rw [MemoryStore.recorded, hl]
  exact h id hc

theorem Sound.remember {id : String} (h : d.Sound) (hr : d.store.recorded id = true) :
    (d.remember member id).Sound := by
  intro i hc
  cases (Answered.served member (.remember id) d).caches hc with
  | inl hold => exact h i hold
  | inr hnew =>
    cases hnew
    exact hr

theorem Sound.lookUp (h : d.Sound) (id : String) : (d.lookUp member id).2.Sound := by
  have hx := Answered.served member (.lookUp id) d
  intro i hc
  have hold := (hx.caches hc).resolve_right fun he => nomatch he
  exact (congrArg (fun s => s.recorded i) (hx.store_eq rfl)).trans (h i hold)

theorem Sound.noting {e : Errand} (h : d.Sound) : (d.noting member e).Sound := by
  apply Sound.remember
  · intro i hc
    have hold := h i hc
    simp only [MemoryStore.recorded, onStore, tick, List.any_append] at hold ⊢
    simp [hold]
  · simp [MemoryStore.recorded, onStore, tick, entry]

theorem Handled.sound {call : Call} {y : Outcome × Deployment} (hh : d.Handled call y)
    (h : d.Sound) : y.2.Sound := by
  cases hh with
  | rejected => exact h
  | seen he => exact h.lookUp _
  | known he hr => exact Sound.remember (h.congr rfl rfl) hr
  | failed | homeless => exact h.congr rfl rfl
  | @taken e he ha =>
    have hspares := perform_spares (advanceJob_within e.event.eventId e.event.jobId e.eventType)
      call.member (d.noting call.member e)
    exact Sound.congr (Sound.noting h) hspares.2.1 hspares.1.ledger

theorem Handled.ledger {call : Call} {y : Outcome × Deployment} (h : d.Handled call y) :
    d.store.ledger <+: y.2.store.ledger := by
  cases h with
  | rejected | known | failed | homeless => exact List.prefix_rfl
  | @seen e =>
    have hx := Answered.served call.member (.lookUp e.event.eventId) d
    have hsame : (d.lookUp call.member e.event.eventId).2.store = d.store := hx.store_eq rfl
    exact hsame ▸ List.prefix_rfl
  | @taken e =>
    have hspares := perform_spares (advanceJob_within e.event.eventId e.event.jobId e.eventType)
      call.member (d.noting call.member e)
    rw [hspares.1.ledger]
    exact List.prefix_append _ _

theorem Sound.obey (h : d.Sound) (c : Command) : (d.obey c).2.Sound := by
  cases c with
  | create | fail | recover | interleave | refuse | heal => exact h.congr rfl rfl
  | deliver call => exact (handled_deliver h call).sound h

theorem Sound.follow (h : d.Sound) (script : List Command) : (d.follow script).Sound := by
  induction script generalizing d with
  | nil => exact h
  | cons c cs ih => exact ih (h.obey c)

theorem recorded_of_prefix {s s' : MemoryStore} {id : String} (h : s.ledger <+: s'.ledger)
    (hr : s.recorded id = true) : s'.recorded id = true := by
  obtain ⟨e, hm, he⟩ := List.any_eq_true.1 hr
  exact List.any_eq_true.2 ⟨e, h.subset hm, he⟩

theorem ledger_follow (h : d.Sound) (script : List Command) :
    d.store.ledger <+: (d.follow script).store.ledger := by
  induction script generalizing d with
  | nil => exact List.prefix_rfl
  | cons c cs ih =>
    have hc : d.store.ledger <+: (d.obey c).2.store.ledger := by
      cases c with
      | create | fail | recover | interleave | refuse | heal => exact List.prefix_rfl
      | deliver call => exact (handled_deliver h call).ledger
    exact hc.trans (ih (h.obey c))

end Deployment
end PhaseKeeper
