import PhaseKeeper.Proofs.Handling.Course
import PhaseKeeper.Proofs.Interleaving.Terms
/-!
No event goes unnoticed. A handler whose swap is lost stops there, in the hope that the winner sees to
the rest. It does: whoever brings a job into a phase, or records an event while the job is there, looks
at the ledger after that, and does not end before the job has left the phase if a step is due.
-/
namespace PhaseKeeper

namespace MemoryStore
variable {s s' : MemoryStore} {j t : String} {p q : Phase}

/-- The job is in the phase `q`, and an event of type `t` would move it on from there. -/
def Due (s : MemoryStore) (j t : String) (q : Phase) : Prop :=
  ∃ job, s.job? j = some job ∧ job.phase = q ∧
    (Step.plan job.assets (s.hasEvent j) t false q).isAdvance = true

/-- The job has left the phase `q` behind. -/
def Past (s : MemoryStore) (j : String) (q : Phase) : Prop := ∃ p, s.phase? j = some p ∧ q < p

theorem Past.later (h : s.Past j q) (hl : s.Later s') : s'.Past j q := by
  obtain ⟨p, hp, hq⟩ := h
  obtain ⟨p', hp', hle⟩ := hl.phase hp
  exact ⟨p', hp', Nat.lt_of_lt_of_le hq hle⟩

theorem Due.phase (h : s.Due j t q) : s.phase? j = some q := by
  obtain ⟨job, hj, rfl, -⟩ := h
  exact phase_of_job hj

theorem Due.later (h : s.Due j t q) (hl : s.Later s') : s'.Past j q ∨ s'.Due j t q := by
  obtain ⟨job, hj, rfl, ha⟩ := h
  obtain ⟨job', hj', hassets, -, hle⟩ := hl.job hj
  by_cases hp : job.phase = job'.phase
  · exact .inr ⟨job', hj', hp.symm, hassets ▸ Step.isAdvance_mono hl.hasEvent ha⟩
  · exact .inl ⟨job'.phase, phase_of_job hj', Phase.lt_of_le_of_ne hle hp⟩

theorem not_due_completed : ¬ s.Due j t .completed := by
  rintro ⟨job, -, -, ha⟩
  have hg : ¬ (t = Topic.evidences ∧ Phase.completed < .evidence ∧
      s.hasEvent j Topic.matchings = true) := fun h => absurd h.2.1 (by decide)
  rw [Step.plan, if_neg hg] at ha
  cases ha

end MemoryStore

/-- The request has recorded an event of the job or moved it, and now the job is in the phase `q` and has
to be moved on by who serves an event of type `t`. -/
def Alerts (j t : String) (q : Phase) (r : Request) (d d' : Deployment) : Prop :=
  ((∃ e, r = .store (.insertEvent e) ∧ e.jobId = j ∧ d.store.Recorded e d'.store) ∨
    ∃ p p', r = .store (.swapPhase j p p') ∧ d.store.Moved j p p' d'.store) ∧
  d'.store.Due j t q

namespace Alerts
variable {j t : String} {q : Phase} {r : Request} {d d' : Deployment}

theorem writes_eq (h : Alerts j t q r d d') : r.writes = true := by
  obtain ⟨e, rfl, -⟩ | ⟨p, p', rfl, -⟩ := h.1 <;> rfl

theorem store_ne (h : Alerts j t q r d d') : d'.store ≠ d.store := by
  intro he
  obtain ⟨e, -, -, hr⟩ | ⟨p, p', -, hm⟩ := h.1
  · rw [he] at hr
    exact MemoryStore.not_recorded_self hr
  · rw [he] at hm
    exact MemoryStore.not_moved_self hm

end Alerts

namespace Pact

/-- To see that the job leaves the phase `q` if one was alerted; this is what one notes. -/
def attending (j t : String) (q : Phase) : Pact Prop where
  valid d := d.store.Calm
  rely d d' := d.store.Later d'.store
  duty _ _ _ _ _ := True
  note n r d _ d' := n ∨ Alerts j t q r d d'
  refl := Deployment.later_refl
  trans := @Deployment.later_trans

variable {j t : String} {q : Phase}

theorem attending_steady : Steady (attending j t q).valid := fun _ h => h.faults

theorem attending_quiet {r : Request}
    (hr : ∀ {d d'}, d.store.Calm → ¬ Alerts j t q r d d')
    (hl : ∀ {d d'} {x : r.Reply}, d.store.Calm → Answered r d x d' → d.store.Later d'.store) :
    (attending j t q).Quiet r where
  duty _ _ := trivial
  note hv _ := propext ⟨fun h => h.elim id fun ha => absurd ha (hr hv), .inl⟩
  rely hv hx := hl hv hx

theorem attending_quiet_of_writes {r : Request} (hr : r.writes = false) :
    (attending j t q).Quiet r := by
  refine attending_quiet (fun _ ha => ?_) fun _ hx => ?_
  · have hw := ha.writes_eq
    rw [hr] at hw
    cases hw
  · rw [hx.store_eq hr]
    exact .refl _

/-- Before a step from the phase `p` is decided that at most `m - 1` others follow. -/
structure Attending (j t : String) (q : Phase) (m : Nat) (p : Phase) (n : Prop) (d : Deployment) :
    Prop where
  phase : ∃ p', d.store.phase? j = some p' ∧ p ≤ p'
  room : longestChain ≤ m + p.rank
  alerted : n → d.store.Past j q ∨ (p = q ∧ d.store.Due j t q)

namespace Attending
variable {m : Nat} {p p' : Phase} {n : Prop} {d d' : Deployment} {job : Job} {view : String → Bool}
  {first : Bool}

theorem later (h : Attending j t q m p n d) (hl : d.store.Later d'.store) :
    Attending j t q m p n d' := by
  obtain ⟨p', hp', hle⟩ := h.phase
  obtain ⟨p'', hp'', hle'⟩ := hl.phase hp'
  refine ⟨⟨p'', hp'', Phase.le_trans hle hle'⟩, h.room, fun hn => ?_⟩
  obtain hpast | ⟨hpq, hdue⟩ := h.alerted hn
  · exact .inl (hpast.later hl)
  · exact (hdue.later hl).imp_right fun hdue' => ⟨hpq, hdue'⟩

theorem past_of_plan (h : Attending j t q m p n d) (hn : n) (hj : d.store.job? j = some job)
    (hv : ∀ {t}, d.store.hasEvent j t = true → view t = true)
    (hs : (Step.plan job.assets view t first p).isAdvance = false) : d.store.Past j q := by
  obtain hpast | ⟨rfl, job', hj', -, ha⟩ := h.alerted hn
  · exact hpast
  · obtain rfl := Option.some.inj (hj.symm.trans hj')
    rw [Step.isAdvance_mono hv ha] at hs
    cases hs

theorem past_of_lost (h : Attending j t q m p n d) (hn : n) (hp : d.store.phase? j ≠ some p) :
    d.store.Past j q := by
  obtain hpast | ⟨rfl, hdue⟩ := h.alerted hn
  · exact hpast
  · exact absurd hdue.phase hp

theorem moved (h : Attending j t q (m + 1) p n d) (hm : d.store.Moved j p p' d'.store)
    (hlt : p < p') :
    Attending j t q m p' (n ∨ Alerts j t q (.store (.swapPhase j p p')) d d') d' := by
  have hphase := hm.phase
  have hroom := h.room
  have hrank : p.rank < p'.rank := hlt
  refine ⟨⟨p', hphase, p'.le_refl⟩, by omega, fun hn => ?_⟩
  obtain hn | ⟨-, hdue⟩ := hn
  · obtain hpast | ⟨rfl, -⟩ := h.alerted hn
    · exact .inl (hpast.later (hm.later hlt))
    · exact .inl ⟨p', hphase, hlt⟩
  · exact .inr ⟨Option.some.inj (hphase.symm.trans hdue.phase), hdue⟩

end Attending

theorem attending_course (id j t : String) (q : Phase) :
    (attending j t q).Course id j t (fun n _ => ¬ n)
      (fun n d => (∃ job, d.store.job? j = some job) ∧
        (n → d.store.Past j q ∨ d.store.Due j t q))
      (fun _ => Attending j t q) (fun n d => n → d.store.Past j q) where
  later := fun h => h
  quiet := by
    rintro r (hr | rfl | ⟨i, rfl⟩)
    · exact attending_quiet_of_writes hr.writes_eq
    all_goals exact attending_quiet_of_writes rfl
  remember hv _ hx :=
    have hq := attending_quiet_of_writes (j := j) (t := t) (q := q) (r := .remember id) rfl
    ⟨hq.duty hv hx, hq.note hv hx, hq.rely hv hx⟩
  new_later h _ := h
  recorded_later := by
    rintro n d d' ⟨⟨job, hj⟩, ha⟩ hl
    obtain ⟨job', hj', -⟩ := hl.job hj
    refine ⟨⟨job', hj'⟩, fun hn => ?_⟩
    obtain hpast | hdue := ha hn
    · exact .inl (hpast.later hl)
    · exact hdue.later hl
  deciding_later h hl := h.later hl
  post_later h hl hn := (h hn).later hl
  lookUp := by
    intro n d d' x hn hv hx
    have hnote := (attending_quiet_of_writes rfl).note (n := n) hv hx
    rw [hnote]
    exact ⟨trivial, fun _ hn' => absurd hn' hn, fun _ => hn⟩
  insert := by
    intro n d d' now x hn hv hx
    refine ⟨trivial, fun hne => ?_, fun he => ?_⟩
    · rintro (hn' | ha)
      · exact absurd hn' hn
      · exact absurd (hx.unrecorded hne) ha.store_ne
    · have hr := hx.recorded he
      obtain ⟨job, hj⟩ := Option.isSome_iff_exists.1 hr.job
      obtain ⟨job', hj', -⟩ := hr.later.job hj
      refine ⟨⟨job', hj'⟩, ?_⟩
      rintro (hn' | ha)
      · exact absurd hn' hn
      · exact .inr ha.2
  job h := h.1
  unread _ hs := absurd attending_steady hs
  read := by
    rintro n d p ⟨⟨job, hj⟩, ha⟩ hp
    refine ⟨⟨p, hp, p.le_refl⟩, Nat.le_add_right _ _, fun hn => ?_⟩
    obtain hpast | hdue := ha hn
    · exact .inl hpast
    · exact .inr ⟨Option.some.inj (hp.symm.trans hdue.phase), hdue⟩
  deciding_job h := by
    obtain ⟨p', hp', -⟩ := h.phase
    obtain ⟨job, hj, -⟩ := MemoryStore.phase_eq_some hp'
    exact ⟨job, hj⟩
  rest := by
    intro _ p n d h
    have hroom := h.room
    have hrank : p.rank < longestChain := by cases p <;> decide
    omega
  undecided _ hs := absurd attending_steady hs
  stay := by
    intro first m p n d d' job view h hl hj hb hp hn
    exact (h.past_of_plan hn hj (hb.lower attending_steady) (by rw [hp]; rfl)).later hl
  refire := by
    intro first m p n d d' job view h hl hj hb hp r hr
    refine keeps_firing (fun r hr => attending_quiet_of_writes hr.writes_eq)
      (S := fun n d => n → d.store.Past j q) (fun h hl hn => (h hn).later hl) ?_ r hr _
    intro hn
    exact (h.past_of_plan hn hj (hb.lower attending_steady) (by rw [hp]; rfl)).later hl
  swap := by
    intro first m p p' effect n d d' d'' job view x h hv hl hj hb hp hx
    have hlt := Step.lt_of_advance hp
    have h' := h.later hl
    refine ⟨trivial, fun hne => ?_, fun he r hr => ?_⟩
    · obtain ⟨hs, hlost⟩ := hx.unmoved hv.pending hne
      -- A lost swap means that another handler has moved the job out of this phase.
      have hlost := hlost.resolve_left fun hf => hf hv.faults
      rintro (hn | ha)
      · rw [hs]
        exact h'.past_of_lost hn hlost
      · exact absurd hs ha.store_ne
    · have hm := hx.moved hv.pending he
      refine (keeps_firing (fun r hr => attending_quiet_of_writes hr.writes_eq)
        (fun h hl => h.later hl) (h'.moved hm hlt) r hr _).mono fun _ _ _ _ hend => ?_
      -- After the last phase nothing can be due, so an alert can only be about an earlier one.
      split
      · rename_i hpc
        intro hn
        obtain hpast | ⟨rfl, hdue⟩ := hend.alerted hn
        · exact hpast
        · rw [hpc] at hdue
          exact absurd hdue MemoryStore.not_due_completed
      · exact hend

theorem attending_terms (j : String) (q : Phase) :
    Terms (fun e => attending j e.eventType q) False (fun _ n d => n → d.store.Past j q)
      (·.store.Calm) where
  valid hv := hv
  pending hv := hv.pending
  rely hl := hl
  starts := by
    intro e d _
    by_cases hj : e.event.jobId = j
    · subst hj
      exact (attending_course e.event.eventId e.event.jobId e.eventType q).keeps_handleAccepted id
    · refine (Keeps.of_within e.handling_within fun r hr => ?_).mono fun _ n' _ _ h hn => ?_
      · refine attending_quiet (fun _ ha => ?_) fun hv hx => hx.later hv.pending hr
        obtain ⟨e', rfl, he', -⟩ | ⟨p, p', rfl, -⟩ := ha.1
        · exact hj (hr.2.1.symm.trans he')
        · exact hj hr.1.symm
      · rw [h.2.1] at hn
        exact hn.elim
  kept hv _ hx _ := hx.calm hv

theorem attending_notes (t : String) (q : Phase) (n : Prop) (log : List Deed) :
    (attending j t q).notes n log ↔
      n ∨ ∃ deed ∈ log, Alerts j t q deed.request deed.before deed.after := by
  induction log generalizing n with
  | nil => simp [notes]
  | cons deed log ih =>
    change (attending j t q).notes (n ∨ Alerts j t q deed.request deed.before deed.after) log ↔ _
    rw [ih]
    simp [or_assoc]

end Pact

namespace Crew
variable {c : Crew} {n : Nat} {j : String} {q : Phase}

def Alerted (c : Crew) (j : String) (q : Phase) : Prop :=
  ∃ deed ∈ c.log, ∃ e, c.errand? deed.handler = some e ∧
    Alerts j e.eventType q deed.request deed.before deed.after

theorem Upholds.past_of_alerted
    (hc : c.Upholds (fun e => Pact.attending j e.eventType q) False
      (fun _ n d => n → d.store.Past j q) (·.store.Calm))
    (hidle : c.idle = true) (ha : c.Alerted j q) : c.deployment.store.Past j q := by
  obtain ⟨deed, hd, e, he, hal⟩ := ha
  obtain ⟨h, hi, hcall⟩ := handler_of_errand he
  refine hc.ends (Pact.attending_terms j q) hi hcall (finished_of_idle hidle hi) ?_
  rw [Pact.attending_notes]
  exact .inr ⟨deed, List.mem_filter.2 ⟨hd, by simp⟩, hal⟩

end Crew

/-- Events of the job have been recorded since, all of the types `K` if that matters, and whichever of
these is served next would move the job on. -/
structure MemoryStore.Overdue (s : MemoryStore) (K : String → Prop) (n : Nat) (j : String)
    (q : Phase) : Prop where
  phase : s.phase? j = some q
  news : s.typesSince n j ≠ []
  due : ∀ t, K t → s.Due j t q

theorem MemoryStore.Overdue.congr {s s' : MemoryStore} {K : String → Prop} {n : Nat} {j : String}
    {q : Phase} (h : s'.Overdue K n j q) (hj : s'.job? j = s.job? j)
    (ht : ∀ n, s'.typesSince n j = s.typesSince n j) : s.Overdue K n j q := by
  refine ⟨?_, ht n ▸ h.news, fun t hK => ?_⟩
  · rw [phase?, ← hj]
    exact h.phase
  · obtain ⟨job, hjob, hp, ha⟩ := h.due t hK
    refine ⟨job, hj ▸ hjob, hp, Step.isAdvance_mono (fun {t} hv => ?_) ha⟩
    exact hasEvent_iff.2 (ht 0 ▸ hasEvent_iff.1 hv)

namespace Crew
variable {c : Crew} {K : String → Prop} {n : Nat} {j : String} {q : Phase}

/-- If the job is overdue then someone was alerted. -/
structure Watched (c : Crew) (K : String → Prop) (n : Nat) (j : String) (q : Phase) : Prop where
  since : n ≤ c.deployment.store.ledger.length
  homed : c.deployment.store.typesSince n j ≠ [] → ∃ job, c.deployment.store.job? j = some job
  alerted : c.deployment.store.Overdue K n j q → c.Alerted j q

/-- The types `K` are those that the errands for the job can have. -/
def Errands (c : Crew) (K : String → Prop) (j : String) : Prop :=
  ∀ {i e}, c.errand? i = some e → e.event.jobId = j → K e.eventType

theorem Watched.step (hw : c.Watched K n j q) (hc : c.Proper) (hK : c.Errands K j)
    (hp : c.deployment.store.pending = []) (m : Move) : (c.step m).Watched K n j q := by
  have hkeep {k e} : c.errand? k = some e → (c.step m).errand? k = some e := errand_step m
  have hs := c.step_cases m
  generalize c.step m = c' at hs hkeep
  have hold (hlog : ∀ deed ∈ c.log, deed ∈ c'.log) (ha : c.Alerted j q) : c'.Alerted j q := by
    obtain ⟨deed, hd, e, he, hal⟩ := ha
    exact ⟨deed, hlog deed hd, e, hkeep he, hal⟩
  cases hs with
  | disturbed =>
    have ht (n : Nat) : (m.disturb c.deployment).store.typesSince n j =
        c.deployment.store.typesSince n j :=
      MemoryStore.typesSince_congr (m.disturb_ledger c.deployment) n j
    have hl := m.disturb_later c.deployment
    refine ⟨Nat.le_trans hw.since hl.ledger.length_le, fun hne => ?_, fun hdue => ?_⟩
    · obtain ⟨job, hj⟩ := hw.homed (ht n ▸ hne)
      obtain ⟨job', hj', -⟩ := hl.job hj
      exact ⟨job', hj'⟩
    · obtain hj | ⟨hn, -⟩ := m.disturb_job c.deployment j
      · exact hold (fun _ h => h) (hw.alerted (hdue.congr hj ht))
      · obtain ⟨job, hj⟩ := hw.homed (ht n ▸ hdue.news)
        rw [hn] at hj
        cases hj
  | delivered call hm => exact ⟨hw.since, hw.homed, fun hdue => hold (fun _ h => h) (hw.alerted hdue)⟩
  | @acted i h r next x d hi hr hx =>
    obtain ⟨e, he, hserves, -⟩ := hc.acts hi hr
    have hl := hx.later hp hserves
    have hlog (deed : Deed) (hd : deed ∈ c.log) :
        deed ∈ c.log ++ [⟨i, r, x, c.deployment, d⟩] := List.mem_append_left _ hd
    have halert (ha : Alerts j e.eventType q r c.deployment d) :
        Crew.Alerted ⟨d, c.handlers.set i { h with rest := next x },
          c.log ++ [⟨i, r, x, c.deployment, d⟩]⟩ j q :=
      ⟨_, List.mem_append_right _ List.mem_cons_self, e, hkeep ((errand_of_handler hi).trans he), ha⟩
    -- an unchanged job with unchanged events is as it was
    have hsame (hj : d.store.job? j = c.deployment.store.job? j)
        (ht : ∀ n, d.store.typesSince n j = c.deployment.store.typesSince n j) :
        Crew.Watched ⟨d, c.handlers.set i { h with rest := next x },
          c.log ++ [⟨i, r, x, c.deployment, d⟩]⟩ K n j q :=
      ⟨Nat.le_trans hw.since hl.ledger.length_le, fun hne => hj ▸ hw.homed (ht n ▸ hne),
        fun hdue => hold hlog (hw.alerted (hdue.congr hj ht))⟩
    obtain hs | ⟨k, p, p', rfl, hm⟩ | ⟨e', rfl, hrec⟩ := hx.store_cases hp
    · exact hsame (by rw [hs]) fun n => by rw [hs]
    · have ht := MemoryStore.typesSince_congr hm.ledger
      by_cases hk : j = k
      · subst hk
        refine ⟨Nat.le_trans hw.since hl.ledger.length_le, fun hne => ?_, fun hdue => ?_⟩
        · obtain ⟨job, hj⟩ := hw.homed (ht n j ▸ hne)
          obtain ⟨t', hj'⟩ := hm.job hj
          exact ⟨_, hj'⟩
        · have hKe : K e.eventType := hK ((errand_of_handler hi).trans he) hserves.1.symm
          exact halert ⟨.inr ⟨p, p', rfl, hm⟩, hdue.due _ hKe⟩
      · exact hsame (by simp only [MemoryStore.job?, hm.other hk]) fun n => ht n j
    · have hjob : d.store.job? j = c.deployment.store.job? j := by rw [hrec.eq]; rfl
      by_cases hk : e'.jobId = j
      · refine ⟨Nat.le_trans hw.since hl.ledger.length_le, fun _ => ?_, fun hdue => ?_⟩
        · exact hjob ▸ Option.isSome_iff_exists.1 (hk ▸ hrec.job)
        · have hKe : K e.eventType :=
            hK ((errand_of_handler hi).trans he) (hserves.2.1.symm.trans hk)
          exact halert ⟨.inl ⟨e', rfl, hk, hrec⟩, hdue.due _ hKe⟩
      · exact hsame hjob fun n => hrec.typesSince_other hk n

theorem Watched.run {moves : List Move} (hw : c.Watched K n j q) (hc : c.Proper)
    (hK : (c.run moves).Errands K j) (hp : c.deployment.store.pending = []) :
    (c.run moves).Watched K n j q := by
  induction moves generalizing c with
  | nil => exact hw
  | cons m ms ih =>
    have hKc : c.Errands K j := fun he hej => hK (errand_run (m :: ms) he) hej
    exact ih (hw.step hc hKc hp m) (hc.step m) hK (step_pending hp m)

theorem Watched.not_overdue (hw : c.Watched K n j q)
    (hc : c.Upholds (fun e => Pact.attending j e.eventType q) False
      (fun _ n d => n → d.store.Past j q) (·.store.Calm))
    (hidle : c.idle = true) : ¬ c.deployment.store.Overdue K n j q := by
  intro hdue
  obtain ⟨p, hp, hlt⟩ := hc.past_of_alerted hidle (hw.alerted hdue)
  rw [hdue.phase] at hp
  cases hp
  exact absurd hlt (Phase.not_lt_of_le q.le_refl)

/-- Nothing that is recorded of the job waits for somebody to act on it. -/
structure Attended (c : Crew) (job : Job) : Prop where
  collection : job.phase = .collection → ∀ e ∈ c.deployment.store.ledger, e.jobId ≠ job.id
  features : job.phase = .featureExtraction →
    (∃ e ∈ c.deployment.store.ledger, e.jobId = job.id) →
    ∃ t ∈ job.assets.required, c.deployment.store.hasEvent job.id t = false
  evidence : job.phase = .evidence →
    c.deployment.store.hasEvent job.id Topic.evidences = false
  /-- Whatever was matched was not recorded while the job was in this phase. -/
  matching : job.phase = .matching → ∀ deed ∈ c.log, ∀ e,
    deed.after.store.ledger = deed.before.store.ledger ++ [e] → e.jobId = job.id →
    e.eventType = Topic.matchings → deed.before.store.phase? job.id ≠ some .matching

end Crew

theorem alerts_of_match {r : Request} {d d' : Deployment} {x : r.Reply} {e : LedgerEntry}
    (hx : Answered r d x d') (hp : d.store.pending = [])
    (hl : d'.store.ledger = d.store.ledger ++ [e]) (ht : e.eventType = Topic.matchings)
    (hj : d.store.phase? e.jobId = some .matching) :
    r = .store (.insertEvent e) ∧ Alerts e.jobId Topic.matchings .matching r d d' := by
  obtain hs | ⟨k, p, p', rfl, hm⟩ | ⟨e', rfl, hrec⟩ := hx.store_cases hp
  · rw [hs] at hl
    simp at hl
  · rw [hm.ledger] at hl
    simp at hl
  · have he : e' = e := by
      rw [hrec.eq] at hl
      simpa using hl
    subst he
    obtain ⟨job, hjob, hph⟩ := MemoryStore.phase_eq_some hj
    have hjob' : d'.store.job? e'.jobId = some job := by
      rw [hrec.eq]
      exact hjob
    refine ⟨rfl, .inl ⟨e', rfl, rfl, hrec⟩, job, hjob', hph, ?_⟩
    rfl

/-- No wake-up is lost. However many engines handle whatever they are given, in whatever order their
requests come, and even if nothing can be published: when all of them have ended, no job waits for an
event that is already recorded. -/
theorem no_wakeup_lost (capacities : List Nat) (clock : Instant) (moves : List Move)
    (hm : ∀ m ∈ moves, m.harmless = true) :
    let c := (Crew.fresh (.ofCapacities capacities clock)).run moves
    c.idle = true → ∀ j job, c.deployment.store.job? j = some job → c.Attended job := by
  intro c hidle j job hj
  have hstart : (Deployment.ofCapacities capacities clock).store.Calm := ⟨rfl, rfl⟩
  have hup (q : Phase) := (Crew.Upholds.fresh _ hstart).run (Pact.attending_terms j q)
    fun m hmem d hd => Move.disturb_calm (hm m hmem) hd
  have hwatched (q : Phase) : c.Watched (fun _ => True) 0 j q :=
    Crew.Watched.run ⟨Nat.zero_le _, fun h => absurd rfl h, fun h => absurd rfl h.news⟩
      (Crew.proper_fresh _) (fun _ _ => trivial) rfl
  -- A phase that every later event would end is not where a job is left with events recorded.
  have hrest {q : Phase} (hp : job.phase = q) (he : ∃ e ∈ c.deployment.store.ledger, e.jobId = j)
      (ha : ∀ t, (Step.phasePlan job.assets (c.deployment.store.hasEvent j) t false q).isAdvance =
        true) : False := by
    obtain ⟨e, he, hej⟩ := he
    have hmem := MemoryStore.mem_typesSince (n := 0).2 ⟨e, he, hej, rfl⟩
    exact (hwatched q).not_overdue (hup q) hidle
      ⟨hp ▸ MemoryStore.phase_of_job hj, List.ne_nil_of_mem hmem,
        fun t _ => ⟨job, hj, hp, Step.isAdvance_of_phasePlan (ha t)⟩⟩
  obtain rfl : job.id = j := MemoryStore.job_id hj
  refine ⟨fun hp e he hej => ?_, fun hp he => ?_, fun hp => ?_, fun hp deed hd e hl hej ht hM => ?_⟩
  · exact hrest hp ⟨e, he, hej⟩ fun _ => rfl
  · cases hr : job.assets.required.all (c.deployment.store.hasEvent job.id) with
    | false => simpa using List.all_eq_false.1 hr
    | true =>
      refine (hrest hp he fun t => ?_).elim
      simp [Step.phasePlan, hr, Step.startMatching, Step.isAdvance]
  · cases hev : c.deployment.store.hasEvent job.id Topic.evidences with
    | false => rfl
    | true =>
      obtain ⟨e, he, hej, -⟩ := MemoryStore.mem_typesSince.1 (MemoryStore.hasEvent_iff.1 hev)
      refine (hrest hp ⟨e, he, hej⟩ fun t => ?_).elim
      simp [Step.phasePlan, hev, Step.complete, Step.isAdvance]
  · -- The handler that recorded the match was alerted itself.
    have hc := hup .matching
    obtain ⟨hx, e', he', hserves⟩ := hc.proper.log hd
    obtain ⟨hr, hal⟩ := alerts_of_match hx (hc.held hd).pending hl ht (hej ▸ hM)
    rw [hr] at hserves
    rw [← ht, hej, hserves.2.2] at hal
    obtain ⟨p, hp', hlt⟩ := hc.past_of_alerted hidle ⟨deed, hd, e', he', hal⟩
    rw [MemoryStore.phase_of_job hj, hp] at hp'
    cases hp'
    exact absurd hlt (by decide)

/-- A job without assets goes as far as to the evidence phase when it is matched. -/
theorem no_wakeup_lost_after_match :
    let moves := Move.opening [Topic.matchings] ++ List.replicate 20 (.act 0 none)
    let c := (Crew.fresh (.ofCapacities [1] .epoch)).run moves
    (∀ m ∈ moves, m.harmless = true) ∧ c.idle = true ∧
      c.deployment.store.job? "job" =
        some ⟨"job", "retail", .evidence, ⟨false, false⟩, ⟨1, 0⟩⟩ ∧
      c.Attended ⟨"job", "retail", .evidence, ⟨false, false⟩, ⟨1, 0⟩⟩ := by
  intro moves c
  have hm : ∀ m ∈ moves, m.harmless = true := by decide +kernel
  have hidle : c.idle = true := by decide +kernel
  have hj : c.deployment.store.job? "job" =
      some ⟨"job", "retail", .evidence, ⟨false, false⟩, ⟨1, 0⟩⟩ := by decide +kernel
  exact ⟨hm, hidle, hj, no_wakeup_lost [1] .epoch moves hm hidle "job" _ hj⟩

end PhaseKeeper
