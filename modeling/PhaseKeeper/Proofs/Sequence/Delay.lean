import PhaseKeeper.Proofs.Interleaving.Tally
import PhaseKeeper.Proofs.Sequence.Erasure
import PhaseKeeper.Proofs.Sequence.Redelivery
/-!
A store that fails can only hold a job up. Less is recorded than without the failures, less is seen of it,
and fewer steps are taken; and a job that has seen less and is not as far gets no further with the next
event.
-/
namespace PhaseKeeper

/-- Nothing but deliveries, and faults of the store that come and go. -/
def Command.storeOnly : Command → Bool
  | .fail .. | .recover | .deliver _ => true
  | .create .. | .interleave .. | .refuse .. | .heal => false

theorem Command.transient_of_storeOnly {c : Command} (h : c.storeOnly = true) :
    c.transient = true := by
  cases c with
  | create | interleave => cases h
  | _ => rfl

def idsOf (calls : List Call) : List String := (errandsOf calls).map (·.event.eventId)

theorem idsOf_cons (call : Call) (calls : List Call) :
    idsOf (call :: calls) = idsOf [call] ++ idsOf calls := by
  rw [idsOf, errandsOf_cons, List.map_append]
  rfl

namespace Deployment
variable {d d' : Deployment} {j : String} {call : Call} {e : Errand} {script : List Command}

/-- There are the same jobs in `d` and in `d'`, none of them further in `d`; everything recorded in `d` is
recorded in `d'`, in this order; and no completion was told more often in `d`. -/
structure Behind (d d' : Deployment) : Prop where
  phase : ∀ j, Option.Rel (· ≤ ·) (d.store.phase? j) (d'.store.phase? j)
  ledger : (d.store.ledger.map LedgerEntry.untimed).Sublist
    (d'.store.ledger.map LedgerEntry.untimed)
  announced : ∀ j, d.bus.completions j ≤ d'.bus.completions j

theorem told_deliver (hp : d.store.pending = []) (call : Call) (j : String) :
    d.Told (d.deliver call).2 j := by
  obtain ⟨order, hend, hidle⟩ := Crew.worked_alone d call
  have htold := Crew.told_worked hp hidle j
  rwa [hend] at htold

theorem job_of_taken {job : Job} (hs : d.Sound) (hp : d.store.pending = [])
    (hj : d.store.job? e.event.jobId = some job) (he : call.errand? = some e) (ha : d.Accepts e) :
    ∃ job', (d.deliver call).2.store.job? e.event.jobId = some job' ∧
      job'.assets = job.assets ∧ job.phase ≤ job'.phase ∧
      job'.phase ≤ Step.landing job.assets
        (Step.seeing (d.store.hasEvent e.event.jobId) [e.eventType]) e.eventType job.phase := by
  obtain ⟨hledger, hspares⟩ := ledger_of_taken hs he ha
  have hassets : ((d.deliver call).2.store.job? e.event.jobId).map Job.assets = some job.assets := by
    have hkept := hspares.assets
    have hbefore : (d.noting call.member e).store.job? e.event.jobId = some job := hj
    rwa [hbefore] at hkept
  obtain ⟨job', hj', hsame⟩ := Option.map_eq_some_iff.1 hassets
  have hvalid : (Pact.justifying d.store.ledger.length job.phase e.event.jobId).valid d := by
    refine ⟨hp, Nat.le_refl _, fun {job''} hj'' => ?_⟩
    cases hj.symm.trans hj''
    exact .refl _ _ _ _
  obtain ⟨order, hend, -⟩ := Crew.worked_alone d call
  have hjustified := ((Pact.justifying_terms _ _ _).worked hvalid [call] order).holds.2
  rw [hend] at hjustified
  have hphase := hjustified.phase hj'
  have htypes : (d.deliver call).2.store.typesSince d.store.ledger.length e.event.jobId =
      [e.eventType] := by
    simp [MemoryStore.typesSince, hledger, entry]
  have hview := view_of_taken hs he ha e.event.jobId
  rw [stampsFor_own he rfl] at hview
  change Phase.Justified job'.assets job.phase job'.phase
    ((d.deliver call).2.store.typesSince d.store.ledger.length e.event.jobId)
    ((d.deliver call).2.store.hasEvent e.event.jobId) at hphase
  rw [htypes, hview, hsame] at hphase
  exact ⟨job', hj', hsame, hphase.le, hphase.le_landing⟩

theorem job_of_calm {job : Job} (hs : d.Sound) (hc : d.store.Calm)
    (hj : d.store.job? e.event.jobId = some job) (he : call.errand? = some e) (ha : d.Accepts e) :
    ∃ job', (d.deliver call).2.store.job? e.event.jobId = some job' ∧
      job'.assets = job.assets ∧ job'.phase = Step.landing job.assets
        (Step.seeing (d.store.hasEvent e.event.jobId) [e.eventType]) e.eventType job.phase := by
  obtain ⟨job', hj', hsame, -⟩ := job_of_taken hs hc.pending hj he ha
  have hid : e.event.jobId = job.id := (MemoryStore.job_id hj).symm
  rw [hid] at hj hj' ⊢
  have hlands := (lands_deliver hs (readable_of_calm hc.faults) hc.pending hj he hid ha).resolve_left
    fun h => h.1 hc.faults
  rw [MemoryStore.phase_of_job hj'] at hlands
  exact ⟨job', hj', hsame, Option.some.inj hlands⟩

theorem calm_deliver (hs : d.Sound) (hc : d.store.Calm) (call : Call) :
    (d.deliver call).2.store.Calm where
  faults := (faults_deliver hs call).trans hc.faults
  pending := pending_obey hs (c := .deliver call) rfl hc.pending

theorem job_of_taken_other (hs : d.Sound) (he : call.errand? = some e) (ha : d.Accepts e)
    (hj : j ≠ e.event.jobId) : (d.deliver call).2.store.job? j = d.store.job? j :=
  congrArg (Option.map JobRow.job) ((ledger_of_taken hs he ha).2.other hj)

/-- What is kept between a deployment whose store may fail and one where it does not. The events that are
still to come are new to both or to none. -/
structure Lags (coming : List String) (d d' : Deployment) : Prop where
  sound : d.Sound
  sound' : d'.Sound
  pending : d.store.pending = []
  calm : d'.store.Calm
  jobs : ∀ j, Option.Rel (fun job job' : Job => job'.assets = job.assets ∧ job.phase ≤ job'.phase)
    (d.store.job? j) (d'.store.job? j)
  ledger : (d.store.ledger.map LedgerEntry.untimed).Sublist
    (d'.store.ledger.map LedgerEntry.untimed)
  coming : ∀ id ∈ coming, d.store.recorded id = d'.store.recorded id

namespace Lags
variable {ids coming : List String}

theorem start (hs : d.Sound) (hc : d.store.Calm) (coming : List String) : Lags coming d d where
  sound := hs
  sound' := hs
  pending := hc.pending
  calm := hc
  jobs j := by
    cases d.store.job? j with
    | none => exact .none
    | some job => exact .some ⟨rfl, Phase.le_refl _⟩
  ledger := .refl _
  coming _ _ := rfl

theorem job (h : Lags coming d d') {job : Job} (hj : d.store.job? j = some job) :
    ∃ job', d'.store.job? j = some job' ∧ job'.assets = job.assets ∧ job.phase ≤ job'.phase := by
  have hjobs := h.jobs j
  rw [hj] at hjobs
  generalize d'.store.job? j = x at hjobs
  cases hjobs with
  | some hjob => exact ⟨_, rfl, hjob⟩

theorem hasEvent (h : Lags coming d d') {j t : String} (ht : d.store.hasEvent j t = true) :
    d'.store.hasEvent j t = true := by
  rw [← MemoryStore.hasEvent_untimed] at ht ⊢
  obtain ⟨e, he, hj⟩ := List.any_eq_true.1 ht
  exact List.any_eq_true.2 ⟨e, h.ledger.subset he, hj⟩

theorem accepts (h : Lags coming d d') (hid : e.event.eventId ∈ coming) (ha : d.Accepts e) :
    d'.Accepts e := by
  have hworks : d'.store.fails .insertEvent e.event.jobId = false := by
    rw [MemoryStore.fails, h.calm.faults]
    rfl
  refine ⟨hworks, ?_, (h.coming _ hid).symm.trans ha.new⟩
  obtain ⟨job, hj⟩ := ha.job
  obtain ⟨job', hj', -⟩ := h.job hj
  exact ⟨job', hj'⟩

theorem untaken (h : Lags coming d d') (hids : ∀ id ∈ ids, id ∈ coming)
    (hc : (d.deliver call).2.store = d.store) (hc' : (d'.deliver call).2.store = d'.store) :
    Lags ids (d.deliver call).2 (d'.deliver call).2 where
  sound := h.sound.obey (.deliver call)
  sound' := h.sound'.obey (.deliver call)
  pending := hc ▸ h.pending
  calm := hc' ▸ h.calm
  jobs := by
    rw [hc, hc']
    exact h.jobs
  ledger := by
    rw [hc, hc']
    exact h.ledger
  coming id hid := by
    rw [hc, hc']
    exact h.coming id (hids id hid)

theorem missed (h : Lags coming d d') (hids : ∀ id ∈ ids, id ∈ coming ∧ id ≠ e.event.eventId)
    (he : call.errand? = some e) (ha' : d'.Accepts e)
    (hc : (d.deliver call).2.store = d.store) :
    Lags ids (d.deliver call).2 (d'.deliver call).2 where
  sound := h.sound.obey (.deliver call)
  sound' := h.sound'.obey (.deliver call)
  pending := hc ▸ h.pending
  calm := calm_deliver h.sound' h.calm call
  jobs := by
    intro j
    have hbefore := h.jobs j
    rw [hc]
    by_cases hj : j = e.event.jobId
    · subst hj
      obtain ⟨job', hj'⟩ := ha'.job
      obtain ⟨job'', hj'', hassets, hle, -⟩ := job_of_taken h.sound' h.calm.pending hj' he ha'
      rw [hj'] at hbefore
      rw [hj'']
      generalize d.store.job? e.event.jobId = x at hbefore
      cases hbefore with
      | some hjob => exact .some ⟨hassets.trans hjob.1, Phase.le_trans hjob.2 hle⟩
    · rw [job_of_taken_other h.sound' he ha' hj]
      exact hbefore
  ledger := by
    rw [hc, (ledger_of_taken h.sound' he ha').1, List.map_append]
    exact h.ledger.trans (List.sublist_append_left _ _)
  coming id hid := by
    rw [hc, recorded_of_taken h.sound' he ha', decide_eq_false (hids id hid).2, Bool.or_false]
    exact h.coming id (hids id hid).1

theorem taken (h : Lags coming d d') (hids : ∀ id ∈ ids, id ∈ coming ∧ id ≠ e.event.eventId)
    (he : call.errand? = some e) (ha : d.Accepts e) (ha' : d'.Accepts e) :
    Lags ids (d.deliver call).2 (d'.deliver call).2 where
  sound := h.sound.obey (.deliver call)
  sound' := h.sound'.obey (.deliver call)
  pending := pending_obey h.sound (c := .deliver call) rfl h.pending
  calm := calm_deliver h.sound' h.calm call
  jobs := by
    intro j
    by_cases hj : j = e.event.jobId
    · subst hj
      obtain ⟨job, hjob⟩ := ha.job
      obtain ⟨job', hjob', hassets, hphase⟩ := h.job hjob
      obtain ⟨job₁, hj₁, hassets₁, -, hle⟩ := job_of_taken h.sound h.pending hjob he ha
      obtain ⟨job₂, hj₂, hassets₂, heq⟩ := job_of_calm h.sound' h.calm hjob' he ha'
      rw [hj₁, hj₂]
      -- Here the chain may break off anywhere; there it ends where the event lands the job, which is no
      -- earlier in a later phase and with more events seen.
      refine .some ⟨by rw [hassets₂, hassets, hassets₁], Phase.le_trans hle ?_⟩
      rw [heq, hassets]
      apply Step.landing_mono _ hphase
      intro t ht
      exact Step.seeing_iff.2 ((Step.seeing_iff.1 ht).imp_left h.hasEvent)
    · rw [job_of_taken_other h.sound he ha hj, job_of_taken_other h.sound' he ha' hj]
      exact h.jobs j
  ledger := by
    rw [(ledger_of_taken h.sound he ha).1, (ledger_of_taken h.sound' he ha').1, List.map_append,
      List.map_append]
    exact h.ledger.append (.refl _)
  coming id hid := by
    rw [recorded_of_taken h.sound he ha, recorded_of_taken h.sound' he ha',
      h.coming id (hids id hid).1]

theorem deliver (h : Lags coming d d') (hcall : ∀ e, call.errand? = some e →
      e.event.eventId ∈ coming ∧ e.event.eventId ∉ ids) (hids : ∀ id ∈ ids, id ∈ coming) :
    Lags ids (d.deliver call).2 (d'.deliver call).2 := by
  have hh := handled_deliver h.sound call
  have hh' := handled_deliver h.sound' call
  cases ht' : (d'.deliver call).1.taken with
  | false =>
    have ht : (d.deliver call).1.taken = false := by
      apply Bool.eq_false_iff.2
      intro ht
      obtain ⟨e, he, ha⟩ := hh.taken_iff.1 ht
      rw [hh'.taken_iff.2 ⟨e, he, h.accepts (hcall e he).1 ha⟩] at ht'
      cases ht'
    exact h.untaken hids (hh.untaken ht).1 (hh'.untaken ht').1
  | true =>
    obtain ⟨e, he, ha'⟩ := hh'.taken_iff.1 ht'
    have hothers (id : String) (hid : id ∈ ids) : id ∈ coming ∧ id ≠ e.event.eventId :=
      ⟨hids id hid, fun heq => (hcall e he).2 (heq ▸ hid)⟩
    -- from here on the ledgers differ for good if the store fails
    cases ht : (d.deliver call).1.taken with
    | false => exact h.missed hothers he ha' (hh.untaken ht).1
    | true =>
      obtain ⟨e', he', ha⟩ := hh.taken_iff.1 ht
      cases he.symm.trans he'
      exact h.taken hothers he ha ha'

theorem follow (h : Lags (idsOf (callsOf script)) d d')
    (ht : ∀ c ∈ script, c.storeOnly = true) (hids : (idsOf (callsOf script)).Nodup) :
    Lags [] (d.follow script) (d'.follow (deliveries script)) := by
  induction script generalizing d d' with
  | nil => exact h
  | cons c cs ih =>
    have htc := ht c List.mem_cons_self
    have htcs (c' : Command) (hc' : c' ∈ cs) := ht c' (List.mem_cons_of_mem c hc')
    cases c with
    | create | interleave | refuse | heal => cases htc
    -- a fault changes nothing that the two sides are compared by
    | fail | recover => exact ih { h with sound := h.sound.obey _ } htcs hids
    | deliver call =>
      have hsplit : idsOf (callsOf (.deliver call :: cs)) =
          idsOf [call] ++ idsOf (callsOf cs) := idsOf_cons call (callsOf cs)
      rw [hsplit] at h hids
      obtain ⟨-, hrest, hnew⟩ := List.nodup_append.1 hids
      refine ih (h.deliver ?_ fun id hid => List.mem_append_right _ hid) htcs hrest
      intro e he
      have hmem : e.event.eventId ∈ idsOf [call] := by simp [idsOf, errandsOf, he]
      exact ⟨List.mem_append_left _ hmem, fun hid => hnew _ hmem _ hid rfl⟩

theorem phase (h : Lags coming d d') (j : String) :
    Option.Rel (· ≤ ·) (d.store.phase? j) (d'.store.phase? j) := by
  have hjobs := h.jobs j
  rw [MemoryStore.phase?, MemoryStore.phase?]
  generalize d.store.job? j = x, d'.store.job? j = y at hjobs
  cases hjobs with
  | some hjob => exact .some hjob.2
  | none => exact .none

/-- As a completion is told once, it is told no earlier than a job completes. -/
theorem completions_le {c : Deployment} (h : Lags coming d d') (hd : c.Told d j)
    (hd' : c.Told d' j) : d.bus.completions j ≤ d'.bus.completions j := by
  rw [hd.count, hd'.count]
  apply Nat.add_le_add_left
  split
  · next htells =>
    obtain ⟨hopen, hdone, hbefore⟩ := htells
    obtain ⟨job, hj, hphase⟩ := Option.map_eq_some_iff.1 hdone
    obtain ⟨job', hj', -, hle⟩ := h.job hj
    rw [hphase] at hle
    have hdone' : d'.store.phase? j = some .completed := by
      rw [MemoryStore.phase_of_job hj', Phase.eq_completed_of_le hle]
    simp [hopen, hdone', hbefore]
  · exact Nat.zero_le _

end Lags

theorem told_obey {c : Command} (hp : d.store.pending = []) (ht : c.storeOnly = true)
    (j : String) : d.Told (d.obey c).2 j := by
  cases c with
  | create | interleave | refuse | heal => cases ht
  | fail | recover =>
    have hsame := Told.refl d j
    exact ⟨rfl, hsame.lasting, hsame.count⟩
  | deliver call => exact told_deliver hp call j

theorem told_follow (hs : d.Sound) (hp : d.store.pending = [])
    (ht : ∀ c ∈ script, c.storeOnly = true) (j : String) : d.Told (d.follow script) j := by
  induction script generalizing d with
  | nil => exact .refl d j
  | cons c cs ih =>
    have htc := ht c List.mem_cons_self
    have hpending := pending_obey hs (Command.transient_of_storeOnly htc) hp
    exact (told_obey hp htc j).trans
      (ih (hs.obey c) hpending fun c' hc' => ht c' (List.mem_cons_of_mem c hc'))

end Deployment

/-- Faults of the store delay jobs and do nothing else. The faults may concern any operation and any job and
change between deliveries, and the start is any deployment without faults that a run has led to. What holds
at the end of every script holds after each delivery of a script, since a script can end there. -/
theorem faults_only_delay {d : Deployment} {script : List Command} (hs : d.Sound)
    (hc : d.store.Calm) (ht : ∀ c ∈ script, c.storeOnly = true)
    (hids : (idsOf (callsOf script)).Nodup) :
    (d.follow script).Behind (d.follow (deliveries script)) := by
  have hdeliver : ∀ c ∈ deliveries script, c.storeOnly = true := by
    intro c hmem
    obtain ⟨call, -, rfl⟩ := List.mem_map.1 hmem
    rfl
  have hlags := (Deployment.Lags.start hs hc (idsOf (callsOf script))).follow ht hids
  exact ⟨hlags.phase, hlags.ledger, fun j =>
    hlags.completions_le (Deployment.told_follow hs hc.pending ht j)
      (Deployment.told_follow hs hc.pending hdeliver j)⟩

/-- A look-up fails, which the last event makes up for, and a match is not recorded, which nothing makes up
for: the job would be complete, but is still to be matched. -/
theorem faults_only_delay_images :
    let d := Deployment.imagesOnly
    let script : List Command := [.comes Topic.imageEmbeddings "a", .fail .hasEvent none,
      .comes Topic.imageKeypoints "b", .recover, .fail .insertEvent (some "job"),
      .comes Topic.matchings "c", .recover, .comes Topic.evidences "d"]
    (d.follow script).Behind (d.follow (deliveries script)) ∧
      (d.follow script).store.phase? "job" = some .matching ∧
      (d.follow (deliveries script)).store.phase? "job" = some .completed := by
  intro d script
  have hs : Deployment.imagesOnly.Sound :=
    .congr (Deployment.sound_ofCapacities [8] .epoch) rfl rfl
  exact ⟨faults_only_delay hs ⟨rfl, rfl⟩ (by decide) (by decide +kernel), by decide +kernel,
    by decide +kernel⟩

end PhaseKeeper
