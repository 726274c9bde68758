import PhaseKeeper.Proofs.Handling.Overtaking
import PhaseKeeper.Proofs.Sequence.Script
/-!
What one handling does to its job when nobody else is at work and the ledger can be read: it brings the
job to where the event lands it, unless the store fails on the way.
-/
namespace PhaseKeeper.Deployment
variable {d : Deployment} {j t : String} {member : Nat}

/-- The ledger can be read for the job. -/
def Readable (d : Deployment) (j : String) : Prop := d.store.fails .hasEvent j = false

theorem perform_seen (h : d.Readable j) (t : String) :
    d.perform member (seen j t) = (d.store.hasEvent j t, d) := by
  have hstore : d.store.answer d.clock (.hasEvent j t) = (.ok (d.store.hasEvent j t), d.store) :=
    if_neg (Bool.eq_false_iff.1 h)
  unfold seen askStore
  rw [perform_ask, answer_store hstore]
  rfl

theorem perform_allSeen (h : d.Readable j) (ts : List String) :
    d.perform member (allSeen j ts) = (ts.all (d.store.hasEvent j), d) := by
  induction ts with
  | nil => rfl
  | cons t ts ih =>
    rw [allSeen, perform_bind, perform_seen h]
    cases ht : d.store.hasEvent j t with
    | true => simpa [ht] using ih
    | false => simp [ht]; rfl

inductive Decides (d : Deployment) (planned : Step) : Except StoreFault Step × Deployment → Prop
  | failed (cause : StoreFault) (h : d.store.faults ≠ []) : Decides d planned (.error cause, d)
  | done : Decides d planned (.ok planned, d)

theorem decides_phaseStep {job : Job} (h : d.Readable j) (hj : d.store.job? j = some job)
    (first : Bool) (p : Phase) :
    d.Decides (Step.phasePlan job.assets (d.store.hasEvent j) t first p)
      (d.perform member (phaseStep j t first p)) := by
  cases p with
  | collection | completed => exact .done
  | matching =>
    simp only [phaseStep, Step.phasePlan]
    split
    · exact .done
    · cases first <;> exact .done
  | featureExtraction =>
    simp only [phaseStep, featureStep, askStore]
    rw [perform_ask]
    by_cases hf : d.store.fails .assetsOf j = true
    · have hstore : d.store.answer d.clock (.assetsOf j) =
          (.error (.unavailable (StoreOp.assetsOf.name ++ " failed for job " ++ j)), d.store) :=
        if_pos hf
      rw [answer_store hstore]
      exact .failed _ (MemoryStore.faults_of_fails hf)
    · have hstore : d.store.answer d.clock (.assetsOf j) = (.ok job.assets, d.store) := by
        have hworks : d.store.answer d.clock (.assetsOf j) =
            MemoryStore.perform d.clock (.assetsOf j) d.store := if_neg hf
        rw [hworks, MemoryStore.perform, hj]
      rw [answer_store hstore]
      change d.Decides _ (d.perform member (allSeen j job.assets.required >>= _))
      rw [perform_bind, perform_allSeen h]
      simp only [Step.phasePlan]
      cases job.assets.required.all (d.store.hasEvent j) <;> exact .done
  | evidence =>
    simp only [phaseStep, evidenceStep, Step.phasePlan]
    by_cases ht : t = Topic.evidences
    · simp only [ht, if_true, true_or]
      exact .done
    · simp only [ht, if_false, false_or]
      rw [perform_bind, perform_seen h]
      cases hv : d.store.hasEvent j Topic.evidences <;> exact .done

theorem decides_nextStep {job : Job} (h : d.Readable j) (hj : d.store.job? j = some job)
    (first : Bool) (p : Phase) :
    d.Decides (Step.plan job.assets (d.store.hasEvent j) t first p)
      (d.perform member (nextStep j t first p)) := by
  unfold nextStep Step.plan
  by_cases hg : t = Topic.evidences ∧ p < .evidence
  · rw [if_pos hg, perform_bind, perform_seen h]
    cases hm : d.store.hasEvent j Topic.matchings with
    | true =>
      rw [if_pos ⟨hg.1, hg.2, rfl⟩]
      exact .done
    | false =>
      rw [if_neg fun hall => nomatch hall.2.2]
      exact decides_phaseStep h hj first p
  · rw [if_neg hg, if_neg fun hall => hg ⟨hall.1, hall.2.1⟩]
    exact decides_phaseStep h hj first p

theorem perform_quiet {α : Type} {p : Handling α} {Q : Request → Prop} {R : α → Prop}
    (hp : p.Within Q R) (hq : ∀ r, Q r → r.writes = false) (member : Nat) (d : Deployment) :
    (d.perform member p).2.store = d.store ∧ R (d.perform member p).1 := by
  induction p generalizing d with
  | done a => exact ⟨rfl, hp⟩
  | ask r next ih =>
    have hr := (Answered.served member r d).store_eq (hq r hp.1)
    have hrest := ih _ (hp.2 (d.answer member r).1) (d.answer member r).2
    exact ⟨hrest.1.trans hr, hrest.2⟩

/-- In `d'` the job is where an event of type `t` lands it. -/
def Lands (d : Deployment) (job : Job) (t : String) (d' : Deployment) : Prop :=
  ∃ job', d'.store.job? job.id = some job' ∧ job'.assets = job.assets ∧
    job'.phase = Step.landing job.assets (d.store.hasEvent job.id) t job.phase

theorem Lands.of_rest {job : Job} (first : Bool) {d' : Deployment}
    (hj : d.store.job? job.id = some job) (hs : d'.store = d.store)
    (h : (Step.plan job.assets (d.store.hasEvent job.id) t first job.phase).isAdvance = false) :
    d.Lands job t d' := by
  refine ⟨job, hs ▸ hj, rfl, (Step.landing_of_rest ?_).symm⟩
  apply Bool.eq_false_iff.2
  intro ha
  exact Bool.eq_false_iff.1 h (Step.isAdvance_mono (fun h => h) ha)

theorem moved_job {job : Job} {q : Phase} {d' : Deployment} (hj : d.store.job? job.id = some job)
    (hm : d.store.Moved job.id job.phase q d'.store) :
    ∃ job', d'.store.job? job'.id = some job' ∧ job'.id = job.id ∧ job'.assets = job.assets ∧
      job'.phase = q := by
  obtain ⟨now, hjob⟩ := hm.job hj
  exact ⟨{ job with phase := q, updatedAt := now }, hjob, rfl, rfl, rfl⟩

theorem Lands.of_moved {job job' : Job} {first : Bool} {q : Phase} {effect : Option Effect}
    {d' d'' : Deployment}
    (hplan : Step.plan job.assets (d.store.hasEvent job.id) t first job.phase = .advance q effect)
    (hm : d.store.Moved job.id job.phase q d'.store) (hid : job'.id = job.id)
    (ha : job'.assets = job.assets) (hq : job'.phase = q) (h : d'.Lands job' t d'') :
    d.Lands job t d'' := by
  obtain ⟨job'', hj, hassets, hphase⟩ := h
  have hview : d'.store.hasEvent job'.id = d.store.hasEvent job.id := by
    funext u
    rw [hid, MemoryStore.hasEvent, MemoryStore.hasEvent, hm.ledger]
  refine ⟨job'', hid ▸ hj, hassets.trans ha, ?_⟩
  rw [hphase, hview, ha, hq, Step.landing_of_advance hplan]

/-- How a chain of `n + 1` steps goes. -/
inductive Goes (d : Deployment) (job : Job) (t : String) (first : Bool) (member n : Nat) :
    Except HandlingFault Report × Deployment → Prop
  | failed {d' : Deployment} (cause : StoreFault) (h : d.store.faults ≠ []) :
      Goes d job t first member n (.error (.store cause), d')
  | rests {d' : Deployment} {x : Except HandlingFault Report} (hs : d'.store = d.store)
      (h : (Step.plan job.assets (d.store.hasEvent job.id) t first job.phase).isAdvance = false) :
      Goes d job t first member n (x, d')
  | ends {d' : Deployment} {x : Except HandlingFault Report} {effect : Option Effect}
      (h : Step.plan job.assets (d.store.hasEvent job.id) t first job.phase =
        .advance .completed effect)
      (hm : d.store.Moved job.id job.phase .completed d'.store) : Goes d job t first member n (x, d')
  | goesOn {d' : Deployment} {q : Phase} {effect : Option Effect} {r : Report}
      (h : Step.plan job.assets (d.store.hasEvent job.id) t first job.phase = .advance q effect)
      (hm : d.store.Moved job.id job.phase q d'.store)
      (hr : r.jobId = job.id ∧ r.eventType = t ∧ r.finish = q) :
      Goes d job t first member n (d'.perform member (chain false n r))

theorem goes_chain {job : Job} (hr : d.Readable job.id) (hp : d.store.pending = [])
    (hj : d.store.job? job.id = some job) (first : Bool) (n : Nat) (r : Report)
    (hrj : r.jobId = job.id) (hrt : r.eventType = t) (hfinish : r.finish = job.phase) :
    d.Goes job t first member n (d.perform member (chain first (n + 1) r)) := by
  obtain ⟨k, u, start, finish, effects, conflict⟩ := r
  subst hrj hrt hfinish
  have hdecides : d.Decides (Step.plan job.assets (d.store.hasEvent job.id) u first job.phase)
      (d.perform member (nextStep job.id u first job.phase)) :=
    decides_nextStep hr hj first job.phase
  rw [chain, perform_bind]
  dsimp only
  generalize d.perform member (nextStep job.id u first job.phase) = x at hdecides
  cases hdecides with
  | failed cause h => exact .failed cause h
  | done =>
    cases hplan : Step.plan job.assets (d.store.hasEvent job.id) u first job.phase with
    | stay => exact .rests rfl (by rw [hplan]; rfl)
    | refire effect =>
      have hfire := perform_quiet (firing_within ⟨job.id, u, start, job.phase, effects, conflict⟩
        (some effect)) (fun _ h => h.writes_eq) member d
      exact .rests hfire.1 (by rw [hplan]; rfl)
    | advance q effect =>
      have hlt := Step.lt_of_advance hplan
      have hswap := (Answered.served member (.store (.swapPhase job.id job.phase q)) d).swap hp
      simp only [Phase.ensureForward_of_lt hlt, askStore]
      rw [perform_ask]
      generalize d.answer member (.store (.swapPhase job.id job.phase q)) = y at hswap
      obtain ⟨x, d₂⟩ := y
      generalize hs : d₂.store = s at hswap
      -- With nobody else at work a swap is not lost.
      cases hswap with
      | lost h => exact absurd (MemoryStore.phase_of_job hj) h
      | failed cause h => exact .failed cause h
      | done hm =>
        have hfire := perform_quiet (firing_within ⟨job.id, u, start, q, effects, conflict⟩ effect)
          (fun _ h => h.writes_eq) member d₂
        dsimp only
        rw [perform_bind]
        generalize d₂.perform member (Report.firing ⟨job.id, u, start, q, effects, conflict⟩
          effect) = z at hfire
        obtain ⟨y, d₃⟩ := z
        obtain ⟨hstore, -, hquiet, hreport⟩ := hfire
        have hm₃ : d.store.Moved job.id job.phase q d₃.store := by
          rw [hstore, hs]
          exact hm
        by_cases hq : q = .completed
        · subst hq
          cases y with
          | error cause => exact .ends hplan hm₃
          | ok r' => exact .ends hplan hm₃
        · -- Only an announcement can fail.
          obtain ⟨r', rfl⟩ := hquiet fun he => hq ((Step.announces_iff hplan).1 he)
          simp only [Phase.isTerminal, hq, decide_false]
          exact .goesOn hplan hm₃ (hreport r' rfl)

theorem lands_chain {job : Job} (hr : d.Readable job.id) (hp : d.store.pending = [])
    (hj : d.store.job? job.id = some job) (first : Bool) (n : Nat) (r : Report)
    (hrj : r.jobId = job.id) (hrt : r.eventType = t) (hfinish : r.finish = job.phase)
    (hn : 5 ≤ n + job.phase.rank) :
    (d.store.faults ≠ [] ∧ ∃ cause, (d.perform member (chain first n r)).1 = .error (.store cause)) ∨
      d.Lands job t (d.perform member (chain first n r)).2 := by
  -- On the steps that are left; each takes the job to a later phase, so there are always enough.
  induction n generalizing first r d job with
  | zero => exact absurd hn (by cases job.phase <;> decide)
  | succ n ih =>
    have hgoes : d.Goes job t first member n (d.perform member (chain first (n + 1) r)) :=
      goes_chain hr hp hj first n r hrj hrt hfinish
    generalize d.perform member (chain first (n + 1) r) = x at hgoes
    cases hgoes with
    | failed cause h => exact .inl ⟨h, cause, rfl⟩
    | rests hs h => exact .inr (.of_rest first hj hs h)
    | ends h hm =>
      obtain ⟨job', hj', hid, hassets, hphase⟩ := moved_job hj hm
      apply Or.inr
      apply Lands.of_moved h hm hid hassets hphase
      refine .of_rest false hj' rfl ?_
      rw [hphase]
      exact Step.rest_completed
    | @goesOn d' q effect r' h hm hreport =>
      obtain ⟨job', hj', hid, hassets, hphase⟩ := moved_job hj hm
      obtain ⟨hk, hu, hend⟩ := hreport
      have hread : d'.Readable job'.id := by
        rw [Readable, hid, MemoryStore.fails, hm.faults]
        exact hr
      have hfuel : 5 ≤ n + job'.phase.rank := by
        have hlt : job.phase.rank < q.rank := Step.lt_of_advance h
        rw [hphase]
        omega
      have hrest := ih hread (hm.pending.trans hp) hj' false r' (hk.trans hid.symm) hu
        (hend.trans hphase.symm) hfuel
      rw [hm.faults] at hrest
      exact hrest.imp_right (Lands.of_moved h hm hid hassets hphase)

theorem lands_advanceJob {job : Job} (hr : d.Readable job.id) (hp : d.store.pending = [])
    (hj : d.store.job? job.id = some job) (member : Nat) (id t : String) :
    (d.store.faults ≠ [] ∧
        ∃ cause, (d.perform member (advanceJob id job.id t)).1 = .failed (.store cause)) ∨
      d.Lands job t (d.perform member (advanceJob id job.id t)).2 := by
  unfold advanceJob askStore
  rw [perform_ask]
  by_cases hf : d.store.fails .phaseOf job.id = true
  · have hstore : d.store.answer d.clock (.phaseOf job.id) =
        (.error (.unavailable (StoreOp.phaseOf.name ++ " failed for job " ++ job.id)), d.store) :=
      if_pos hf
    rw [answer_store hstore]
    exact .inl ⟨MemoryStore.faults_of_fails hf, _, rfl⟩
  · have hstore : d.store.answer d.clock (.phaseOf job.id) = (.ok (some job.phase), d.store) := by
      have hworks : d.store.answer d.clock (.phaseOf job.id) =
          (.ok (d.store.phase? job.id), d.store) := if_neg hf
      rw [hworks, MemoryStore.phase_of_job hj]
    rw [answer_store hstore]
    have hchain : (d.store.faults ≠ [] ∧ ∃ cause,
        (d.perform member (applyEvent job.id t job.phase)).1 = .error (.store cause)) ∨
          d.Lands job t (d.perform member (applyEvent job.id t job.phase)).2 :=
      lands_chain hr hp hj true longestChain _ rfl rfl rfl (Nat.le_add_right _ _)
    change (_ ∧ ∃ cause, (d.perform member (applyEvent job.id t job.phase >>= _)).1 = _) ∨
      d.Lands job t (d.perform member (applyEvent job.id t job.phase >>= _)).2
    rw [perform_bind]
    generalize d.perform member (applyEvent job.id t job.phase) = y at hchain
    obtain ⟨x, d'⟩ := y
    cases x with
    | ok r => exact .inr (hchain.resolve_left fun h => nomatch h.2)
    | error cause =>
      cases hchain with
      | inl h =>
        obtain ⟨hfaults, cause', hc⟩ := h
        cases hc
        exact .inl ⟨hfaults, cause', rfl⟩
      | inr h => exact .inr h

end PhaseKeeper.Deployment
