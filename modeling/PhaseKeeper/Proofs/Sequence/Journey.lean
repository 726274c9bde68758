import PhaseKeeper.Proofs.Handling.Itinerary
import PhaseKeeper.Proofs.Interleaving.Tally
import PhaseKeeper.Proofs.Sequence.Alone
/-!
What one handling comes to when nothing fails in the store and nobody else writes: it records its event and
takes the job the way that the table says. Only the bus can still spoil the end of it.
-/
namespace PhaseKeeper
namespace Deployment
variable {d d' : Deployment} {j t : String} {member : Nat}

def announced (d : Deployment) (j : String) : Except HandlingFault Unit :=
  match d.bus.failing.lookup Topic.jobCompleted with
  | none => .ok ()
  | some reason => .error (.publish Topic.jobCompleted j (.transport reason))

/-- How firing all these effects ends. Only the announcement can fail. -/
def fired (d : Deployment) (j : String) (effects : List Effect) : Except HandlingFault Unit :=
  if .announceCompletion ∈ effects then d.announced j else .ok ()

theorem fired_congr (h : d'.bus.failing = d.bus.failing) (j : String) (effects : List Effect) :
    d'.fired j effects = d.fired j effects := by
  rw [fired, announced, h, fired, announced]

theorem fired_append {effects : List Effect} (h : .announceCompletion ∉ effects)
    (more : List Effect) : d.fired j (effects ++ more) = d.fired j more := by
  simp [fired, h]

theorem fired_open {effects : List Effect} (h : .announceCompletion ∈ effects → d.bus.Open) :
    d.fired j effects = .ok () := by
  unfold fired
  split
  · rename_i htold
    have hlookup : d.bus.failing.lookup Topic.jobCompleted = none := h htold
    rw [announced, hlookup]
  · rfl

theorem fired_refused {effects : List Effect} {reason : String} (h : .announceCompletion ∈ effects)
    (hrefused : d.bus.failing.lookup Topic.jobCompleted = some reason) :
    d.fired j effects = .error (.publish Topic.jobCompleted j (.transport reason)) := by
  rw [fired, if_pos h, announced, hrefused]

theorem perform_failing {α : Type} (p : Handling α) (member : Nat) (d : Deployment) :
    (d.perform member p).2.bus.failing = d.bus.failing := by
  induction p generalizing d with
  | done => rfl
  | ask r next ih => exact (ih _ _).trans (answer_failing member r d)

theorem perform_announce (d : Deployment) (member : Nat) (j : String) :
    (d.perform member (announce j)).1 = d.announced j := by
  have htopic : (JobCompleted.mk j).draft.topic = Topic.jobCompleted := rfl
  have hsend : (d.answer member (.publish (JobCompleted.mk j).draft)).1 =
      match d.bus.failing.lookup Topic.jobCompleted with
      | none => .ok ()
      | some reason => .error (.transport reason) := by
    simp only [answer, send, RecordingBus.send, htopic]
    cases d.bus.failing.lookup Topic.jobCompleted <;> rfl
  unfold announce announced
  rw [perform_ask, hsend]
  cases d.bus.failing.lookup Topic.jobCompleted <;> rfl

theorem perform_firing (d : Deployment) (member : Nat) (r : Report) (effect : Option Effect) :
    (d.perform member (r.firing effect)).1 = (d.fired r.jobId effect.toList).map fun _ =>
      { r with effects := r.effects ++ effect.toList } := by
  obtain _ | _ | _ := effect
  · simp [Report.firing, fired, Except.map]
    rfl
  · change (d.perform member (sendRequest r.jobId >>= _ >>= _)).1 = _
    rw [perform_bind, perform_bind]
    rfl
  · have hann := d.perform_announce member r.jobId
    change (d.perform member (announce r.jobId >>= _)).1 = (d.announced r.jobId).map _
    rw [perform_bind, ← hann]
    cases (d.perform member (announce r.jobId)).1 <;> rfl

/-- A handling that found the job as `job` has gone the way to its end. -/
structure Travels (d : Deployment) (job : Job) (r : Report) (way : Itinerary)
    (y : Except HandlingFault Report × Deployment) : Prop where
  reply : y.1 = (d.fired job.id way.effects).map fun _ =>
    { r with finish := way.finish job.phase, effects := r.effects ++ way.effects }
  history : y.2.store.history job.id = d.store.history job.id ++ way.stops
  phase : y.2.store.phase? job.id = some (way.finish job.phase)

theorem view_typesSince (s : MemoryStore) (j : String) :
    s.hasEvent j = fun t => decide (t ∈ s.typesSince 0 j) := by
  funext t
  rw [Bool.eq_iff_iff, MemoryStore.hasEvent_iff, decide_eq_true_eq]

variable {job : Job} {r : Report}

theorem Travels.stay (hj : d.store.job? job.id = some job) (hfinish : r.finish = job.phase) :
    d.Travels job r .stay (.ok r, d) where
  reply := by
    obtain ⟨k, u, start, finish, effects, conflict⟩ := r
    subst hfinish
    simp [Itinerary.stay, fired, Except.map, Itinerary.finish]
  history := (List.append_nil _).symm
  phase := MemoryStore.phase_of_job hj

theorem Travels.refire (hj : d.store.job? job.id = some job) (hfinish : r.finish = job.phase)
    (hrj : r.jobId = job.id) (effect : Effect) :
    d.Travels job r ⟨[], [effect]⟩ (d.perform member (r.firing (some effect))) := by
  have hquiet := perform_quiet (firing_within r (some effect)) (fun _ h => h.writes_eq) member d
  refine ⟨?_, ?_, ?_⟩
  · rw [perform_firing, hrj, ← hfinish]
    rfl
  · rw [List.append_nil]
    exact congrArg (·.history job.id) hquiet.1
  · exact (congrArg (·.phase? job.id) hquiet.1).trans (MemoryStore.phase_of_job hj)

theorem Travels.via {job' : Job} {q : Phase} {effects : List Effect} {rest : Itinerary}
    {y : Except HandlingFault Report × Deployment} (hid : job'.id = job.id) (hq : job'.phase = q)
    (hh : d'.store.history job.id = d.store.history job.id ++ [q])
    (hbus : d'.bus.failing = d.bus.failing) (heffects : .announceCompletion ∉ effects)
    (h : d'.Travels job' { r with finish := q, effects := r.effects ++ effects } rest y) :
    d.Travels job r (.via q effects rest) y where
  reply := by
    rw [h.reply, hid, fired_congr hbus, Itinerary.finish_via, hq, ← fired_append heffects,
      List.append_assoc]
    rfl
  history := by
    rw [← hid, h.history, hid, hh, List.append_assoc]
    rfl
  phase := by
    rw [← hid, h.phase, Itinerary.finish_via, hq]

theorem moves_calm (hc : d.store.Calm) (hj : d.store.job? job.id = some job) (member : Nat)
    (q : Phase) : ∃ d', d.answer member (.store (.swapPhase job.id job.phase q)) = (.ok true, d') ∧
      d.store.Moved job.id job.phase q d'.store ∧ d'.bus.failing = d.bus.failing := by
  have hswap := (Answered.served member (.store (.swapPhase job.id job.phase q)) d).swap hc.pending
  have hbus := answer_failing member (.store (.swapPhase job.id job.phase q)) d
  generalize d.answer member (.store (.swapPhase job.id job.phase q)) = y at hswap hbus
  obtain ⟨x, d'⟩ := y
  generalize hs : d'.store = s at hswap
  cases hswap with
  | lost h => exact absurd (MemoryStore.phase_of_job hj) h
  | failed cause h => exact absurd hc.faults h
  | done hm => exact ⟨d', rfl, hs ▸ hm, hbus⟩

theorem perform_arrive (d : Deployment) (member n : Nat) (r : Report) {q : Phase}
    {effect : Option Effect} (hq : q ≠ .completed) (he : .announceCompletion ∉ effect.toList) :
    ∃ d' : Deployment, d'.store = d.store ∧ d'.bus.failing = d.bus.failing ∧
      d.perform member (r.arrive n q effect) = d'.perform member (chain false n
        { r with finish := q, effects := r.effects ++ effect.toList }) := by
  have hfire := d.perform_firing member { r with finish := q } effect
  have hquiet := perform_quiet (firing_within { r with finish := q } effect)
    (fun _ h => h.writes_eq) member d
  rw [fired, if_neg he] at hfire
  refine ⟨_, hquiet.1, perform_failing _ member d, ?_⟩
  rw [Report.arrive, perform_bind, hfire]
  simp [Except.map, Phase.isTerminal, hq]

theorem perform_arrive_completed (d : Deployment) (member n : Nat) (r : Report) :
    (d.perform member (r.arrive n .completed (some .announceCompletion))).1 =
        ((d.fired r.jobId [.announceCompletion]).map fun _ =>
          { r with finish := .completed, effects := r.effects ++ [.announceCompletion] }) ∧
      (d.perform member (r.arrive n .completed (some .announceCompletion))).2.store = d.store := by
  have hfire : (d.perform member ({ r with finish := .completed }.firing (some .announceCompletion))).1 =
      (d.fired r.jobId [.announceCompletion]).map fun _ =>
        { r with finish := .completed, effects := r.effects ++ [.announceCompletion] } :=
    d.perform_firing member { r with finish := .completed } (some .announceCompletion)
  have hquiet := perform_quiet (firing_within { r with finish := .completed }
    (some .announceCompletion)) (fun _ h => h.writes_eq) member d
  rw [Report.arrive, perform_bind, hfire]
  cases d.fired r.jobId [.announceCompletion] <;> exact ⟨rfl, hquiet.1⟩

theorem Travels.completes {n : Nat} (hrj : r.jobId = job.id)
    (hm : d.store.Moved job.id job.phase .completed d'.store)
    (hbus : d'.bus.failing = d.bus.failing) : d.Travels job r .complete
      (d'.perform member (r.arrive n .completed (some .announceCompletion))) := by
  obtain ⟨hreply, hstore⟩ := d'.perform_arrive_completed member n r
  refine ⟨?_, ?_, ?_⟩
  · rw [hreply, hrj, fired_congr hbus]
    rfl
  · rw [hstore]
    exact hm.history
  · rw [hstore]
    exact hm.phase

theorem travels_chain (hc : d.store.Calm) (hj : d.store.job? job.id = some job) (first : Bool) (n : Nat)
    (r : Report) (hrj : r.jobId = job.id) (hrt : r.eventType = t) (hfinish : r.finish = job.phase) :
    d.Travels job r (.walk job.assets (d.store.typesSince 0 job.id) t first n job.phase)
      (d.perform member (chain first n r)) := by
  -- By induction on the steps that are left; the next one finds the job where this one has left it.
  induction n generalizing d job r first with
  | zero => exact .stay hj hfinish
  | succ n ih =>
    obtain ⟨k, u, start, finish, effects, conflict⟩ := r
    subst hrj hrt hfinish
    have hread : d.Readable job.id := by simp [Readable, MemoryStore.fails, hc.faults]
    have hdecides : d.Decides (Step.plan job.assets (d.store.hasEvent job.id) u first job.phase)
        (d.perform member (nextStep job.id u first job.phase)) :=
      decides_nextStep hread hj first job.phase
    rw [view_typesSince] at hdecides
    rw [chain_succ, perform_bind]
    dsimp only
    generalize d.perform member (nextStep job.id u first job.phase) = x at hdecides
    cases hdecides with
    | failed cause h => exact absurd hc.faults h
    | done =>
      cases hplan : Step.plan job.assets (· ∈ d.store.typesSince 0 job.id) u first job.phase with
      | stay =>
        rw [Itinerary.walk_stay hplan]
        exact .stay hj rfl
      | refire effect =>
        rw [Itinerary.walk_refire hplan]
        exact .refire hj rfl rfl effect
      | advance q effect =>
        rw [Itinerary.walk_advance hplan]
        obtain ⟨d₂, hswap, hm, hbus⟩ := moves_calm hc hj member q
        simp only [Report.pursue, Phase.ensureForward_of_lt (Step.lt_of_advance hplan), askStore]
        rw [perform_ask, hswap]
        by_cases hq : q = .completed
        · obtain rfl := (Step.announces_iff hplan).2 hq
          subst hq
          rw [Itinerary.walk_completed]
          exact .completes rfl hm hbus
        · have he : .announceCompletion ∉ effect.toList := by
            simpa using fun he => hq ((Step.announces_iff hplan).1 he)
          obtain ⟨d₃, hs₃, hbus₃, harrive⟩ :=
            d₂.perform_arrive member n ⟨job.id, u, start, job.phase, effects, conflict⟩ hq he
          have hm₃ : d.store.Moved job.id job.phase q d₃.store := hs₃ ▸ hm
          obtain ⟨job', hj', hid, hassets, hphase⟩ := moved_job hj hm₃
          have hrest := ih ⟨hm₃.faults.trans hc.faults, hm₃.pending.trans hc.pending⟩ hj' false
            ⟨job.id, u, start, q, effects ++ effect.toList, conflict⟩ hid.symm rfl hphase.symm
          rw [hassets, hphase, hid, MemoryStore.typesSince_congr hm₃.ledger] at hrest
          dsimp only
          rw [harrive]
          exact .via hid hphase hm₃.history (hbus₃.trans hbus) he hrest

theorem recordEvent_fresh {e : Errand} (ha : d.Accepts e) (hunseen : ¬ d.Caches e.event.eventId)
    (member : Nat) : d.perform member (recordEvent e.event.eventId e.event.jobId e.eventType) =
      (.recorded, d.noting member e) := by
  obtain ⟨hhit, -⟩ | hmiss := d.perform_recordEvent member e
  · exact absurd hhit hunseen
  · rw [hmiss]
    have henter := d.entered_insertNew member e
    generalize d.tick.perform member (insertNew (d.entry e)) = entered at henter
    cases henter with
    | known h => exact absurd (ha.new.symm.trans h) Bool.false_ne_true
    | failed reason h => exact absurd (ha.works.symm.trans h) Bool.false_ne_true
    | homeless h =>
      obtain ⟨job, hjob⟩ := ha.job
      exact absurd (hjob.symm.trans h) (Option.some_ne_none job)
    | done => rfl

theorem typesSince_noting {e : Errand} (ha : d.Accepts e) (member : Nat) :
    (d.noting member e).store.typesSince 0 e.event.jobId =
      d.store.typesSince 0 e.event.jobId ++ [e.eventType] := by
  have hnew : d.store.Recorded (d.entry e) (d.noting member e).store :=
    ⟨Option.isSome_iff_exists.2 ha.job, ha.new, rfl⟩
  have hown : (d.entry e).jobId = e.event.jobId := rfl
  rw [hnew.typesSince (Nat.zero_le _), if_pos hown]
  rfl

theorem deliver_recorded {call : Call} {e : Errand} (he : call.errand? = some e)
    (hr : d.perform call.member (recordEvent e.event.eventId e.event.jobId e.eventType) =
      (.recorded, d.noting call.member e)) :
    d.deliver call = (d.noting call.member e).perform call.member
      (advanceJob e.event.eventId e.event.jobId e.eventType) := by
  rw [deliver, Call.handling_of_errand he, Errand.handling, handleAccepted, perform_bind, hr]

theorem perform_advanceJob (hc : d.store.Calm) (hj : d.store.job? job.id = some job)
    (member : Nat) (id t : String) :
    let way := Itinerary.walk job.assets (d.store.typesSince 0 job.id) t true longestChain job.phase
    let y := d.perform member (advanceJob id job.id t)
    (y.1 = match d.fired job.id way.effects with
      | .ok () => .applied ⟨job.id, t, job.phase, way.finish job.phase, way.effects, false⟩
      | .error cause => .failed cause) ∧
    y.2.store.history job.id = d.store.history job.id ++ way.stops ∧
    y.2.store.phase? job.id = some (way.finish job.phase) := by
  intro way y
  have hread : d.answer member (.store (.phaseOf job.id)) = (.ok (some job.phase), d) := by
    have hstore : d.store.answer d.clock (.phaseOf job.id) = (.ok (some job.phase), d.store) := by
      have hworks : d.store.answer d.clock (.phaseOf job.id) =
          (.ok (d.store.phase? job.id), d.store) := if_neg (by simp [MemoryStore.fails, hc.faults])
      rw [hworks, MemoryStore.phase_of_job hj]
    exact answer_store hstore member
  have htravel : d.Travels job ⟨job.id, t, job.phase, job.phase, [], false⟩ way
      (d.perform member (applyEvent job.id t job.phase)) :=
    travels_chain hc hj true longestChain _ rfl rfl rfl
  have hy : y = d.perform member (applyEvent job.id t job.phase >>= conclude id job.id t job.phase) := by
    change d.perform member (advanceJob id job.id t) = _
    unfold advanceJob askStore
    rw [perform_ask, hread]
    rfl
  rw [hy, perform_bind, htravel.reply]
  cases d.fired job.id way.effects <;> exact ⟨rfl, htravel.history, htravel.phase⟩

end Deployment

/-- One handling follows the table, if nothing fails in the store and nobody else writes. Its event is
recorded, and the job goes the way of the table from where it was found. The outcome tells so, unless the
job is complete and the bus refuses to take that. -/
theorem handling_follows_timetable {d : Deployment} {call : Call} {e : Errand} {job : Job}
    (hcalm : d.store.Calm) (he : call.errand? = some e)
    (hjob : d.store.job? e.event.jobId = some job)
    (hfresh : d.store.recorded e.event.eventId = false) (hunseen : ¬ d.Caches e.event.eventId) :
    let recorded := d.store.typesSince 0 job.id ++ [e.eventType]
    let way := Itinerary.timetable job.assets recorded e.eventType job.phase
    let after := (d.deliver call).2.store
    after.typesSince 0 job.id = recorded ∧
      after.history job.id = d.store.history job.id ++ way.stops ∧
      after.phase? job.id = some (way.finish job.phase) ∧
      ((.announceCompletion ∈ way.effects → d.bus.Open) → (d.deliver call).1 =
        .applied ⟨job.id, e.eventType, job.phase, way.finish job.phase, way.effects, false⟩) ∧
      ∀ reason, .announceCompletion ∈ way.effects →
        d.bus.failing.lookup Topic.jobCompleted = some reason →
        (d.deliver call).1 = .failed (.publish Topic.jobCompleted job.id (.transport reason)) := by
  intro recorded way after
  have hid := MemoryStore.job_id hjob
  have ha : d.Accepts e := ⟨by simp [MemoryStore.fails, hcalm.faults], ⟨job, hjob⟩, hfresh⟩
  have hdeliver := Deployment.deliver_recorded he (Deployment.recordEvent_fresh ha hunseen call.member)
  have hj : (d.noting call.member e).store.job? job.id = some job := hid ▸ hjob
  have hrecorded := Deployment.typesSince_noting ha call.member
  rw [← hid] at hrecorded
  have hway : Itinerary.walk job.assets ((d.noting call.member e).store.typesSince 0 job.id)
      e.eventType true longestChain job.phase = way := by
    rw [hrecorded]
    exact Itinerary.walk_eq_timetable (n := 1) (by simp)
  have hspares := Deployment.perform_spares
    (advanceJob_within e.event.eventId job.id e.eventType) call.member (d.noting call.member e)
  obtain ⟨houtcome, hhistory, hphase⟩ := Deployment.perform_advanceJob
    (d := d.noting call.member e) ⟨hcalm.faults, hcalm.pending⟩ hj call.member e.event.eventId e.eventType
  rw [← hid] at hdeliver
  rw [hway, ← hdeliver] at houtcome hhistory hphase
  rw [← hdeliver] at hspares
  have hfired : (d.noting call.member e).fired job.id way.effects = d.fired job.id way.effects := rfl
  rw [hfired] at houtcome
  refine ⟨?_, hhistory, hphase, fun hopen => ?_, fun reason htold hrefused => ?_⟩
  · exact (MemoryStore.typesSince_congr hspares.1.ledger 0 job.id).trans hrecorded
  · rw [houtcome, Deployment.fired_open hopen]
  · rw [houtcome, Deployment.fired_refused htold hrefused]

/-- A job without assets has its evidence already when the match is told: it goes all the way at once. -/
theorem handling_follows_timetable_whole :
    let job : Job := ⟨"job", "retail", .collection, ⟨false, false⟩, .epoch⟩
    let d : Deployment := { Deployment.ofCapacities [8] .epoch with
      store := { MemoryStore.empty.insertJob job with
        ledger := [⟨"evidence", "job", Topic.evidences, .epoch⟩] } }
    let call := Call.ofEvent 0 Topic.matchings ⟨"match", "job", none⟩
    (d.deliver call).1 = .applied ⟨"job", Topic.matchings, .collection, .completed,
        [.requestMatching, .announceCompletion], false⟩ ∧
      (d.deliver call).2.store.history "job" =
        [.collection, .featureExtraction, .matching, .evidence, .completed] := by
  intro job d call
  have he : call.errand? = some ⟨Topic.matchings, ⟨"match", "job", none⟩⟩ := by rfl
  have hjob : d.store.job? "job" = some job := by decide +kernel
  have hunseen : ¬ d.Caches "match" := by
    rintro ⟨ids, hids, hmem⟩
    obtain rfl : ids = .ofCapacity 8 := by simpa [d, Deployment.ofCapacities] using hids
    cases hmem
  have hway := handling_follows_timetable ⟨rfl, rfl⟩ he hjob (by decide +kernel) hunseen
  exact ⟨hway.2.2.2.1 fun _ => rfl, hway.2.1⟩

end PhaseKeeper
