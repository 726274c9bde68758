import Mathlib.Data.List.Chain
import PhaseKeeper.Proofs.Handling.Course
import PhaseKeeper.Proofs.Interleaving.Terms
/-!
Phases never go back. A swap takes place only if the job still is in the phase that was decided on, so
each phase that is written is later than the last one; and phases are skipped only for evidence about a
job that is matched.
-/
namespace PhaseKeeper

def MemoryStore.Holds (s : MemoryStore) (id j t : String) : Prop :=
  ∃ e ∈ s.ledger, e.eventId = id ∧ e.jobId = j ∧ e.eventType = t

theorem MemoryStore.Holds.later {s s' : MemoryStore} {id j t : String} (h : s.Holds id j t)
    (hl : s.Later s') : s'.Holds id j t := by
  obtain ⟨e, he, hid⟩ := h
  exact ⟨e, hl.ledger.subset he, hid⟩

theorem MemoryStore.Recorded.holds {s s' : MemoryStore} {e : LedgerEntry} (h : s.Recorded e s') :
    s'.Holds e.eventId e.jobId e.eventType := by
  refine ⟨e, ?_, rfl, rfl, rfl⟩
  simp [h.eq]

/-- The event `id` of type `t` may move its job like this: to the next phase, or, if it tells of evidence
and the job is matched, to the end. -/
def Climbs (s : MemoryStore) (id j t : String) (p q : Phase) : Prop :=
  [p, q] <:+: Phase.all ∨ q = .completed ∧ t = Topic.evidences ∧ s.Holds id j t ∧
    s.hasEvent j Topic.matchings = true

theorem climbs_of_plan {s : MemoryStore} {id j t : String} {assets : Assets}
    {view : String → Bool} {first : Bool} {p q : Phase} {effect : Option Effect}
    (hp : Step.plan assets view t first p = .advance q effect) (hs : s.Holds id j t)
    (hv : view Topic.matchings = true → s.hasEvent j Topic.matchings = true) :
    Climbs s id j t p q := by
  obtain ⟨rfl, -, hm, rfl, -⟩ | ⟨rfl, rfl, -⟩ | ⟨rfl, -, rfl, -⟩ | ⟨rfl, -, rfl, -⟩ |
      ⟨rfl, -, rfl, -⟩ := Step.advance_cases hp
  · exact .inr ⟨rfl, rfl, hs, hv hm⟩
  · exact .inl ⟨[], [.matching, .evidence, .completed], rfl⟩
  · exact .inl ⟨[.collection], [.evidence, .completed], rfl⟩
  · exact .inl ⟨[.collection, .featureExtraction], [.completed], rfl⟩
  · exact .inl ⟨[.collection, .featureExtraction, .matching], [], rfl⟩

namespace Pact
variable {id j t : String}

def climbing (id j t : String) : Pact Unit where
  valid d := d.store.pending = []
  rely d d' := d.store.Later d'.store
  duty _ r d _ d' := ∀ p q, r = .store (.swapPhase j p q) → d.store.Moved j p q d'.store →
    Climbs d.store id j t p q
  note _ _ _ _ _ := ()
  refl := Deployment.later_refl
  trans := @Deployment.later_trans

theorem climbing_quiet {r : Request} (hr : r.writes = false) : (climbing id j t).Quiet r where
  duty := by
    intro _ d x d' _ _ p q he
    subst he
    cases hr
  note _ _ := rfl
  rely := by
    intro d x d' _ hx
    change d.store.Later d'.store
    rw [hx.store_eq hr]
    exact .refl _

theorem climbing_course (id j t : String) :
    (climbing id j t).Course id j t (fun _ _ => True)
      (fun _ d => (∃ job, d.store.job? j = some job) ∧ d.store.Holds id j t)
      (fun _ _ _ _ d => (∃ job, d.store.job? j = some job) ∧ d.store.Holds id j t)
      (fun _ _ => True) := by
  have hlater {d d' : Deployment} (hl : d.store.Later d'.store)
      (h : (∃ job, d.store.job? j = some job) ∧ d.store.Holds id j t) :
      (∃ job, d'.store.job? j = some job) ∧ d'.store.Holds id j t := by
    obtain ⟨⟨job, hj⟩, hs⟩ := h
    obtain ⟨job', hj', -⟩ := hl.job hj
    exact ⟨⟨job', hj'⟩, hs.later hl⟩
  refine {
    later := fun h => h
    quiet := ?_
    remember := fun hv _ hx => ⟨(climbing_quiet rfl).duty hv hx, rfl, (climbing_quiet rfl).rely hv hx⟩
    new_later := fun _ _ => trivial
    recorded_later := fun h hl => hlater hl h
    deciding_later := fun h hl => hlater hl h
    post_later := fun _ _ => trivial
    lookUp := fun _ hv hx => ⟨(climbing_quiet rfl).duty hv hx, fun _ => trivial, fun _ => trivial⟩
    insert := ?_
    job := fun h => h.1
    unread := fun _ _ => trivial
    read := fun h _ => h
    deciding_job := fun h => h.1
    rest := fun _ => trivial
    undecided := fun _ _ => trivial
    stay := fun _ _ _ _ _ => trivial
    refire := ?_
    swap := ?_ }
  · intro r hr
    cases hr with
    | inl hr => exact climbing_quiet hr.writes_eq
    | inr hr =>
      apply climbing_quiet
      cases hr with
      | inl hr => rw [hr]; rfl
      | inr hr =>
        obtain ⟨i, rfl⟩ := hr
        rfl
  · intro _ d d' now x _ hv hx
    refine ⟨fun p q he => (nomatch he), fun _ => trivial, fun he => ?_⟩
    have hr := hx.recorded he
    obtain ⟨job, hj⟩ := Option.isSome_iff_exists.1 hr.job
    obtain ⟨job', hj', -⟩ := hr.later.job hj
    exact ⟨⟨job', hj'⟩, hr.holds⟩
  · intro first m p _ d d' job view h _ _ _ _ r hr
    exact keeps_firing (fun r hr => climbing_quiet hr.writes_eq) (fun _ _ => trivial) trivial r hr _
  · intro first m p q effect _ d d' d'' job view x h hv hl hj hb hp hx
    refine ⟨fun p' q' he _ => ?_, fun _ => trivial, fun he r hr => ?_⟩
    · cases he
      exact climbs_of_plan hp (h.2.later hl) hb.upper
    · have hl' := (hx.moved hv he).later (Step.lt_of_advance hp)
      refine (keeps_firing (S := fun _ d => (∃ job, d.store.job? j = some job) ∧
        d.store.Holds id j t) (fun r hr => climbing_quiet hr.writes_eq) (fun h hl => hlater hl h)
        (hlater hl' (hlater hl h)) r hr effect).mono fun _ _ _ _ h => ?_
      split
      · trivial
      · exact h

/-- The pact for an errand. -/
def climbingFor (e : Errand) : Pact Unit := climbing e.event.eventId e.event.jobId e.eventType

theorem climbing_terms :
    Terms climbingFor () (fun _ _ _ => True) (·.store.pending = []) where
  valid hv := hv
  pending hv := hv
  rely hl := hl
  starts e _ _ :=
    (climbing_course e.event.eventId e.event.jobId e.eventType).keeps_handleAccepted trivial
  kept hv _ hx _ := hx.pending hv

end Pact

namespace Crew
variable {c : Crew} {j : String}

/-- While it handled recorded evidence, a handler moved the job from the phase `p` to its end, and the
job was matched. -/
def Forced (c : Crew) (j : String) (p : Phase) : Prop :=
  ∃ deed ∈ c.log, deed.request = .store (.swapPhase j p .completed) ∧
    deed.before.store.Moved j p .completed deed.after.store ∧
    ∃ e, c.errand? deed.handler = some e ∧ e.event.jobId = j ∧ e.eventType = Topic.evidences ∧
      deed.before.store.Holds e.event.eventId j Topic.evidences ∧
      deed.before.store.hasEvent j Topic.matchings = true

def Climbed (c : Crew) (j : String) (p q : Phase) : Prop :=
  [p, q] <:+: Phase.all ∨ q = .completed ∧ c.Forced j p

structure Ascending (c : Crew) (j : String) : Prop where
  current : (c.deployment.store.history j).getLast? = c.deployment.store.phase? j
  steps : (c.deployment.store.history j).IsChain fun p q => p < q ∧ c.Climbed j p q

theorem Ascending.fresh (capacities : List Nat) (clock : Instant) :
    (Crew.fresh (.ofCapacities capacities clock)).Ascending j where
  current := rfl
  steps := List.isChain_nil

theorem Ascending.congr {c' : Crew} (h : c.Ascending j)
    (hrow : c'.deployment.store.row? j = c.deployment.store.row? j)
    (hclimbed : ∀ p q, c.Climbed j p q → c'.Climbed j p q) : c'.Ascending j := by
  have hhistory : c'.deployment.store.history j = c.deployment.store.history j := by
    simp only [MemoryStore.history, hrow]
  have hphase : c'.deployment.store.phase? j = c.deployment.store.phase? j := by
    simp only [MemoryStore.phase?, MemoryStore.job?, hrow]
  constructor
  · rw [hhistory, hphase]
    exact h.current
  · rw [hhistory]
    apply h.steps.imp
    intro p q hpq
    exact ⟨hpq.1, hclimbed p q hpq.2⟩

theorem Ascending.moved {c' : Crew} {p q : Phase} (h : c.Ascending j)
    (hm : c.deployment.store.Moved j p q c'.deployment.store) (hlt : p < q)
    (hclimbed : ∀ p q, c.Climbed j p q → c'.Climbed j p q) (hpq : c'.Climbed j p q) :
    c'.Ascending j := by
  constructor
  · rw [hm.history, hm.phase]
    simp
  · rw [hm.history, List.isChain_append]
    refine ⟨?_, List.isChain_singleton q, ?_⟩
    · apply h.steps.imp
      intro p q hpq
      exact ⟨hpq.1, hclimbed p q hpq.2⟩
    · intro p' hp' q' hq'
      rw [h.current, hm.was] at hp'
      cases hp'
      cases hq'
      exact ⟨hlt, hpq⟩

theorem Ascending.step (h : c.Ascending j)
    (hc : c.Upholds Pact.climbingFor () (fun _ _ _ => True) (·.store.pending = [])) (m : Move) :
    (c.step m).Ascending j := by
  have hkeep {k e} : c.errand? k = some e → (c.step m).errand? k = some e := errand_step m
  have hs := c.step_cases m
  generalize c.step m = c' at hs hkeep
  have hclimbed (hlog : ∀ deed ∈ c.log, deed ∈ c'.log) (p q : Phase) (hpq : c.Climbed j p q) :
      c'.Climbed j p q := by
    apply hpq.imp_right
    intro hpq
    obtain ⟨hq, deed, hd, hr, hm, e, he, hrest⟩ := hpq
    exact ⟨hq, deed, hlog deed hd, hr, hm, e, hkeep he, hrest⟩
  cases hs with
  | disturbed =>
    cases m.disturb_row c.deployment j with
    | inl hrow => exact h.congr hrow (hclimbed fun _ hd => hd)
    | inr hnew =>
      obtain ⟨-, job, -, -, hrow⟩ := hnew
      constructor
      · simp [MemoryStore.history, MemoryStore.phase?, MemoryStore.job?, hrow]
      · simp [MemoryStore.history, hrow]
  | delivered call => exact h.congr rfl (hclimbed fun _ hd => hd)
  | @acted i handler r next x d hi hr hx =>
    obtain ⟨e, he, hserves, -⟩ := hc.proper.acts hi hr
    have hduty := (hc.acts Pact.climbing_terms hi he hr hx).1
    have hold := hclimbed fun deed hd => List.mem_append_left _ hd
    obtain hsame | ⟨k, p, q, rfl, hm⟩ | ⟨entry, -, hrec⟩ := hx.store_cases hc.holds
    · exact h.congr (by rw [hsame]) hold
    -- Only a swap of this very job adds to its history, and the pact says which swaps there are.
    · by_cases hj : j = k
      · subst hj
        obtain ⟨hej, hlt⟩ := hserves
        refine h.moved hm hlt hold ?_
        subst hej
        apply (hduty p q rfl hm).imp_right
        intro hforced
        obtain ⟨rfl, ht, hholds, hmatched⟩ := hforced
        exact ⟨rfl, _, List.mem_append_right _ List.mem_cons_self, rfl, hm, e,
          hkeep ((errand_of_handler hi).trans he), rfl, ht, ht ▸ hholds, hmatched⟩
      · exact h.congr (hm.other hj) hold
    · exact h.congr (by rw [hrec.eq]; rfl) hold

theorem Ascending.run (h : c.Ascending j)
    (hc : c.Upholds Pact.climbingFor () (fun _ _ _ => True) (·.store.pending = []))
    (moves : List Move) : (c.run moves).Ascending j := by
  induction moves generalizing c with
  | nil => exact h
  | cons m ms ih =>
    apply ih (h.step hc m)
    exact hc.step Pact.climbing_terms ((m.disturb_pending c.deployment).trans hc.holds)

/-- The phases that the job has had rise up to its present one, and each follows the one before, unless it
is the end and the job was forced there. -/
structure Ascended (c : Crew) (job : Job) : Prop where
  rising : (c.deployment.store.history job.id).Pairwise (· < ·)
  current : (c.deployment.store.history job.id).getLast? = some job.phase
  steps : (c.deployment.store.history job.id).IsChain (c.Climbed job.id)

theorem Ascending.ascended {job : Job} (h : c.Ascending j)
    (hj : c.deployment.store.job? j = some job) : c.Ascended job := by
  have hid : job.id = j := MemoryStore.job_id hj
  subst hid
  refine ⟨?_, h.current.trans (MemoryStore.phase_of_job hj), h.steps.imp fun p q hpq => hpq.2⟩
  have hrising : (c.deployment.store.history job.id).IsChain (· < ·) :=
    h.steps.imp fun p q hpq => hpq.1
  have htrans : Trans (fun p q : Phase => p < q) (fun p q => p < q) (fun p q => p < q) :=
    ⟨fun hpq hqr => Nat.lt_trans hpq hqr⟩
  exact List.isChain_iff_pairwise.1 hrising

end Crew

/-- Phases only rise, whatever is delivered how often, in whatever order the requests come, and whatever
fails. So no request takes a job back out of its last phase, and no handling ends because it was told to
move a job back. -/
theorem phases_rise (capacities : List Nat) (clock : Instant) (moves : List Move) :
    let c := (Crew.fresh (.ofCapacities capacities clock)).run moves
    (∀ j job, c.deployment.store.job? j = some job → c.Ascended job) ∧
      (∀ deed ∈ c.log, ∀ j, deed.before.store.phase? j = some .completed →
        deed.after.store.phase? j = some .completed) ∧
      ∀ h ∈ c.handlers, ∀ o, h.rest = .done o → o.Onward := by
  intro c
  have hstart : (Crew.fresh (.ofCapacities capacities clock)).Upholds Pact.climbingFor ()
      (fun _ _ _ => True) (·.store.pending = []) := .fresh _ rfl
  have hc : c.Upholds Pact.climbingFor () (fun _ _ _ => True) (·.store.pending = []) :=
    hstart.run Pact.climbing_terms fun m _ d hd => (m.disturb_pending d).trans hd
  refine ⟨?_, ?_, ?_⟩
  · intro j job hj
    exact ((Crew.Ascending.fresh capacities clock).run hstart moves).ascended hj
  · intro deed hd j hphase
    obtain ⟨hx, e, -, hserves⟩ := hc.proper.log hd
    exact (hx.later (hc.held hd) hserves).completed hphase
  · intro h hmem o ho
    obtain ⟨i, hi⟩ := List.mem_iff_getElem?.1 hmem
    exact hc.proper.onward hi ho

end PhaseKeeper
