import PhaseKeeper.Proofs.Handling.Course
import PhaseKeeper.Proofs.Interleaving.Terms
/-!
Phases are justified by the ledger. A step is only planned when the ledger holds what it takes, and the
ledger never forgets; so whatever the interleaving, and whatever fails, a phase that a job has left its
first phase for is one that its recorded events call for.
-/
namespace PhaseKeeper

/-- Why a job that was in the phase `origin` is in the phase `p` now, given the types of the events that
were recorded since, and all those that are seen. -/
structure Phase.Justified (assets : Assets) (origin p : Phase) (new : List String)
    (view : String → Bool) : Prop where
  le : origin ≤ p
  moved : origin < p → new ≠ []
  required : origin < .matching → p = .matching ∨ p = .evidence → assets.required.all view = true
  matched : origin < .evidence → p = .evidence → Topic.matchings ∈ new
  completed : origin < .completed → p = .completed →
    (Topic.evidences ∈ new ∧ view Topic.matchings = true) ∨
      (origin = .evidence ∧ view Topic.evidences = true) ∨
      (Topic.matchings ∈ new ∧ view Topic.evidences = true ∧
        (origin = .matching ∨ assets.required.all view = true))

namespace Phase.Justified
variable {assets : Assets} {origin p q : Phase} {new new' : List String} {t : String} {first : Bool}
  {view view' : String → Bool} {effect : Option Effect}

theorem refl (assets : Assets) (p : Phase) (new : List String) (view : String → Bool) :
    Justified assets p p new view where
  le := p.le_refl
  moved h := absurd h (not_lt_of_le p.le_refl)
  required h hp := by obtain rfl | rfl := hp <;> exact absurd h (by decide)
  matched h hp := absurd h (by rw [hp]; decide)
  completed h hp := absurd h (by rw [hp]; decide)

theorem mono (h : Justified assets origin p new view) (hn : ∀ {t}, t ∈ new → t ∈ new')
    (hv : ∀ {t}, view t = true → view' t = true) : Justified assets origin p new' view' where
  le := h.le
  moved hp := by
    obtain ⟨t, ht⟩ := List.exists_mem_of_ne_nil _ (h.moved hp)
    exact List.ne_nil_of_mem (hn ht)
  required ho hp := all_mono hv (h.required ho hp)
  matched ho hp := hn (h.matched ho hp)
  completed ho hp := by
    obtain ⟨he, hm⟩ | ⟨hE, he⟩ | ⟨hm, he, hr⟩ := h.completed ho hp
    · exact .inl ⟨hn he, hv hm⟩
    · exact .inr (.inl ⟨hE, hv he⟩)
    · exact .inr (.inr ⟨hn hm, hv he, hr.imp_right (all_mono hv)⟩)

/-- A planned step leads to another justified phase, also if more is seen by the time it is taken. -/
theorem advance (h : Justified assets origin p new view')
    (hp : Step.plan assets view t first p = .advance q effect) (ht : t ∈ new)
    (hn : ∀ {t}, t ∈ new → view' t = true)
    (hv : ∀ {t}, view t = true → view' t = true) : Justified assets origin q new view' := by
  have hle := le_trans h.le (le_of_lt (Step.lt_of_advance hp))
  have hmoved (_ : origin < q) : new ≠ [] := List.ne_nil_of_mem ht
  obtain ⟨rfl, -, hm, rfl, -⟩ | ⟨-, rfl, -⟩ | ⟨-, hr, rfl, -⟩ | ⟨rfl, rfl, rfl, -⟩ |
      ⟨rfl, he, rfl, -⟩ := Step.advance_cases hp
  · exact ⟨hle, hmoved, by simp, by simp, fun _ _ => .inl ⟨ht, hv hm⟩⟩
  · exact ⟨hle, hmoved, by simp, by simp, by simp⟩
  · exact ⟨hle, hmoved, fun _ _ => all_mono hv hr, by simp, by simp⟩
  · exact ⟨hle, hmoved, fun ho _ => h.required ho (.inl rfl), fun _ _ => ht, by simp⟩
  · refine ⟨hle, hmoved, by simp, by simp, fun _ _ => .inr ?_⟩
    have he' : view' Topic.evidences = true := by
      obtain rfl | he := he
      · exact hn ht
      · exact hv he
    by_cases hE : origin = .evidence
    · exact .inl ⟨hE, he'⟩
    · have hlE : origin < .evidence := lt_of_le_of_ne h.le hE
      refine .inr ⟨h.matched hlE rfl, he', ?_⟩
      by_cases hM : origin = .matching
      · exact .inl hM
      · refine .inr (h.required ?_ (.inr rfl))
        revert hlE hM
        cases origin <;> decide

end Phase.Justified

/-- The phase of the job, if there is one, is justified by the entries behind the first `n`. -/
structure MemoryStore.JustifiedSince (s : MemoryStore) (n : Nat) (origin : Phase) (j : String) :
    Prop where
  since : n ≤ s.ledger.length
  phase : ∀ {job}, s.job? j = some job →
    Phase.Justified job.assets origin job.phase (s.typesSince n j) (s.hasEvent j)

namespace MemoryStore.JustifiedSince
variable {s s' : MemoryStore} {n : Nat} {origin p q : Phase} {j k t : String} {first : Bool}
  {view : String → Bool} {effect : Option Effect}

theorem mono (h : s.JustifiedSince n origin j) (hl : s.Later s') (hj : s'.job? j = s.job? j) :
    s'.JustifiedSince n origin j where
  since := Nat.le_trans h.since hl.ledger.length_le
  phase hjob := (h.phase (hj ▸ hjob)).mono hl.typesSince hl.hasEvent

theorem moved (h : s.JustifiedSince n origin j) {job : Job} (hj : s.job? j = some job)
    (hm : s.Moved j p q s') (hp : Step.plan job.assets view t first p = .advance q effect)
    (ht : t ∈ s.typesSince n j) (hv : ∀ {t}, view t = true → s.hasEvent j t = true) :
    s'.JustifiedSince n origin j := by
  refine ⟨hm.ledger ▸ h.since, fun {job'} hj' => ?_⟩
  have hph : job.phase = p := Option.some.inj ((phase_of_job hj).symm.trans hm.was)
  obtain ⟨_, hjob⟩ := hm.job hj
  obtain rfl := Option.some.inj (hjob.symm.trans hj')
  have hl := hm.later (Step.lt_of_advance hp)
  have hold := h.phase hj
  rw [hph] at hold
  exact (hold.advance hp ht hasEvent_of_typesSince hv).mono hl.typesSince hl.hasEvent

end MemoryStore.JustifiedSince

namespace Pact

def justifying (n : Nat) (origin : Phase) (j : String) : Pact Unit where
  valid d := d.store.pending = [] ∧ d.store.JustifiedSince n origin j
  rely d d' := d.store.Later d'.store
  duty _ _ _ _ d' := d'.store.JustifiedSince n origin j
  note _ _ _ _ _ := ()
  refl := Deployment.later_refl
  trans := @Deployment.later_trans

variable {n : Nat} {origin : Phase} {j : String}

theorem justifying_quiet {r : Request} (hr : r.writes = false) : (justifying n origin j).Quiet r where
  duty := by
    intro _ d x d' hv hx
    change d'.store.JustifiedSince n origin j
    rw [hx.store_eq hr]
    exact hv.2
  note _ _ := rfl
  rely := by
    intro d x d' _ hx
    change d.store.Later d'.store
    rw [hx.store_eq hr]
    exact .refl _

theorem justifying_course (n : Nat) (origin : Phase) (id j t : String) :
    (justifying n origin j).Course id j t (fun _ _ => True)
      (fun _ d => (∃ job, d.store.job? j = some job) ∧ t ∈ d.store.typesSince n j)
      (fun _ _ _ _ d => (∃ job, d.store.job? j = some job) ∧ t ∈ d.store.typesSince n j)
      (fun _ _ => True) := by
  have hlater {d d' : Deployment} (hl : d.store.Later d'.store)
      (h : (∃ job, d.store.job? j = some job) ∧ t ∈ d.store.typesSince n j) :
      (∃ job, d'.store.job? j = some job) ∧ t ∈ d'.store.typesSince n j := by
    obtain ⟨⟨job, hj⟩, ht⟩ := h
    obtain ⟨job', hj', -⟩ := hl.job hj
    exact ⟨⟨job', hj'⟩, hl.typesSince ht⟩
  refine {
    later := fun h => h
    quiet := ?_
    remember := fun hv _ hx => ⟨(justifying_quiet rfl).duty hv hx, rfl, (justifying_quiet rfl).rely hv hx⟩
    new_later := fun _ _ => trivial
    recorded_later := fun h hl => hlater hl h
    deciding_later := fun h hl => hlater hl h
    post_later := fun _ _ => trivial
    lookUp := ?_
    insert := ?_
    job := fun h => h.1
    unread := fun _ _ => trivial
    read := fun h _ => h
    deciding_job := fun h => h.1
    rest := fun _ => trivial
    undecided := fun _ _ => trivial
    stay := fun _ _ _ _ _ => trivial
    refire := ?_
    swap := ?_ }
  · rintro r (hr | rfl | ⟨i, rfl⟩)
    · exact justifying_quiet hr.writes_eq
    all_goals exact justifying_quiet rfl
  · intro _ d d' x _ hv hx
    exact ⟨(justifying_quiet rfl).duty hv hx, fun _ => trivial, fun _ => trivial⟩
  · intro _ d d' now x _ hv hx
    refine ⟨?_, fun _ => trivial, fun he => ?_⟩
    · change d'.store.JustifiedSince n origin j
      by_cases he : x = .ok ()
      · have hr := hx.recorded he
        exact hv.2.mono hr.later (by rw [hr.eq]; rfl)
      · rw [hx.unrecorded he]
        exact hv.2
    · have hr := hx.recorded he
      obtain ⟨job, hj⟩ := Option.isSome_iff_exists.1 hr.job
      obtain ⟨job', hj', -⟩ := hr.later.job hj
      refine ⟨⟨job', hj'⟩, ?_⟩
      rw [hr.typesSince hv.2.since]
      simp
  · intro first m p _ d d' job view h _ _ _ _ r hr
    exact keeps_firing (fun r hr => justifying_quiet hr.writes_eq) (fun _ _ => trivial) trivial r hr _
  · intro first m p q effect _ d d' d'' job view x h hv hl hj hb hp hx
    have ht := hl.typesSince h.2
    obtain ⟨job', hj', ha, -⟩ := hl.job hj
    refine ⟨?_, fun _ => trivial, fun he r hr => ?_⟩
    -- The plan was made on what was seen, which is no more than what is recorded by now.
    · change d''.store.JustifiedSince n origin j
      by_cases he : x = .ok true
      · exact hv.2.moved hj' (hx.moved hv.1 he) (ha ▸ hp) ht hb.upper
      · rw [(hx.unmoved hv.1 he).1]
        exact hv.2
    have hl' := (hx.moved hv.1 he).later (Step.lt_of_advance hp)
    refine (keeps_firing (S := fun _ d => (∃ job, d.store.job? j = some job) ∧
      t ∈ d.store.typesSince n j) (fun r hr => justifying_quiet hr.writes_eq)
      (fun h hl => hlater hl h) (hlater hl' (hlater hl h)) r hr _).mono fun _ _ _ _ h => ?_
    split
    · trivial
    · exact h

theorem justifying_terms (n : Nat) (origin : Phase) (j : String) :
    Terms (fun _ => justifying n origin j) () (fun _ _ _ => True) (justifying n origin j).valid where
  valid hv := hv
  pending hv := hv.1
  rely hl := hl
  starts := by
    intro e d _
    by_cases hj : e.event.jobId = j
    · subst hj
      exact (justifying_course n origin e.event.eventId e.event.jobId e.eventType).keeps_handleAccepted
        trivial
    · refine (Keeps.of_within e.handling_within fun r hr => ?_).mono fun _ _ _ _ _ => trivial
      have hother {d d' : Deployment} {x : r.Reply} (hv : (justifying n origin j).valid d)
          (hx : Answered r d x d') : d'.store.JustifiedSince n origin j :=
        hv.2.mono (hx.later hv.1 hr) (hx.job_other hv.1 hr fun he => hj he.symm)
      exact ⟨fun hv hx => hother hv hx, fun _ _ => rfl, fun hv hx => hx.later hv.1 hr⟩
  kept hv _ hx hduty := ⟨hx.pending hv.1, hduty⟩

theorem justifying_disturb {m : Move} {d : Deployment} (hv : (justifying n origin j).valid d)
    (hm : ∀ job, m = .create job → job.id = j → job.phase = origin) :
    (justifying n origin j).valid (m.disturb d) := by
  refine ⟨(m.disturb_pending d).trans hv.1, ?_⟩
  obtain h | ⟨-, job, rfl, hj, h⟩ := m.disturb_job d j
  · exact hv.2.mono (m.disturb_later d) h
  · refine ⟨(Move.create job).disturb_ledger d ▸ hv.2.since, fun {job'} hj' => ?_⟩
    obtain rfl := Option.some.inj (h.symm.trans hj')
    rw [hm job rfl hj]
    exact .refl _ _ _ _

end Pact

/-- The ledger holds what the phase of the job stands for. -/
structure MemoryStore.Justifies (s : MemoryStore) (job : Job) : Prop where
  beyond : job.phase ≠ .collection → ∃ e ∈ s.ledger, e.jobId = job.id
  required : job.phase = .matching ∨ job.phase = .evidence →
    ∀ t ∈ job.assets.required, s.hasEvent job.id t = true
  matched : job.phase = .evidence → s.hasEvent job.id Topic.matchings = true
  completed : job.phase = .completed →
    s.hasEvent job.id Topic.matchings = true ∧ s.hasEvent job.id Topic.evidences = true

/-- Whatever is delivered to however many engines, in whatever order their requests come, and whatever
fails: the phase of a job that began with collection is justified by the ledger. -/
theorem phase_justified (capacities : List Nat) (clock : Instant) (moves : List Move) (j : String)
    (hm : ∀ job, .create job ∈ moves → job.id = j → job.phase = .collection) :
    let s := ((Crew.fresh (.ofCapacities capacities clock)).run moves).deployment.store
    ∀ job, s.job? j = some job → s.Justifies job := by
  intro s job hj
  have hstart : (Pact.justifying 0 .collection j).valid (.ofCapacities capacities clock) :=
    ⟨rfl, Nat.zero_le _, fun hj => nomatch hj⟩
  have hrun := (Crew.Upholds.fresh _ hstart).run (Pact.justifying_terms 0 .collection j)
    fun m hmem d hd => Pact.justifying_disturb hd fun job he => hm job (he ▸ hmem)
  have h := hrun.holds.2.phase hj
  have hid : job.id = j := MemoryStore.job_id hj
  subst hid
  refine ⟨fun hp => ?_, fun hp t ht => ?_, fun hp => ?_, fun hp => ?_⟩
  · obtain ⟨t, ht⟩ := List.exists_mem_of_ne_nil _
      (h.moved (Phase.lt_of_le_of_ne h.le fun he => hp he.symm))
    obtain ⟨e, he, hej, -⟩ := MemoryStore.mem_typesSince.1 ht
    exact ⟨e, he, hej⟩
  · exact List.all_eq_true.1 (h.required (by decide) hp) t ht
  · exact MemoryStore.hasEvent_of_typesSince (h.matched (by decide) hp)
  · obtain ⟨he, hm⟩ | ⟨hE, -⟩ | ⟨hm, he, -⟩ := h.completed (by decide) hp
    · exact ⟨hm, MemoryStore.hasEvent_of_typesSince he⟩
    · cases hE
    · exact ⟨MemoryStore.hasEvent_of_typesSince hm, he⟩

/-- A job without assets, in the evidence phase after it was matched. -/
theorem phase_justified_after_match :
    let moves := Move.opening [Topic.matchings] ++ List.replicate 20 (.act 0 none)
    let s := ((Crew.fresh (.ofCapacities [1] .epoch)).run moves).deployment.store
    (∀ job, .create job ∈ moves → job.id = "job" → job.phase = .collection) ∧
      s.job? "job" = some ⟨"job", "retail", .evidence, ⟨false, false⟩, ⟨1, 0⟩⟩ ∧
      s.Justifies ⟨"job", "retail", .evidence, ⟨false, false⟩, ⟨1, 0⟩⟩ := by
  intro moves s
  have hm : ∀ job, .create job ∈ moves → job.id = "job" → job.phase = .collection := by
    intro job hmem _
    simp only [moves, Move.opening, List.mapIdx_cons, List.mapIdx_nil, List.cons_append,
      List.nil_append, List.mem_cons, Move.create.injEq, reduceCtorEq, List.mem_replicate,
      and_false, or_false] at hmem
    rw [hmem]
  have hj : s.job? "job" = some ⟨"job", "retail", .evidence, ⟨false, false⟩, ⟨1, 0⟩⟩ := by
    decide +kernel
  exact ⟨hm, hj, phase_justified [1] .epoch moves "job" hm _ hj⟩

end PhaseKeeper
