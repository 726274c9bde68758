import PhaseKeeper.Proofs.Handling.Course
import PhaseKeeper.Proofs.Interleaving.Terms
/-!
Every accepted event ends up in the ledger, if its identifier is new, its job is there and nothing
fails; and whatever is in the ledger was put there by the handler of such an event.
-/
namespace PhaseKeeper

def Deployment.Caches (d : Deployment) (id : String) : Prop := ∃ r ∈ d.recent, id ∈ r.ids

namespace Answered
variable {d d' : Deployment} {id i : String}

theorem caches_of_hit {x} (h : Answered (.lookUp id) d x d') (hx : x = true) : d.Caches id := by
  cases h with
  | served member =>
    simp only [Deployment.answer, Deployment.lookUp] at hx
    split at hx
    · rename_i ids hids
      exact ⟨ids, List.mem_of_getElem? hids, RecentIds.mem_of_hit hx⟩
    · cases hx

theorem caches {r : Request} {x : r.Reply} (h : Answered r d x d') (hc : d'.Caches i) :
    d.Caches i ∨ r = .remember i := by
  obtain ⟨r', hr', hi⟩ := hc
  cases h with
  | refused => exact .inl ⟨r', hr', hi⟩
  | served member =>
    cases r with
    | lookUp id =>
      simp only [Deployment.answer, Deployment.lookUp] at hr'
      split at hr'
      · rename_i ids hids
        have hids' := List.mem_of_getElem? hids
        obtain hold | rfl := List.mem_or_eq_of_mem_set hr'
        · exact .inl ⟨r', hold, hi⟩
        · exact .inl ⟨ids, hids', RecentIds.mem_of_mem_lookUp hi⟩
      · exact .inl ⟨r', hr', hi⟩
    | remember id =>
      simp only [Deployment.answer, Deployment.remember] at hr'
      obtain ⟨k, hk⟩ := List.mem_iff_getElem?.1 hr'
      rw [List.getElem?_modify] at hk
      obtain ⟨ids, hids, rfl⟩ := Option.map_eq_some_iff.1 hk
      have hids' := List.mem_of_getElem? hids
      split at hi
      · obtain rfl | hi := RecentIds.mem_use hi
        · exact .inr rfl
        · exact .inl ⟨ids, hids', hi⟩
      · exact .inl ⟨ids, hids', hi⟩
    | store | now | publish | report => exact .inl ⟨r', hr', hi⟩

end Answered

namespace Pact

/-- To have the event recorded. What an engine remembers is recorded, or was remembered at `d₀`. -/
def recording (d₀ : Deployment) : Pact Unit where
  valid d := d.store.Calm ∧ d₀.store.Later d.store ∧
    ∀ id, d.Caches id → d₀.Caches id ∨ d.store.recorded id = true
  rely d d' := d.store.Later d'.store
  duty _ r d _ _ := ∀ id, r = .remember id → d.store.recorded id = true
  note _ _ _ _ _ := ()
  refl := Deployment.later_refl
  trans := @Deployment.later_trans

variable {d₀ : Deployment}

theorem recording_quiet {r : Request} (hr : ∀ id, r ≠ .remember id) (hw : r.writes = false) :
    (recording d₀).Quiet r where
  duty _ _ id he := absurd he (hr id)
  note _ _ := rfl
  rely {d x d'} _ hx := by
    change d.store.Later d'.store
    rw [hx.store_eq hw]
    exact .refl _

theorem recording_quiet_of_notifies {j : String} {r : Request} (h : r.Notifies j) :
    (recording d₀).Quiet r := by
  refine recording_quiet (fun id he => ?_) h.writes_eq
  subst he
  obtain he | he := h
  · cases he
  · exact he

theorem recording_course (d₀ : Deployment) (id j t : String) :
    (recording d₀).Course id j t (fun _ _ => True)
      (fun _ d => d.store.recorded id = true ∧ ∃ job, d.store.job? j = some job)
      (fun _ _ _ _ d => d.store.recorded id = true ∧ ∃ job, d.store.job? j = some job)
      (fun _ d => ¬ d₀.Caches id → (∃ job, d₀.store.job? j = some job) →
        d.store.recorded id = true) := by
  have hlater {d d' : Deployment} (hl : d.store.Later d'.store)
      (h : d.store.recorded id = true ∧ ∃ job, d.store.job? j = some job) :
      d'.store.recorded id = true ∧ ∃ job, d'.store.job? j = some job := by
    obtain ⟨hr, job, hj⟩ := h
    obtain ⟨job', hj', -⟩ := hl.job hj
    exact ⟨hl.recorded hr, job', hj'⟩
  refine {
    later := fun h => h
    quiet := ?_
    remember := ?_
    new_later := fun _ _ => trivial
    recorded_later := fun h hl => hlater hl h
    deciding_later := fun h hl => hlater hl h
    post_later := fun h hl hc hj => hl.recorded (h hc hj)
    lookUp := ?_
    insert := ?_
    job := fun h => h.2
    unread := fun h _ _ _ => h.1
    read := fun h _ => h
    deciding_job := fun h => h.2
    rest := fun h _ _ => h.1
    undecided := fun h _ _ _ => h.1
    stay := fun h hl _ _ _ _ _ => hl.recorded h.1
    refire := ?_
    swap := ?_ }
  · rintro r (hr | rfl | ⟨i, rfl⟩)
    · exact recording_quiet (by rintro id rfl; exact hr) hr.writes_eq
    all_goals exact recording_quiet (by simp) rfl
  · intro _ d d' _ _ hrec hx
    refine ⟨fun id' he => ?_, rfl, ?_⟩
    · cases he
      exact hrec
    · change d.store.Later d'.store
      rw [hx.store_eq rfl]
      exact .refl _
  · intro _ d d' x _ hv hx
    have hs := hx.store_eq rfl
    refine ⟨fun _ he => (nomatch he), fun he hc _ => ?_, fun _ => trivial⟩
    rw [hs]
    exact (hv.2.2 id (hx.caches_of_hit he)).resolve_left hc
  · intro _ d d' now x _ hv hx
    refine ⟨fun _ he => (nomatch he), fun hne hc hj => ?_, fun he => ?_⟩
    · -- Where nothing fails and the job is there, an event is refused only because it is recorded.
      obtain ⟨job, hj⟩ := hj
      obtain ⟨job', hj', -⟩ := hv.2.1.job hj
      have hi := hx.insert
      generalize d'.store = s at hi
      cases hi with
      | done => exact absurd rfl hne
      | known hk => exact hk
      | homeless hn =>
        rw [hj'] at hn
        cases hn
      | failed _ hf => exact absurd hv.1.faults hf
    · have hr := hx.recorded he
      refine ⟨hr.recorded, ?_⟩
      obtain ⟨job, hj⟩ := Option.isSome_iff_exists.1 hr.job
      obtain ⟨job', hj', -⟩ := hr.later.job hj
      exact ⟨job', hj'⟩
  · intro first m p _ d d' job view h hl _ _ _ r hr
    exact keeps_firing (S := fun _ d => ¬ d₀.Caches id → (∃ job, d₀.store.job? j = some job) →
      d.store.recorded id = true) (fun _ => recording_quiet_of_notifies)
      (fun h hl hc hj => hl.recorded (h hc hj)) (fun _ _ => hl.recorded h.1) r hr _
  · intro first m p q effect _ d d' d'' job view x h hv hl hj hb hp hx
    have hl' : d'.store.Later d''.store := by
      by_cases he : x = .ok true
      · exact (hx.moved hv.1.pending he).later (Step.lt_of_advance hp)
      · rw [(hx.unmoved hv.1.pending he).1]
        exact .refl _
    refine ⟨fun _ he => (nomatch he), fun _ _ _ => hl'.recorded (hl.recorded h.1), fun _ r hr => ?_⟩
    refine (keeps_firing (S := fun _ d => d.store.recorded id = true ∧
      ∃ job, d.store.job? j = some job) (fun _ => recording_quiet_of_notifies)
      (fun h hl => hlater hl h) (hlater hl' (hlater hl h)) r hr _).mono fun _ _ _ _ h => ?_
    split
    · exact fun _ _ => h.1
    · exact h

theorem recording_valid (hd : d₀.store.Calm) : (recording d₀).valid d₀ :=
  ⟨hd, .refl _, fun _ hc => .inl hc⟩

theorem recording_terms (d₀ : Deployment) :
    Terms (fun _ => recording d₀) () (fun e _ d => ¬ d₀.Caches e.event.eventId →
      (∃ job, d₀.store.job? e.event.jobId = some job) → d.store.recorded e.event.eventId = true)
      (recording d₀).valid where
  valid hv := hv
  pending hv := hv.1.pending
  rely hl := hl
  starts e {d} _ :=
    (recording_course d₀ e.event.eventId e.event.jobId e.eventType).keeps_handleAccepted trivial
  kept := by
    intro e _ r d x d' hv hserves hx hduty
    have hl := hx.later hv.1.pending hserves
    refine ⟨hx.calm hv.1, hv.2.1.trans hl, fun id hc => ?_⟩
    obtain hc | hr := hx.caches hc
    · exact (hv.2.2 id hc).imp_right hl.recorded
    · exact .inr (hl.recorded (hduty id hr))

end Pact

namespace Crew
variable {c : Crew} {s₀ : MemoryStore}

/-- Every entry that was not there at first was recorded by one of the handlers. -/
structure Sourced (c : Crew) (s₀ : MemoryStore) : Prop where
  later : s₀.Later c.deployment.store
  deed : ∀ e ∈ c.deployment.store.ledger.drop s₀.ledger.length, ∃ deed ∈ c.log,
    deed.request = .store (.insertEvent e) ∧ deed.before.store.Recorded e deed.after.store ∧
      s₀.Later deed.before.store ∧ deed.after.store.Later c.deployment.store

theorem Sourced.fresh (d : Deployment) : (Crew.fresh d).Sourced d.store :=
  ⟨.refl _, by simp [Crew.fresh]⟩

theorem Sourced.step (hs : c.Sourced s₀) (hc : c.Proper) (hp : c.deployment.store.pending = [])
    (m : Move) : (c.step m).Sourced s₀ := by
  have hlen := hs.later.ledger.length_le
  have hstep := c.step_cases m
  generalize c.step m = c' at hstep
  cases hstep with
  | disturbed =>
    have hl := m.disturb_later c.deployment
    refine ⟨hs.later.trans hl, fun e he => ?_⟩
    rw [m.disturb_ledger] at he
    obtain ⟨deed, hd, hr, hrec, hb, ha⟩ := hs.deed e he
    exact ⟨deed, hd, hr, hrec, hb, ha.trans hl⟩
  | delivered call => exact ⟨hs.later, hs.deed⟩
  | @acted i h r next x d hi hr hx =>
    obtain ⟨e, he, hserves, -⟩ := hc.acts hi hr
    have hl := hx.later hp hserves
    refine ⟨hs.later.trans hl, fun e' he' => ?_⟩
    have hold (hm : e' ∈ c.deployment.store.ledger.drop s₀.ledger.length) :
        ∃ deed ∈ c.log ++ [⟨i, r, x, c.deployment, d⟩],
          deed.request = .store (.insertEvent e') ∧
            deed.before.store.Recorded e' deed.after.store ∧
            s₀.Later deed.before.store ∧ deed.after.store.Later d.store := by
      obtain ⟨deed, hd, hr, hrec, hb, ha⟩ := hs.deed e' hm
      exact ⟨deed, List.mem_append_left _ hd, hr, hrec, hb, ha.trans hl⟩
    obtain hsame | ⟨k, p, p', -, hm⟩ | ⟨e'', rfl, hrec⟩ := hx.store_cases hp
    · exact hold (hsame ▸ he')
    · exact hold (hm.ledger ▸ he')
    · simp only [hrec.eq, List.drop_append_of_le_length hlen, List.mem_append,
        List.mem_singleton] at he'
      obtain he' | rfl := he'
      · exact hold he'
      · exact ⟨_, List.mem_append_right _ List.mem_cons_self, rfl, hrec, hs.later, .refl _⟩

theorem Sourced.run (hs : c.Sourced s₀) (hc : c.Proper) (hp : c.deployment.store.pending = [])
    (moves : List Move) : (c.run moves).Sourced s₀ := by
  induction moves generalizing c with
  | nil => exact hs
  | cons m ms ih => exact ih (hs.step hc hp m) (hc.step m) (step_pending hp m)

end Crew
end PhaseKeeper
