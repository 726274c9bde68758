import PhaseKeeper.Proofs.Interleaving.Crew
/-!
A crew whose handlers all work on the terms of a pact. What a pact demands holds all the time, because
every handler does its part from its own request to its next one, and the others do not break it.
-/
namespace PhaseKeeper

namespace Deployment
variable {d : Deployment}

theorem create_cases (job : Job) (d : Deployment) :
    d.create job = d ∨ d.store.job? job.id = none ∧
      d.create job = { d with store := d.store.insertJob job } := by
  unfold create
  split
  · exact .inl rfl
  · rename_i h
    exact .inr ⟨by simpa using h, rfl⟩

end Deployment

theorem MemoryStore.later_insertJob {s : MemoryStore} {job : Job} (h : s.job? job.id = none) :
    s.Later (s.insertJob job) where
  ledger := List.prefix_rfl
  job := by
    intro j job' hj
    have hn : job.id ≠ j := by
      rintro rfl
      rw [h] at hj
      cases hj
    exact ⟨job', by simpa [job?, row_insertJob, hn] using hj, rfl, rfl, Phase.le_refl _⟩

theorem MemoryStore.later_of_eq {s s' : MemoryStore} (hr : s'.rows = s.rows)
    (hl : s'.ledger = s.ledger) : s.Later s' := by
  refine ⟨hl ▸ List.prefix_rfl, fun {j job} hj => ⟨job, ?_, rfl, rfl, Phase.le_refl _⟩⟩
  simpa [job?, row?, hr] using hj

namespace Move

theorem disturb_later (m : Move) (d : Deployment) : d.store.Later (m.disturb d).store := by
  cases m with
  | create job =>
    obtain h | ⟨hn, h⟩ := d.create_cases job
    · simp only [disturb, h]
      exact .refl _
    · simp only [disturb, h]
      exact MemoryStore.later_insertJob hn
  | fail | recover => exact MemoryStore.later_of_eq rfl rfl
  | deliver | act => exact .refl _

theorem disturb_ledger (m : Move) (d : Deployment) :
    (m.disturb d).store.ledger = d.store.ledger := by
  cases m with
  | create job =>
    obtain h | ⟨-, h⟩ := d.create_cases job
    · simp only [disturb, h]
    · simp only [disturb, h]
      rfl
  | _ => rfl

theorem disturb_row (m : Move) (d : Deployment) (j : String) :
    (m.disturb d).store.row? j = d.store.row? j ∨ d.store.job? j = none ∧
      ∃ job, m = .create job ∧ job.id = j ∧
        (m.disturb d).store.row? j = some ⟨job, [job.phase]⟩ := by
  cases m with
  | create job =>
    obtain h | ⟨hn, h⟩ := d.create_cases job
    · exact .inl (by rw [disturb, h])
    · by_cases hj : job.id = j
      · refine .inr ⟨hj ▸ hn, job, rfl, hj, ?_⟩
        simp [disturb, h, MemoryStore.row_insertJob, hj]
      · exact .inl (by simp [disturb, h, MemoryStore.row_insertJob, hj])
  | _ => exact .inl rfl

theorem disturb_job (m : Move) (d : Deployment) (j : String) :
    (m.disturb d).store.job? j = d.store.job? j ∨ d.store.job? j = none ∧
      ∃ job, m = .create job ∧ job.id = j ∧ (m.disturb d).store.job? j = some job := by
  obtain h | ⟨hn, job, hm, hj, h⟩ := m.disturb_row d j
  · exact .inl (by simp only [MemoryStore.job?, h])
  · exact .inr ⟨hn, job, hm, hj, by simp only [MemoryStore.job?, h, Option.map_some]⟩

theorem disturb_pending (m : Move) (d : Deployment) :
    (m.disturb d).store.pending = d.store.pending := by
  cases m with
  | create job =>
    obtain h | ⟨-, h⟩ := d.create_cases job
    · simp only [disturb, h]
    · simp only [disturb, h]
      rfl
  | _ => rfl

/-- The store is not made to fail. -/
def harmless : Move → Bool
  | .fail .. => false
  | _ => true

theorem disturb_calm {m : Move} {d : Deployment} (hm : m.harmless = true) (hd : d.store.Calm) :
    (m.disturb d).store.Calm := by
  refine ⟨?_, (m.disturb_pending d).trans hd.pending⟩
  cases m with
  | create job =>
    obtain h | ⟨-, h⟩ := d.create_cases job
    · simp only [disturb, h]
      exact hd.faults
    · simp only [disturb, h]
      exact hd.faults
  | fail => cases hm
  | recover => rfl
  | deliver | act => exact hd.faults

end Move

theorem Answered.later {id k t : String} {r : Request} {d d' : Deployment} {x : r.Reply}
    (h : Answered r d x d') (hp : d.store.pending = []) (hs : r.Serves id k t) :
    d.store.Later d'.store := by
  obtain he | ⟨j, p, q, rfl, hm⟩ | ⟨e, rfl, hr⟩ := h.store_cases hp
  · rw [he]
    exact .refl _
  · exact hm.later hs.2
  · exact hr.later

theorem Answered.job_other {id j k t : String} {r : Request} {d d' : Deployment} {x : r.Reply}
    (h : Answered r d x d') (hp : d.store.pending = []) (hs : r.Serves id k t) (hj : j ≠ k) :
    d'.store.job? j = d.store.job? j := by
  obtain he | ⟨k', p, q, rfl, hm⟩ | ⟨e, rfl, hr⟩ := h.store_cases hp
  · rw [he]
  · obtain rfl : k' = k := hs.1
    simp only [MemoryStore.job?, hm.other hj]
  · rw [hr.eq]
    rfl

theorem Answered.job_none {j : String} {r : Request} {d d' : Deployment} {x : r.Reply}
    (h : Answered r d x d') (hp : d.store.pending = []) (hj : d.store.job? j = none) :
    d'.store.job? j = none := by
  obtain he | ⟨k, p, q, -, hm⟩ | ⟨e, -, hr⟩ := h.store_cases hp
  · rw [he, hj]
  · have hjk : j ≠ k := by
      rintro rfl
      obtain ⟨job, hjob, -⟩ := MemoryStore.phase_eq_some hm.was
      rw [hj] at hjob
      cases hjob
    simpa only [MemoryStore.job?, hm.other hjk] using hj
  · rw [hr.eq]
    exact hj

namespace Crew
variable {c : Crew} {i k : Nat} {h : Handler} {e : Errand}

theorem errand_of_handler (hi : c.handlers[i]? = some h) : c.errand? i = h.call.errand? := by
  simp [errand?, hi]

theorem handler_of_errand (he : c.errand? i = some e) :
    ∃ h, c.handlers[i]? = some h ∧ h.call.errand? = some e := Option.bind_eq_some_iff.1 he

theorem finished_of_idle (hc : c.idle = true) (hi : c.handlers[i]? = some h) :
    h.finished = true := List.all_eq_true.1 hc h (List.mem_of_getElem? hi)

theorem handlers_set (hi : c.handlers[i]? = some h) {h' : Handler} (k : Nat) :
    (c.handlers.set i h')[k]? = if k = i then some h' else c.handlers[k]? := by
  have hlt : i < c.handlers.length := (List.getElem?_eq_some_iff.1 hi).1
  by_cases hk : k = i
  · simp [hk, hlt]
  · rw [if_neg hk, List.getElem?_set_ne (fun he => hk he.symm)]

theorem handlers_snoc {h' : Handler} (hi : (c.handlers ++ [h'])[i]? = some h) :
    c.handlers[i]? = some h ∨ i = c.handlers.length ∧ h = h' := by
  by_cases hlt : i < c.handlers.length
  · exact .inl (by rwa [List.getElem?_append_left hlt] at hi)
  · rw [List.getElem?_append_right (Nat.le_of_not_lt hlt)] at hi
    have hz : i - c.handlers.length < 1 := (List.getElem?_eq_some_iff.1 hi).1
    exact .inr ⟨by omega, List.mem_singleton.1 (List.mem_of_getElem? hi)⟩

theorem errand_step (m : Move) (he : c.errand? k = some e) : (c.step m).errand? k = some e := by
  obtain ⟨h, hk, hh⟩ := handler_of_errand he
  have hs := c.step_cases m
  generalize c.step m = c' at hs
  cases hs with
  | disturbed => exact he
  | delivered call =>
    have hlt : k < c.handlers.length := (List.getElem?_eq_some_iff.1 hk).1
    simp [errand?, List.getElem?_append_left hlt, hk, hh]
  | @acted i h' r next x d hi hr hx =>
    simp only [errand?]
    rw [handlers_set hi]
    by_cases hki : k = i
    · subst hki
      rw [if_pos rfl]
      rw [hi] at hk
      cases hk
      exact hh
    · rw [if_neg hki]
      exact he

theorem errand_run (moves : List Move) (he : c.errand? k = some e) :
    (c.run moves).errand? k = some e := by
  induction moves generalizing c with
  | nil => exact he
  | cons m ms ih => exact ih (errand_step m he)

/-- Every handler keeps to the event that it was called for. -/
structure Proper (c : Crew) : Prop where
  rejected : ∀ {i : Nat} {h : Handler}, c.handlers[i]? = some h → h.call.errand? = none →
    ∃ cause, h.rest = .done (.rejected cause)
  within : ∀ {i : Nat} {h : Handler} {e : Errand}, c.handlers[i]? = some h → h.call.errand? = some e →
    h.rest.Within e.Serves Outcome.Onward
  log : ∀ {deed : Deed}, deed ∈ c.log → Answered deed.request deed.before deed.reply deed.after ∧
    ∃ e, c.errand? deed.handler = some e ∧ e.Serves deed.request

theorem Proper.acts (hc : c.Proper) {r : Request} {next : r.Reply → Handling Outcome}
    (hi : c.handlers[i]? = some h) (hr : h.rest = .ask r next) :
    ∃ e, h.call.errand? = some e ∧ e.Serves r ∧ ∀ x, (next x).Within e.Serves Outcome.Onward := by
  cases he : h.call.errand? with
  | none =>
    obtain ⟨cause, ho⟩ := hc.rejected hi he
    rw [hr] at ho
    cases ho
  | some e =>
    have hw := hc.within hi he
    rw [hr] at hw
    exact ⟨e, rfl, hw⟩

theorem deedsOf_snoc (log : List Deed) (deed : Deed) (k : Nat) :
    (log ++ [deed]).filter (·.handler = k) =
      log.filter (·.handler = k) ++ if deed.handler = k then [deed] else [] := by
  by_cases hk : deed.handler = k <;> simp [hk]

theorem Proper.deedsOf_new (hc : c.Proper) : c.deedsOf c.handlers.length = [] := by
  refine List.filter_eq_nil_iff.2 fun deed hd => ?_
  obtain ⟨-, e, he, -⟩ := hc.log hd
  obtain ⟨h, hh, -⟩ := handler_of_errand he
  have hlt : deed.handler < c.handlers.length := (List.getElem?_eq_some_iff.1 hh).1
  simpa using Nat.ne_of_lt hlt

theorem Proper.step (hc : c.Proper) (m : Move) : (c.step m).Proper := by
  have hkeep {k e} : c.errand? k = some e → (c.step m).errand? k = some e := errand_step m
  have hs := c.step_cases m
  generalize c.step m = c' at hs hkeep
  have hold {deed} (hd : deed ∈ c.log) :
      Answered deed.request deed.before deed.reply deed.after ∧
        ∃ e, c'.errand? deed.handler = some e ∧ e.Serves deed.request := by
    obtain ⟨ha, e, he, hserves⟩ := hc.log hd
    exact ⟨ha, e, hkeep he, hserves⟩
  cases hs with
  | disturbed => exact ⟨hc.rejected, hc.within, hold⟩
  | delivered call =>
    refine ⟨fun {i h} hi he => ?_, fun {i h e} hi he => ?_, hold⟩
    · obtain hi | ⟨-, rfl⟩ := handlers_snoc hi
      · exact hc.rejected hi he
      · obtain ⟨-, hh⟩ | ⟨e, he', -⟩ := call.handling_cases
        · exact hh
        · rw [he'] at he
          cases he
    · obtain hi | ⟨-, rfl⟩ := handlers_snoc hi
      · exact hc.within hi he
      · obtain ⟨he', -⟩ | ⟨e', he', hh⟩ := call.handling_cases
        · rw [he'] at he
          cases he
        · rw [he'] at he
          cases he
          simp only [hh]
          exact e.handling_within
  | @acted i h r next x d hi hr hx =>
    obtain ⟨e, he, hserves, hnext⟩ := hc.acts hi hr
    have hcase {k : Nat} {h' : Handler}
        (hk : (c.handlers.set i { h with rest := next x })[k]? = some h') :
        c.handlers[k]? = some h' ∨ h' = { h with rest := next x } := by
      rw [handlers_set hi] at hk
      split at hk
      · exact .inr (Option.some.inj hk).symm
      · exact .inl hk
    refine ⟨fun {k h'} hk he' => ?_, fun {k h' e'} hk he' => ?_, fun {deed} hd => ?_⟩
    · obtain hk | rfl := hcase hk
      · exact hc.rejected hk he'
      · rw [he] at he'
        cases he'
    · obtain hk | rfl := hcase hk
      · exact hc.within hk he'
      · rw [he] at he'
        cases he'
        exact hnext x
    · obtain hd | hd := List.mem_append.1 hd
      · exact hold hd
      · rw [List.mem_singleton.1 hd]
        exact ⟨hx, e, hkeep ((errand_of_handler hi).trans he), hserves⟩

theorem Proper.onward (hc : c.Proper) {o : Outcome} (hi : c.handlers[i]? = some h)
    (ho : h.rest = .done o) : o.Onward := by
  cases he : h.call.errand? with
  | none =>
    obtain ⟨cause, hr⟩ := hc.rejected hi he
    rw [ho] at hr
    cases hr
    exact fun cause' he' => nomatch he'
  | some e =>
    have hw := hc.within hi he
    rw [ho] at hw
    exact hw

theorem step_pending (hp : c.deployment.store.pending = []) (m : Move) :
    (c.step m).deployment.store.pending = [] := by
  have hs := c.step_cases m
  generalize c.step m = c' at hs
  cases hs with
  | disturbed => exact (m.disturb_pending c.deployment).trans hp
  | delivered => exact hp
  | acted hi hr hx => exact hx.pending hp

theorem proper_fresh (d : Deployment) : (fresh d).Proper where
  rejected := by simp [fresh]
  within := by simp [fresh]
  log := by simp [fresh]

end Crew

def Pact.notes {Note : Type} (P : Pact Note) (n : Note) (log : List Deed) : Note :=
  log.foldl (fun n deed => P.note n deed.request deed.before deed.reply deed.after) n

variable {Note : Type} {P : Errand → Pact Note} {start : Note}
  {post : Errand → Note → Deployment → Prop} {V : Deployment → Prop}

/-- Pacts for all errands that go together: they are kept while `V` holds, and `V` holds while they
are kept. -/
structure Terms (P : Errand → Pact Note) (start : Note) (post : Errand → Note → Deployment → Prop)
    (V : Deployment → Prop) : Prop where
  valid : ∀ {e d}, V d → (P e).valid d
  pending : ∀ {d}, V d → d.store.pending = []
  rely : ∀ {e d d'}, d.store.Later d'.store → (P e).rely d d'
  starts : ∀ e {d}, V d → (P e).Keeps (fun _ n d => post e n d) e.handling start d
  kept : ∀ {e n r d x d'}, V d → e.Serves r → Answered r d x d' → (P e).duty n r d x d' → V d'

/-- The crew is proper, and every handler still keeps its pact. -/
structure Crew.Upholds (P : Errand → Pact Note) (start : Note)
    (post : Errand → Note → Deployment → Prop) (V : Deployment → Prop) (c : Crew) : Prop where
  holds : V c.deployment
  held : ∀ {deed : Deed}, deed ∈ c.log → V deed.before
  proper : c.Proper
  keeps : ∀ {i : Nat} {h : Handler} {e : Errand}, c.handlers[i]? = some h → h.call.errand? = some e →
    (P e).Keeps (fun _ n d => post e n d) h.rest ((P e).notes start (c.deedsOf i)) c.deployment

namespace Crew.Upholds
variable {c : Crew}

theorem fresh (d : Deployment) (hd : V d) : (Crew.fresh d).Upholds P start post V :=
  ⟨hd, by simp [Crew.fresh], proper_fresh d, by simp [Crew.fresh]⟩

theorem acts (T : Terms P start post V) (hc : c.Upholds P start post V) {i : Nat} {h : Handler}
    {e : Errand} {r : Request} {next : r.Reply → Handling Outcome} {x : r.Reply} {d : Deployment}
    (hi : c.handlers[i]? = some h) (he : h.call.errand? = some e) (hr : h.rest = .ask r next)
    (hx : Answered r c.deployment x d) :
    (P e).duty ((P e).notes start (c.deedsOf i)) r c.deployment x d ∧
      (P e).Keeps (fun _ n d => post e n d) (next x)
        ((P e).note ((P e).notes start (c.deedsOf i)) r c.deployment x d) d := by
  have hk := hc.keeps hi he
  rw [hr] at hk
  exact hk c.deployment (T.valid hc.holds) ((P e).refl _) x d hx

theorem step (T : Terms P start post V) (hc : c.Upholds P start post V) {m : Move}
    (hm : V (m.disturb c.deployment)) : (c.step m).Upholds P start post V := by
  have hproper := hc.proper.step m
  have hs := c.step_cases m
  generalize c.step m = c' at hs hproper
  cases hs with
  | disturbed =>
    exact ⟨hm, hc.held, hproper, fun hi he => (hc.keeps hi he).later (T.rely (m.disturb_later _))⟩
  | delivered call =>
    refine ⟨hc.holds, hc.held, hproper, fun {i h e} hi he => ?_⟩
    obtain hi | ⟨rfl, rfl⟩ := handlers_snoc hi
    · exact hc.keeps hi he
    · have hnew : Crew.deedsOf { c with handlers := c.handlers ++ [⟨call, call.handling⟩] }
          c.handlers.length = [] := hc.proper.deedsOf_new
      rw [hnew]
      obtain ⟨he', -⟩ | ⟨e', he', hh⟩ := call.handling_cases
      · rw [he'] at he
        cases he
      · rw [he'] at he
        cases he
        simp only [hh]
        exact T.starts e hc.holds
  | @acted i h r next x d hi hr hx =>
    obtain ⟨e, he, hserves, -⟩ := hc.proper.acts hi hr
    obtain ⟨hduty, hkeeps⟩ := hc.acts T hi he hr hx
    refine ⟨T.kept hc.holds hserves hx hduty, fun {deed} hd => ?_, hproper,
      fun {k h' e'} hk he' => ?_⟩
    · obtain hd | hd := List.mem_append.1 hd
      · exact hc.held hd
      · rw [List.mem_singleton.1 hd]
        exact hc.holds
    simp only [Crew.deedsOf, deedsOf_snoc]
    rw [handlers_set hi] at hk
    by_cases hki : k = i
    · subst hki
      rw [if_pos rfl] at hk
      cases hk
      rw [he] at he'
      cases he'
      rw [if_pos rfl, Pact.notes, List.foldl_append]
      exact hkeeps
    · rw [if_neg hki] at hk
      rw [if_neg fun hik => hki hik.symm, List.append_nil]
      exact (hc.keeps hk he').later (T.rely (hx.later (T.pending hc.holds) hserves))

theorem run (T : Terms P start post V) (hc : c.Upholds P start post V) {moves : List Move}
    (hm : ∀ m ∈ moves, ∀ d, V d → V (m.disturb d)) : (c.run moves).Upholds P start post V := by
  induction moves generalizing c with
  | nil => exact hc
  | cons m ms ih =>
    have hstep := hc.step T (hm m List.mem_cons_self _ hc.holds)
    exact ih hstep fun m' h => hm m' (List.mem_cons_of_mem m h)

theorem ends (T : Terms P start post V) (hc : c.Upholds P start post V) {i : Nat} {h : Handler}
    {e : Errand} (hi : c.handlers[i]? = some h) (he : h.call.errand? = some e)
    (hf : h.finished = true) : post e ((P e).notes start (c.deedsOf i)) c.deployment := by
  obtain ⟨o, ho⟩ := h.rest_of_finished hf
  have hk := hc.keeps hi he
  rw [ho] at hk
  exact hk c.deployment (T.valid hc.holds) ((P e).refl _)

end Crew.Upholds
end PhaseKeeper
