import Mathlib.Data.List.Nodup
import PhaseKeeper.Proofs.Interleaving.Attention
import PhaseKeeper.Proofs.Interleaving.Bookkeeping
import PhaseKeeper.Proofs.Interleaving.Justification
/-!
What comes out when new events are handled and nothing fails. Interleavings differ in how far they bring
a job; but each brings it to a phase that is justified, and where a step is not due for all events.
-/
namespace PhaseKeeper

def errandsOf (calls : List Call) : List Errand := calls.filterMap Call.errand?

theorem errandsOf_append (calls calls' : List Call) :
    errandsOf (calls ++ calls') = errandsOf calls ++ errandsOf calls' := List.filterMap_append

theorem errandsOf_cons (call : Call) (calls : List Call) :
    errandsOf (call :: calls) = errandsOf [call] ++ errandsOf calls :=
  errandsOf_append [call] calls

/-- The types of the accepted events for a job. -/
def typesFor (calls : List Call) (j : String) : List String :=
  ((errandsOf calls).filter (·.event.jobId = j)).map (·.eventType)

theorem mem_typesFor {calls : List Call} {j t : String} :
    t ∈ typesFor calls j ↔ ∃ e ∈ errandsOf calls, e.event.jobId = j ∧ e.eventType = t := by
  simp [typesFor, and_assoc]

/-- Nothing fails, and the events of the calls are new and differ in their identifiers. -/
structure Deployment.Awaits (d : Deployment) (calls : List Call) : Prop where
  calm : d.store.Calm
  distinct : ((errandsOf calls).map (·.event.eventId)).Nodup
  unrecorded : ∀ e ∈ errandsOf calls, d.store.recorded e.event.eventId = false
  unseen : ∀ e ∈ errandsOf calls, ¬ d.Caches e.event.eventId

/-- How a job can get from the phase `origin` to the phase `p` when events of the given types are recorded
beside those that were seen before. -/
structure Arrival (assets : Assets) (origin p : Phase) (before after : String → Bool)
    (types : List String) : Prop where
  seen : ∀ t, after t = true ↔ before t = true ∨ t ∈ types
  justified : Phase.Justified assets origin p types after
  rested : types ≠ [] → ∃ t ∈ types, (Step.plan assets after t false p).isAdvance = false
  stayed : origin = p → ∀ t ∈ types, (Step.plan assets before t false p).isAdvance = false

namespace Crew
variable {d : Deployment} {calls : List Call} {order : List Nat} {i : Nat} {e : Errand} {j t : String}

theorem worked_calls (d : Deployment) (calls : List Call) (order : List Nat) :
    (worked d calls order).handlers.map Handler.call = calls := by
  have hdeliver : (calls.map Move.deliver).filterMap Move.call? = calls := by
    rw [List.filterMap_map]
    exact List.filterMap_some
  have hact : (order.map fun i => Move.act i none).filterMap Move.call? = [] := by
    rw [List.filterMap_map]
    exact List.filterMap_eq_nil_iff.2 fun _ _ => rfl
  rw [worked, calls_run, List.filterMap_append, hdeliver, hact]
  simp [fresh]

theorem errand_of_worked (he : (worked d calls order).errand? i = some e) : e ∈ errandsOf calls := by
  obtain ⟨h, hi, hcall⟩ := handler_of_errand he
  have hmem : h.call ∈ calls := by
    rw [← worked_calls d calls order]
    exact List.mem_map_of_mem (List.mem_of_getElem? hi)
  exact List.mem_filterMap.2 ⟨h.call, hmem, hcall⟩

theorem worked_of_errand (order : List Nat) (he : e ∈ errandsOf calls) :
    ∃ (i : Nat) (h : Handler), (worked d calls order).handlers[i]? = some h ∧
      h.call.errand? = some e := by
  obtain ⟨call, hmem, hcall⟩ := List.mem_filterMap.1 he
  rw [← worked_calls d calls order] at hmem
  obtain ⟨h, hh, rfl⟩ := List.mem_map.1 hmem
  obtain ⟨i, hi⟩ := List.mem_iff_getElem?.1 hh
  exact ⟨i, h, hi, hcall⟩

theorem orderly_worked {m : Move}
    (hm : m ∈ calls.map Move.deliver ++ order.map fun i => Move.act i none) : m.orderly = true := by
  obtain hm | hm := List.mem_append.1 hm
  · obtain ⟨call, -, rfl⟩ := List.mem_map.1 hm
    rfl
  · obtain ⟨i, -, rfl⟩ := List.mem_map.1 hm
    rfl

end Crew

theorem Terms.worked {Note : Type} {P : Errand → Pact Note} {start : Note}
    {post : Errand → Note → Deployment → Prop} {V : Deployment → Prop} (T : Terms P start post V)
    {d : Deployment} (hd : V d) (calls : List Call) (order : List Nat) :
    (Crew.worked d calls order).Upholds P start post V := by
  refine (Crew.Upholds.fresh d hd).run T fun m hm d' hd' => ?_
  rw [Move.disturb_of_orderly (Crew.orderly_worked hm)]
  exact hd'

namespace Crew
variable {d : Deployment} {calls : List Call} {order : List Nat} {j t : String}

theorem Sourced.worked (hp : d.store.pending = []) (calls : List Call) (order : List Nat) :
    (worked d calls order).Sourced d.store :=
  (Sourced.fresh d).run (proper_fresh d) hp _

theorem entry_worked (ha : d.Awaits calls) {entry : LedgerEntry}
    (hm : entry ∈ (worked d calls order).deployment.store.ledger.drop d.store.ledger.length) :
    ∃ e ∈ errandsOf calls, entry.eventId = e.event.eventId ∧ entry.jobId = e.event.jobId ∧
      entry.eventType = e.eventType := by
  have hbook := (Pact.recording_terms d).worked (Pact.recording_valid ha.calm) calls order
  obtain ⟨deed, hd, hr, -⟩ := (Sourced.worked ha.calm.pending calls order).deed entry hm
  obtain ⟨-, e, he, hserves⟩ := hbook.proper.log hd
  rw [hr] at hserves
  exact ⟨e, errand_of_worked he, hserves⟩

theorem recorded_worked (ha : d.Awaits calls) {id : String}
    (hr : (worked d calls order).deployment.store.recorded id = true) :
    d.store.recorded id = true ∨ ∃ e ∈ errandsOf calls, e.event.eventId = id := by
  obtain ⟨entry, hm, hid⟩ := List.any_eq_true.1 hr
  have hid := of_decide_eq_true hid
  obtain hold | hnew := (Sourced.worked ha.calm.pending calls order).later.mem_ledger.1 hm
  · exact .inl (List.any_eq_true.2 ⟨entry, hold, decide_eq_true hid⟩)
  · obtain ⟨e, he, heid, -⟩ := entry_worked ha hnew
    exact .inr ⟨e, he, heid.symm.trans hid⟩

/-- What has been recorded are the events of the calls, if all handlers have ended. -/
theorem typesSince_worked (ha : d.Awaits calls) (hidle : (worked d calls order).idle = true)
    (hj : ∃ job, d.store.job? j = some job) :
    t ∈ (worked d calls order).deployment.store.typesSince d.store.ledger.length j ↔
      t ∈ typesFor calls j := by
  have hbook := (Pact.recording_terms d).worked (Pact.recording_valid ha.calm) calls order
  have hsource := Sourced.worked ha.calm.pending calls order
  rw [MemoryStore.mem_typesSince, mem_typesFor]
  constructor
  · rintro ⟨entry, hm, hentry, rfl⟩
    obtain ⟨e, he, -, hej, het⟩ := entry_worked ha hm
    exact ⟨e, he, hej.symm.trans hentry, het.symm⟩
  · rintro ⟨e, he, rfl, rfl⟩
    obtain ⟨i, h, hi, hcall⟩ := worked_of_errand (d := d) order he
    have hrec := hbook.ends (Pact.recording_terms d) hi hcall (finished_of_idle hidle hi)
      (ha.unseen e he) hj
    obtain ⟨entry, hm, hid⟩ := List.any_eq_true.1 hrec
    have hid := of_decide_eq_true hid
    obtain hold | hnew := hsource.later.mem_ledger.1 hm
    · have hun := ha.unrecorded e he
      rw [MemoryStore.recorded, List.any_eq_false] at hun
      exact absurd (decide_eq_true hid) (hun entry hold)
    · obtain ⟨e', he', hid', hjob, htype⟩ := entry_worked ha hnew
      obtain rfl := List.inj_on_of_nodup_map ha.distinct he' he (hid'.symm.trans hid)
      exact ⟨entry, hnew, hjob, htype⟩

/-- An event that was recorded while the job was in a phase that it stayed in called for no step there. -/
theorem stayed_worked (ha : d.Awaits calls) (hidle : (worked d calls order).idle = true)
    {job job' : Job} (hj : d.store.job? j = some job)
    (hj' : (worked d calls order).deployment.store.job? j = some job')
    (hp : job.phase = job'.phase) (ht : t ∈ typesFor calls j) :
    (Step.plan job.assets (d.store.hasEvent j) t false job'.phase).isAdvance = false := by
  have hup := (Pact.attending_terms j job'.phase).worked ha.calm calls order
  rw [← typesSince_worked ha hidle ⟨job, hj⟩, MemoryStore.mem_typesSince] at ht
  obtain ⟨entry, hm, rfl, rfl⟩ := ht
  obtain ⟨deed, hd, hr, hrec, hbefore, hafter⟩ :=
    (Sourced.worked ha.calm.pending calls order).deed entry hm
  obtain ⟨-, e, he, hserves⟩ := hup.proper.log hd
  rw [hr] at hserves
  refine Bool.eq_false_iff.2 fun hadvance => ?_
  -- the phase cannot have been another one in between
  obtain ⟨job₁, hj₁, hassets, -, hle⟩ := (hbefore.trans hrec.later).job hj
  obtain ⟨job₂, hj₂, -, -, hle'⟩ := hafter.job hj₁
  obtain rfl := Option.some.inj (hj₂.symm.trans hj')
  have hphase : job₁.phase = job₂.phase := Phase.le_antisymm hle' (hp ▸ hle)
  have hdue : deed.after.store.Due entry.jobId e.eventType job₂.phase := by
    refine ⟨job₁, hj₁, hphase, ?_⟩
    rw [hassets, ← hserves.2.2]
    exact Step.isAdvance_mono (hbefore.trans hrec.later).hasEvent hadvance
  obtain ⟨p, hp', hlt⟩ := hup.past_of_alerted hidle
    ⟨deed, hd, e, he, .inl ⟨entry, hr, rfl, hrec⟩, hdue⟩
  rw [MemoryStore.phase_of_job hj'] at hp'
  cases hp'
  exact Phase.lt_irrefl _ hlt

/-- Where new events bring a job if nothing fails, whatever the interleaving. -/
theorem arrival_worked (ha : d.Awaits calls) (hidle : (worked d calls order).idle = true)
    {job : Job} (hj : d.store.job? j = some job) :
    ∃ job', (worked d calls order).deployment.store.job? j = some job' ∧
      job'.assets = job.assets ∧
      Arrival job.assets job.phase job'.phase (d.store.hasEvent j)
        ((worked d calls order).deployment.store.hasEvent j) (typesFor calls j) := by
  have hsource := Sourced.worked ha.calm.pending calls order
  have htypes (t : String) := typesSince_worked (t := t) ha hidle ⟨job, hj⟩
  obtain ⟨job', hj', hassets, -, -⟩ := hsource.later.job hj
  refine ⟨job', hj', hassets, fun t => ?_, ?_, fun hne => ?_, fun hp t ht => ?_⟩
  · rw [hsource.later.hasEvent_iff, htypes]
  · have hstart : (Pact.justifying d.store.ledger.length job.phase j).valid d := by
      refine ⟨ha.calm.pending, Nat.le_refl _, fun {job₁} hj₁ => ?_⟩
      obtain rfl := Option.some.inj (hj.symm.trans hj₁)
      exact .refl _ _ _ _
    have hjust := ((Pact.justifying_terms _ _ j).worked hstart calls order).holds.2.phase hj'
    rw [hassets] at hjust
    exact hjust.mono (htypes _).1 id
  · have hup := (Pact.attending_terms j job'.phase).worked ha.calm calls order
    have hwatched : (worked d calls order).Watched (· ∈ typesFor calls j) d.store.ledger.length j
        job'.phase := by
      refine Watched.run ⟨Nat.le_refl _, ?_, fun hdue => ?_⟩ (proper_fresh d) ?_ ha.calm.pending
      · simp [fresh, MemoryStore.typesSince]
      · exact absurd hdue.news (by simp [fresh, MemoryStore.typesSince])
      · exact fun he hej => mem_typesFor.2 ⟨_, errand_of_worked he, hej, rfl⟩
    refine Classical.byContradiction fun hnone => hwatched.not_overdue hup hidle
      ⟨MemoryStore.phase_of_job hj', ?_, fun t ht => ⟨job', hj', rfl, ?_⟩⟩
    · obtain ⟨t, ht⟩ := List.exists_mem_of_ne_nil _ hne
      exact List.ne_nil_of_mem ((htypes t).2 ht)
    · rw [hassets]
      exact Bool.of_not_eq_false fun hstay => hnone ⟨t, ht, hstay⟩
  · exact stayed_worked ha hidle hj hj' hp ht

theorem job_run_none {c : Crew} {moves : List Move} (hm : ∀ m ∈ moves, m.orderly = true)
    (hp : c.deployment.store.pending = []) (hj : c.deployment.store.job? j = none) :
    (c.run moves).deployment.store.job? j = none := by
  induction moves generalizing c with
  | nil => exact hj
  | cons m ms ih =>
    refine ih (fun m' h => hm m' (List.mem_cons_of_mem m h)) (step_pending hp m) ?_
    have hs := c.step_cases m
    generalize c.step m = c' at hs
    cases hs with
    | disturbed =>
      rw [Move.disturb_of_orderly (hm m List.mem_cons_self)]
      exact hj
    | delivered => exact hj
    | acted hi hr hx => exact hx.job_none hp hj

theorem job_worked_none (hp : d.store.pending = []) (hj : d.store.job? j = none) :
    (worked d calls order).deployment.store.job? j = none :=
  job_run_none (fun _ hm => orderly_worked hm) hp hj

end Crew
end PhaseKeeper
