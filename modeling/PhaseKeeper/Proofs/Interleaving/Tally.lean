import PhaseKeeper.Proofs.Interleaving.Announcement
import PhaseKeeper.Proofs.Interleaving.Succession
/-!
How many messages tell that a job is complete, when new events are handled and nothing fails: one more
if the job was completed meanwhile and the bus takes such messages, and else none more. So the number
hangs on the phases at both ends only.
-/
namespace PhaseKeeper

/-- How many of the messages tell that the job is complete. -/
def RecordingBus.completions (b : RecordingBus) (j : String) : Nat :=
  b.published.countP fun m => m.topic = Topic.jobCompleted ∧ m.payload = (JobCompleted.mk j).pack

/-- The bus takes messages that tell of completion. -/
def RecordingBus.Open (b : RecordingBus) : Prop := b.failing.lookup Topic.jobCompleted = none

instance (b : RecordingBus) : Decidable b.Open :=
  inferInstanceAs (Decidable (b.failing.lookup Topic.jobCompleted = none))

theorem RecordingBus.completions_send (b : RecordingBus) (draft : Draft) (now : Instant)
    (j : String) : (b.send draft now).2.completions j = b.completions j +
      if b.Open ∧ draft.topic = Topic.jobCompleted ∧ draft.payload = (JobCompleted.mk j).pack
      then 1 else 0 := by
  by_cases ht : draft.topic = Topic.jobCompleted
  · simp only [send, ht, true_and]
    cases hl : b.failing.lookup Topic.jobCompleted with
    | some reason => simp [Open, hl]
    | none => simp [completions, Open, hl, List.countP_append, List.countP_cons, Draft.stamp, ht]
  · simp only [send, ht, false_and, and_false]
    split
    · rfl
    · simp [completions, List.countP_append, Draft.stamp, ht]

namespace Deployment
variable {d d' d'' : Deployment} {j : String}

theorem answer_failing (member : Nat) (r : Request) (d : Deployment) :
    (d.answer member r).2.bus.failing = d.bus.failing := by
  cases r with
  | publish draft =>
    simp only [answer, send, RecordingBus.send]
    split <;> rfl
  | store | lookUp | remember | now | report => rw [answer_bus (by simp)]

theorem answer_completions {id k t : String} {r : Request} (hs : r.Serves id k t) (member : Nat)
    (d : Deployment) (j : String) :
    (d.answer member r).2.bus.completions j =
      d.bus.completions j + if d.bus.Open ∧ r = announcement j then 1 else 0 := by
  have hsame {r : Request} {d' : Deployment} (hb : d'.bus = d.bus) (hr : r ≠ announcement j) :
      d'.bus.completions j =
        d.bus.completions j + if d.bus.Open ∧ r = announcement j then 1 else 0 := by
    simp [hb, hr]
  cases r with
  | store | lookUp | remember | now | report =>
    exact hsame (answer_bus (by simp) member d) (by simp [announcement])
  | publish draft =>
    have hdraft : draft = (JobCompleted.mk k).draft ∨
        ∃ industry, draft = (MatchRequest.ofJob k industry).draft := by
      obtain h | h | h := hs
      · exact h.elim
      · exact .inl (Request.publish.inj h)
      · exact .inr h
    change (d.bus.send draft d.clock).2.completions j = _
    rw [RecordingBus.completions_send]
    obtain rfl | ⟨industry, rfl⟩ := hdraft
    · have hreq : Request.publish (JobCompleted.mk k).draft = announcement j ↔ k = j :=
        ⟨fun h => JobCompleted.draft_injective (Request.publish.inj h), fun h => by rw [h]; rfl⟩
      have hpack : (JobCompleted.mk k).pack = (JobCompleted.mk j).pack ↔ k = j :=
        ⟨JobCompleted.pack_injective, fun h => by rw [h]⟩
      simp only [hreq]
      simp only [JobCompleted.draft, Draft.ofJob, hpack, true_and]
    · have hreq : Request.publish (MatchRequest.ofJob k industry).draft ≠ announcement j := fun h =>
        JobCompleted.draft_ne_request j k industry (Request.publish.inj h).symm
      have htopic : (MatchRequest.ofJob k industry).draft.topic ≠ Topic.jobCompleted := by
        change Topic.matchRequest ≠ Topic.jobCompleted
        decide
      simp only [hreq, htopic, false_and, and_false]

end Deployment

theorem Answered.completes_iff {id j k t : String} {r : Request} {d d' : Deployment} {x : r.Reply}
    (h : Answered r d x d') (hp : d.store.pending = []) (hs : r.Serves id k t) :
    Completes j r d d' ↔
      d'.store.phase? j = some .completed ∧ d.store.phase? j ≠ some .completed := by
  constructor
  · rintro ⟨p, rfl, hm⟩
    refine ⟨hm.phase, fun hc => ?_⟩
    obtain rfl := Option.some.inj (hm.was.symm.trans hc)
    exact Phase.lt_irrefl _ hs.2
  · rintro ⟨hc, hn⟩
    obtain he | ⟨k', p, q, rfl, hm⟩ | ⟨e, -, hr⟩ := h.store_cases hp
    · exact absurd (he ▸ hc) hn
    · by_cases hj : j = k'
      · subst hj
        obtain rfl := Option.some.inj (hm.phase.symm.trans hc)
        exact ⟨p, rfl, hm⟩
      · refine absurd ?_ hn
        simpa only [MemoryStore.phase?, MemoryStore.job?, hm.other hj] using hc
    · refine absurd ?_ hn
      rw [hr.eq] at hc
      exact hc

namespace Crew
variable {c : Crew} {d : Deployment} {j : String} {calls : List Call} {order : List Nat}

theorem step_orderly (c : Crew) {m : Move} (hm : m.orderly = true) :
    ((c.step m).deployment = c.deployment ∧ (c.step m).log = c.log) ∨
      ∃ (i : Nat) (h : Handler) (r : Request) (next : r.Reply → Handling Outcome) (x : r.Reply)
        (d : Deployment), c.handlers[i]? = some h ∧ h.rest = .ask r next ∧
        c.deployment.answer h.call.member r = (x, d) ∧
        (c.step m).deployment = d ∧ (c.step m).log = c.log ++ [⟨i, r, x, c.deployment, d⟩] := by
  cases m with
  | create | fail | recover => cases hm
  | deliver call => exact .inl ⟨rfl, rfl⟩
  | act i refusal =>
    cases refusal with
    | some cause => cases hm
    | none =>
      simp only [step, act]
      cases hi : c.handlers[i]? with
      | none => exact .inl ⟨rfl, rfl⟩
      | some h =>
        cases hr : h.rest with
        | done o => exact .inl ⟨by simp [hr], by simp [hr]⟩
        | ask r next =>
          refine .inr ⟨i, h, r, next, (c.deployment.answer h.call.member r).1,
            (c.deployment.answer h.call.member r).2, hi, hr, rfl, ?_, ?_⟩ <;>
            simp [hr, Deployment.serve_unrefused]

/-- The messages about the job since `d`. -/
structure Tallied (c : Crew) (d : Deployment) (j : String) : Prop where
  later : d.store.Later c.deployment.store
  failing : c.deployment.bus.failing = d.bus.failing
  count : c.deployment.bus.completions j =
    d.bus.completions j + if d.bus.Open then c.attempts j else 0
  won : (∃ win ∈ c.log, win.Completes j) ↔
    c.deployment.store.phase? j = some .completed ∧ d.store.phase? j ≠ some .completed

theorem Tallied.fresh (d : Deployment) (j : String) : (Crew.fresh d).Tallied d j := by
  refine ⟨.refl _, rfl, by simp [Crew.fresh, attempts], ?_⟩
  simp [Crew.fresh]

theorem Tallied.step (ht : c.Tallied d j) (hc : c.Proper) (hp : c.deployment.store.pending = [])
    {m : Move} (hm : m.orderly = true) : (c.step m).Tallied d j := by
  obtain ⟨hd, hlog⟩ | ⟨i, h, r, next, x, d', hi, hr, hx, hd, hlog⟩ := c.step_orderly hm
  · refine ⟨hd ▸ ht.later, hd ▸ ht.failing, ?_, ?_⟩
    · rw [hd, attempts, hlog]
      exact ht.count
    · rw [hd, hlog]
      exact ht.won
  · obtain ⟨e, he, hserves, -⟩ := hc.acts hi hr
    have hanswered : Answered r c.deployment x d' := by
      have hserved := Answered.served h.call.member r c.deployment
      rwa [hx] at hserved
    have hlater := hanswered.later hp hserves
    have hfailing := Deployment.answer_failing h.call.member r c.deployment
    have hcount := Deployment.answer_completions hserves h.call.member c.deployment j
    have hopen : c.deployment.bus.Open ↔ d.bus.Open := by
      rw [RecordingBus.Open, ht.failing, RecordingBus.Open]
    rw [hx] at hfailing hcount
    refine ⟨hd ▸ ht.later.trans hlater, ?_, ?_, ?_⟩
    · rw [hd, hfailing, ht.failing]
    · have hattempts : (c.step m).attempts j = c.attempts j + if r = announcement j then 1 else 0 := by
        simp [attempts, hlog, List.countP_append, List.countP_cons]
      rw [hd, hcount, ht.count, hattempts]
      by_cases ho : d.bus.Open
      · simp [ho, hopen, Nat.add_assoc]
      · simp [ho, hopen]
    · have hwin : (∃ win ∈ (c.step m).log, win.Completes j) ↔
          (∃ win ∈ c.log, win.Completes j) ∨ Completes j r c.deployment d' := by
        rw [hlog]
        simp [or_and_right, exists_or, Deed.Completes]
      rw [hwin, ht.won, hanswered.completes_iff hp hserves, hd]
      constructor
      · rintro (⟨hnow, hstart⟩ | ⟨hnow, hbefore⟩)
        · exact ⟨hlater.completed hnow, hstart⟩
        · exact ⟨hnow, fun hstart => hbefore (ht.later.completed hstart)⟩
      · rintro ⟨hnow, hstart⟩
        by_cases hbefore : c.deployment.store.phase? j = some .completed
        · exact .inl ⟨hbefore, hstart⟩
        · exact .inr ⟨hnow, hbefore⟩

theorem Tallied.run (ht : c.Tallied d j) (hc : c.Proper) (hp : c.deployment.store.pending = [])
    {moves : List Move} (hm : ∀ m ∈ moves, m.orderly = true) : (c.run moves).Tallied d j := by
  induction moves generalizing c with
  | nil => exact ht
  | cons m ms ih =>
    exact ih (ht.step hc hp (hm m List.mem_cons_self)) (hc.step m) (step_pending hp m)
      fun m' h => hm m' (List.mem_cons_of_mem m h)

theorem Tallied.worked (hp : d.store.pending = []) (calls : List Call) (order : List Nat)
    (j : String) : (worked d calls order).Tallied d j :=
  (Tallied.fresh d j).run (proper_fresh d) hp fun _ hm => orderly_worked hm

end Crew

/-- Of what happened between two moments, what is told about the job is that it was completed, if it
was and the bus takes that. -/
structure Deployment.Told (d d' : Deployment) (j : String) : Prop where
  failing : d'.bus.failing = d.bus.failing
  lasting : d.store.phase? j = some .completed → d'.store.phase? j = some .completed
  count : d'.bus.completions j = d.bus.completions j +
    if d.bus.Open ∧ d'.store.phase? j = some .completed ∧ d.store.phase? j ≠ some .completed
    then 1 else 0

namespace Deployment.Told
variable {d d' d'' : Deployment} {j : String}

theorem refl (d : Deployment) (j : String) : d.Told d j := ⟨rfl, fun h => h, by simp⟩

theorem trans (h : d.Told d' j) (k : d'.Told d'' j) : d.Told d'' j := by
  refine ⟨k.failing.trans h.failing, fun hc => k.lasting (h.lasting hc), ?_⟩
  have hopen : d'.bus.Open ↔ d.bus.Open := by
    rw [RecordingBus.Open, h.failing, RecordingBus.Open]
  have hlasting := k.lasting
  rw [k.count, h.count]
  by_cases ho : d.bus.Open
  · by_cases hd : d.store.phase? j = some .completed
    · simp [hd, h.lasting hd]
    · by_cases hd' : d'.store.phase? j = some .completed
      · simp [hopen, ho, hd, hd', k.lasting hd']
      · simp [hopen, ho, hd, hd']
  · simp [hopen, ho]

/-- The number of messages about a job hangs on its phase only. -/
theorem completions_eq (h : d.Told d' j) (k : d.Told d'' j)
    (hp : d'.store.phase? j = d''.store.phase? j) :
    d'.bus.completions j = d''.bus.completions j := by rw [h.count, k.count, hp]

end Deployment.Told

/-- Messages about completion when all handlers have ended, whatever the interleaving. -/
theorem Crew.told_worked {d : Deployment} {calls : List Call} {order : List Nat}
    (hp : d.store.pending = []) (hidle : (worked d calls order).idle = true) (j : String) :
    d.Told (worked d calls order).deployment j := by
  have ht := Tallied.worked hp calls order j
  have hup := (Pact.announcing_terms j).worked hp calls order
  have hann := hup.announced ((Announcing.fresh d).run (.fresh d hp) _)
  refine ⟨ht.failing, fun hc => ht.later.completed hc, ?_⟩
  rw [ht.count]
  by_cases hwin : ∃ win ∈ (worked d calls order).log, win.Completes j
  · have hphase := ht.won.1 hwin
    simp [hann.ended hidle hwin, hphase]
  · have hphase := fun h => hwin (ht.won.2 h)
    simp only [hann.spared hidle hwin]
    rw [ite_self, if_neg fun h => hphase h.2]

theorem Deployment.Awaits.told_inTurn {d : Deployment} {calls : List Call} (ha : d.Awaits calls)
    (j : String) : d.Told (d.inTurn calls) j :=
  ha.inTurn_induction (R := fun d d' => d.Told d' j) (fun d => .refl d j) Deployment.Told.trans
    fun ha hidle => Crew.told_worked ha.calm.pending hidle j

end PhaseKeeper
