import PhaseKeeper.Proofs.Interleaving.Arrival
import PhaseKeeper.Proofs.Sequence.Alone
/-!
Which events of a job a script records, and in which order. They say all about where the job gets, if
each of them is carried through.
-/
namespace PhaseKeeper

structure Stamp where
  eventId : String
  eventType : String
deriving DecidableEq

def Errand.stamp (e : Errand) : Stamp := ⟨e.event.eventId, e.eventType⟩

/-- The accepted events for a job, as often as they come. -/
def stampsFor (calls : List Call) (j : String) : List Stamp :=
  ((errandsOf calls).filter (·.event.jobId = j)).map Errand.stamp

/-- Only faults come and go; nobody else writes jobs or phases. -/
def Command.transient : Command → Bool
  | .create .. | .interleave .. => false
  | .fail .. | .recover | .refuse .. | .heal | .deliver _ => true

def Command.call? : Command → Option Call
  | .deliver call => some call
  | _ => none

def callsOf (script : List Command) : List Call := script.filterMap Command.call?

theorem stampsFor_cons (call : Call) (calls : List Call) (j : String) :
    stampsFor (call :: calls) j = stampsFor [call] j ++ stampsFor calls j := by
  simp [stampsFor, errandsOf_cons call calls]

theorem stampsFor_single {call : Call} {e : Errand} (he : call.errand? = some e) (j : String) :
    stampsFor [call] j = if e.event.jobId = j then [e.stamp] else [] := by
  by_cases hj : e.event.jobId = j <;> simp [stampsFor, errandsOf, he, hj]

theorem stampsFor_own {call : Call} {e : Errand} (he : call.errand? = some e) {j : String}
    (hj : e.event.jobId = j) : stampsFor [call] j = [e.stamp] := by
  rw [stampsFor_single he, if_pos hj]

theorem stampsFor_none {call : Call} (h : call.errand? = none) (j : String) :
    stampsFor [call] j = [] := by
  simp [stampsFor, errandsOf, h]

namespace Deployment
variable {d d' : Deployment} {j : String} {script : List Command}

/-- The event of the job that the command has recorded, if there is one. -/
def takesNow (d : Deployment) (c : Command) (j : String) : List Stamp :=
  match c with
  | .deliver call => if (d.deliver call).1.taken then stampsFor [call] j else []
  | _ => []

/-- The events of the job that the script has recorded, in this order. -/
def takes : Deployment → List Command → String → List Stamp
  | _, [], _ => []
  | d, c :: cs, j => d.takesNow c j ++ (d.obey c).2.takes cs j

theorem takesNow_of_taken {call : Call} {e : Errand} (he : call.errand? = some e)
    (hj : e.event.jobId = j) (ht : (d.deliver call).1.taken = true) :
    d.takesNow (.deliver call) j = [e.stamp] := by
  simp [takesNow, ht, stampsFor_own he hj]

theorem ledger_of_taken (hs : d.Sound) {call : Call} {e : Errand} (he : call.errand? = some e)
    (ha : d.Accepts e) :
    (d.deliver call).2.store.ledger = d.store.ledger ++ [d.entry e] ∧
      MemoryStore.Spares e.event.jobId (d.noting call.member e).store (d.deliver call).2.store := by
  have hspares := (perform_spares (advanceJob_within e.event.eventId e.event.jobId e.eventType)
    call.member (d.noting call.member e)).1
  rw [← (handled_deliver hs call).of_accepts he ha] at hspares
  exact ⟨hspares.ledger, hspares⟩

theorem recorded_of_taken (hs : d.Sound) {call : Call} {e : Errand} (he : call.errand? = some e)
    (ha : d.Accepts e) (id : String) : (d.deliver call).2.store.recorded id =
      (d.store.recorded id || decide (id = e.event.eventId)) := by
  rw [MemoryStore.recorded, (ledger_of_taken hs he ha).1, List.any_append]
  simp [MemoryStore.recorded, entry, eq_comm]

theorem view_of_taken (hs : d.Sound) {call : Call} {e : Errand} (he : call.errand? = some e)
    (ha : d.Accepts e) (j : String) : (d.deliver call).2.store.hasEvent j =
      Step.seeing (d.store.hasEvent j) ((stampsFor [call] j).map Stamp.eventType) := by
  funext t
  rw [MemoryStore.hasEvent, (ledger_of_taken hs he ha).1, stampsFor_single he, List.any_append]
  by_cases hj : e.event.jobId = j
  · simp [Step.seeing, MemoryStore.hasEvent, entry, Errand.stamp, hj, eq_comm]
  · simp [Step.seeing, MemoryStore.hasEvent, entry, hj]

/-- All that a command can do to a job. -/
inductive Touched (d : Deployment) (j : String) (c : Command) : Prop
  | spared (htakes : d.takesNow c j = []) (hjob : (d.obey c).2.store.job? j = d.store.job? j)
      (hview : (d.obey c).2.store.hasEvent j = d.store.hasEvent j)
      (hnew : ∀ id, (d.obey c).2.store.recorded id = d.store.recorded id ∨
        ∃ call e, c = .deliver call ∧ call.errand? = some e ∧ e.event.jobId ≠ j ∧
          e.event.eventId = id)
  | taken {call : Call} {e : Errand} (hc : c = .deliver call) (he : call.errand? = some e)
      (hj : e.event.jobId = j) (ha : d.Accepts e) (ht : (d.deliver call).1.taken = true)

theorem touched (hs : d.Sound) {c : Command} (ht : c.transient = true) (j : String) :
    d.Touched j c := by
  cases c with
  | create | interleave => cases ht
  | fail | recover | refuse | heal => exact .spared rfl rfl rfl fun _ => .inl rfl
  | deliver call =>
    have hh := handled_deliver hs call
    cases htaken : (d.deliver call).1.taken with
    | false =>
      have hstore : (d.obey (.deliver call)).2.store = d.store := (hh.untaken htaken).1
      refine .spared ?_ (by rw [hstore]) (by rw [hstore]) fun _ => .inl (by rw [hstore])
      simp [takesNow, htaken]
    | true =>
      obtain ⟨e, he, ha⟩ := hh.taken_iff.1 htaken
      by_cases hj : e.event.jobId = j
      · exact .taken rfl he hj ha htaken
      · have hnone : stampsFor [call] j = [] := by rw [stampsFor_single he, if_neg hj]
        have hrow := (ledger_of_taken hs he ha).2.other (Ne.symm hj)
        refine .spared ?_ ?_ ?_ fun id => ?_
        · simp [takesNow, hnone]
        · exact congrArg (Option.map JobRow.job) hrow
        · have hview := view_of_taken hs he ha j
          rw [hnone] at hview
          exact hview.trans Step.seeing_nil
        · by_cases hid : e.event.eventId = id
          · exact .inr ⟨call, e, rfl, he, hj, hid⟩
          · have hrec := recorded_of_taken hs he ha id
            rw [decide_eq_false (Ne.symm hid), Bool.or_false] at hrec
            exact .inl hrec

theorem pending_obey (hs : d.Sound) {c : Command} (ht : c.transient = true)
    (hp : d.store.pending = []) : (d.obey c).2.store.pending = [] := by
  cases c with
  | create | interleave => cases ht
  | fail | recover | refuse | heal => exact hp
  | deliver call =>
    have hh := handled_deliver hs call
    cases htaken : (d.deliver call).1.taken with
    | false =>
      have hstore : (d.obey (.deliver call)).2.store = d.store := (hh.untaken htaken).1
      rw [hstore, hp]
    | true =>
      obtain ⟨e, he, ha⟩ := hh.taken_iff.1 htaken
      exact (ledger_of_taken hs he ha).2.pending hp

/-- The job was brought on by recorded events of the given types, one after the other. -/
structure Reached (d : Deployment) (job : Job) (types : List String) (d' : Deployment) : Prop where
  pending : d'.store.pending = []
  view : d'.store.hasEvent job.id = Step.seeing (d.store.hasEvent job.id) types
  job : ∃ job', d'.store.job? job.id = some job' ∧ job'.assets = job.assets ∧
    job'.phase = Step.landings job.assets (d.store.hasEvent job.id) job.phase types

theorem Reached.of_eq {job : Job} (hp : d'.store.pending = [])
    (hv : d'.store.hasEvent job.id = d.store.hasEvent job.id)
    (hj : d'.store.job? job.id = some job) : d.Reached job [] d' :=
  ⟨hp, hv.trans Step.seeing_nil.symm, job, hj, rfl, rfl⟩

theorem Reached.trans {d'' : Deployment} {job : Job} {ts us : List String} (h : d.Reached job ts d')
    (k : ∀ job', d'.store.job? job.id = some job' → d'.Reached job' us d'') :
    d.Reached job (ts ++ us) d'' := by
  obtain ⟨job', hj', ha', hphase'⟩ := h.job
  have hid := MemoryStore.job_id hj'
  have hrest := k job' hj'
  obtain ⟨job'', hj'', ha'', hphase''⟩ := hrest.job
  have hview := hrest.view
  rw [hid] at hj'' hview hphase''
  rw [h.view] at hview hphase''
  refine ⟨hrest.pending, hview.trans Step.seeing_append, job'', hj'', ha''.trans ha', ?_⟩
  rw [hphase'', ha', hphase', Step.landings_append]

/-- In the course of the script an event of the job is recorded, after the commands `pre`. -/
structure Records (d : Deployment) (script : List Command) (j : String) (pre : List Command)
    (call : Call) (e : Errand) : Prop where
  split : ∃ post, script = pre ++ .deliver call :: post
  errand : call.errand? = some e
  job : e.event.jobId = j
  taken : ((d.follow pre).deliver call).1.taken = true

theorem Records.cons {c : Command} {pre : List Command} {call : Call} {e : Errand}
    (h : (d.obey c).2.Records script j pre call e) : d.Records (c :: script) j (c :: pre) call e := by
  obtain ⟨⟨post, hpost⟩, he, hj, ht⟩ := h
  exact ⟨⟨post, by rw [hpost]; rfl⟩, he, hj, ht⟩

theorem Records.uncons {c : Command} {pre : List Command} {call : Call} {e : Errand}
    (h : d.Records (c :: script) j pre call e) :
    (pre = [] ∧ c = .deliver call ∧ d.takesNow c j = [e.stamp]) ∨
      ∃ pre', pre = c :: pre' ∧ (d.obey c).2.Records script j pre' call e := by
  obtain ⟨⟨post, hpost⟩, he, hj, ht⟩ := h
  cases pre with
  | nil =>
    cases hpost
    exact .inl ⟨rfl, rfl, takesNow_of_taken he hj ht⟩
  | cons c' pre =>
    cases hpost
    exact .inr ⟨pre, rfl, ⟨post, rfl⟩, he, hj, ht⟩

theorem not_records_nil {pre : List Command} {call : Call} {e : Errand} :
    ¬ d.Records [] j pre call e := by
  intro h
  obtain ⟨post, hpost⟩ := h.split
  simp at hpost

/-- Each event of the job that the script records brings it as far as it would if faults were cleared
before. -/
def Carries (d : Deployment) (script : List Command) (j : String) : Prop :=
  ∀ pre call e, d.Records script j pre call e →
    ((d.follow pre).deliver call).2.store.phase? j =
      ((d.follow (pre ++ [.recover])).deliver call).2.store.phase? j

theorem Carries.tail {c : Command} (h : d.Carries (c :: script) j) :
    (d.obey c).2.Carries script j := fun _ _ _ hr => h _ _ _ hr.cons

theorem carries_nil : d.Carries [] j := fun _ _ _ hr => absurd hr not_records_nil

theorem recover_of_calm (h : d.store.faults = []) : (d.obey .recover).2 = d := by
  have hstore : d.store.recover = d.store := by rw [MemoryStore.recover, ← h]
  rw [obey, onStore, hstore]

theorem Carries.cons {c : Command} (hnow : d.takesNow c j ≠ [] → d.store.faults = [])
    (hrest : (d.obey c).2.Carries script j) : d.Carries (c :: script) j := by
  intro pre call e hr
  cases hr.uncons with
  | inl hhead =>
    obtain ⟨rfl, -, htakes⟩ := hhead
    have hfollow : d.follow [.recover] = d := recover_of_calm (hnow (by simp [htakes]))
    rw [List.nil_append, hfollow]
    rfl
  | inr hlater =>
    obtain ⟨pre', rfl, hr'⟩ := hlater
    exact hrest _ _ _ hr'

theorem readable_of_calm (h : d.store.faults = []) : d.Readable j := by
  rw [Readable, MemoryStore.fails, h]
  rfl

theorem lands_deliver {job : Job} (hs : d.Sound) (hr : d.Readable job.id)
    (hp : d.store.pending = []) (hj : d.store.job? job.id = some job) {call : Call} {e : Errand}
    (he : call.errand? = some e) (hje : e.event.jobId = job.id) (ha : d.Accepts e) :
    (d.store.faults ≠ [] ∧ ∃ cause, (d.deliver call).1 = .failed (.store cause)) ∨
      (d.deliver call).2.store.phase? job.id = some (Step.landing job.assets
        (Step.seeing (d.store.hasEvent job.id) [e.eventType]) e.eventType job.phase) := by
  have hdeliver := (handled_deliver hs call).of_accepts he ha
  have hview := view_of_taken hs he ha job.id
  have hnoted : (d.noting call.member e).store.hasEvent job.id =
      (d.deliver call).2.store.hasEvent job.id := by
    funext t
    rw [MemoryStore.hasEvent, MemoryStore.hasEvent, (ledger_of_taken hs he ha).2.ledger]
  have hread : (d.noting call.member e).Readable job.id := hr
  have hjob : (d.noting call.member e).store.job? job.id = some job := hj
  rw [hje] at hdeliver
  have hlands := lands_advanceJob hread hp hjob call.member e.event.eventId e.eventType
  rw [← hdeliver, Lands, hnoted, hview, stampsFor_own he hje] at hlands
  apply hlands.imp_right
  intro h
  obtain ⟨job', hj', -, hphase⟩ := h
  rw [MemoryStore.phase_of_job hj', hphase]
  rfl

theorem lands_recovered {job : Job} (hs : d.Sound) (hp : d.store.pending = [])
    (hj : d.store.job? job.id = some job) {call : Call} {e : Errand} (he : call.errand? = some e)
    (hje : e.event.jobId = job.id) (ha : d.Accepts e) :
    ((d.obey .recover).2.deliver call).2.store.phase? job.id = some (Step.landing job.assets
      (Step.seeing (d.store.hasEvent job.id) [e.eventType]) e.eventType job.phase) := by
  have ha' : (d.obey .recover).2.Accepts e := ⟨rfl, ha.job, ha.new⟩
  have hlands := lands_deliver (hs.obey .recover) (readable_of_calm rfl) hp hj he hje ha'
  exact hlands.resolve_left fun h => h.1 rfl

theorem reached_obey {job : Job} (hs : d.Sound) (hp : d.store.pending = [])
    (hj : d.store.job? job.id = some job) {c : Command} (ht : c.transient = true)
    (hc : d.Carries (c :: script) job.id) :
    d.Reached job ((d.takesNow c job.id).map Stamp.eventType) (d.obey c).2 := by
  have hpending := pending_obey hs ht hp
  cases touched hs ht job.id with
  | spared htakes hjob hview =>
    rw [htakes]
    exact .of_eq hpending hview (hjob.trans hj)
  | @taken call e hcall he hje ha htaken =>
    subst hcall
    have hrecords : d.Records (.deliver call :: script) job.id [] call e :=
      ⟨⟨script, rfl⟩, he, hje, htaken⟩
    have hview := view_of_taken hs he ha job.id
    rw [stampsFor_own he hje] at hview
    have hassets : ((d.deliver call).2.store.job? e.event.jobId).map Job.assets =
        (d.store.job? e.event.jobId).map Job.assets := (ledger_of_taken hs he ha).2.assets
    rw [hje] at hassets
    have hcarried : (d.deliver call).2.store.phase? job.id =
        ((d.obey .recover).2.deliver call).2.store.phase? job.id := hc _ _ _ hrecords
    rw [lands_recovered hs hp hj he hje ha] at hcarried
    obtain ⟨job', hj', hphase⟩ := MemoryStore.phase_eq_some hcarried
    rw [hj', hj] at hassets
    rw [takesNow_of_taken he hje htaken]
    exact ⟨hpending, hview, job', hj', Option.some.inj hassets, hphase⟩

theorem reached_follow {job : Job} (hs : d.Sound) (hp : d.store.pending = [])
    (hj : d.store.job? job.id = some job) (ht : ∀ c ∈ script, c.transient = true)
    (hc : d.Carries script job.id) :
    d.Reached job ((d.takes script job.id).map Stamp.eventType) (d.follow script) := by
  induction script generalizing d job with
  | nil => exact .of_eq hp rfl hj
  | cons c cs ih =>
    have htc := ht c List.mem_cons_self
    rw [takes, List.map_append]
    apply (reached_obey hs hp hj htc hc).trans
    intro job' hj'
    have hid := MemoryStore.job_id hj'
    rw [← hid] at hj' ⊢
    exact ih (hs.obey c) (pending_obey hs htc hp) hj'
      (fun c' hc' => ht c' (List.mem_cons_of_mem c hc')) (hid ▸ hc.tail)

theorem pending_follow (hs : d.Sound) (hp : d.store.pending = [])
    (ht : ∀ c ∈ script, c.transient = true) : (d.follow script).store.pending = [] := by
  induction script generalizing d with
  | nil => exact hp
  | cons c cs ih =>
    have htc := ht c List.mem_cons_self
    exact ih (hs.obey c) (pending_obey hs htc hp) fun c' hc' => ht c' (List.mem_cons_of_mem c hc')

/-- It is enough that the ledger can be read, and that no handling ends in a failure of the store. -/
theorem carries_of_works (hs : d.Sound) (hp : d.store.pending = [])
    (ht : ∀ c ∈ script, c.transient = true)
    (hreads : ∀ {pre call e}, d.Records script j pre call e → (d.follow pre).Readable j)
    (hworks : ∀ {pre call e}, d.Records script j pre call e →
      ∀ cause, ((d.follow pre).deliver call).1 ≠ .failed (.store cause)) : d.Carries script j := by
  intro pre call e hr
  obtain ⟨⟨post, hpost⟩, he, hje, htaken⟩ := hr
  have hs' := hs.follow pre
  have hp' := pending_follow hs hp fun c hc => ht c (hpost ▸ List.mem_append_left _ hc)
  obtain ⟨e', he', ha⟩ := (handled_deliver hs' call).taken_iff.1 htaken
  cases he.symm.trans he'
  obtain ⟨job, hj⟩ := ha.job
  have hid : e.event.jobId = job.id := (MemoryStore.job_id hj).symm
  rw [hid] at hj
  obtain rfl : job.id = j := hid.symm.trans hje
  have hlands := lands_deliver hs' (hreads ⟨⟨post, hpost⟩, he, hje, htaken⟩) hp' hj he hje ha
  rw [follow_append]
  change _ = (((d.follow pre).obey .recover).2.deliver call).2.store.phase? job.id
  rw [lands_recovered hs' hp' hj he hje ha]
  apply hlands.resolve_left
  intro hfail
  obtain ⟨-, cause, hcause⟩ := hfail
  exact hworks ⟨⟨post, hpost⟩, he, hje, htaken⟩ cause hcause

end Deployment

/-- The events that are not known yet, each when it comes for the first time. -/
def unheard : (String → Bool) → List Stamp → List Stamp
  | _, [] => []
  | known, x :: xs =>
    if known x.eventId then unheard known xs
    else x :: unheard (Step.seeing known [x.eventId]) xs

section Unheard
variable {known known' : String → Bool} {xs ys : List Stamp} {x : Stamp}

theorem unheard_congr (h : ∀ x ∈ xs, known' x.eventId = known x.eventId) :
    unheard known' xs = unheard known xs := by
  induction xs generalizing known known' with
  | nil => rfl
  | cons x xs ih =>
    have hrest (y : Stamp) (hy : y ∈ xs) : known' y.eventId = known y.eventId :=
      h y (List.mem_cons_of_mem x hy)
    rw [unheard, unheard, h x List.mem_cons_self, ih hrest]
    congr 2
    apply ih
    intro y hy
    simp [Step.seeing, hrest y hy]

theorem unheard_insert (hx : known x.eventId = false)
    (hsame : ∀ y ∈ xs, y.eventId = x.eventId → y = x) :
    ∃ a b, unheard known (xs ++ x :: ys) = a ++ x :: b ∧
      unheard (Step.seeing known [x.eventId]) (xs ++ x :: ys) = a ++ b ∧
      ∀ y ∈ a, y ∈ xs ∧ known y.eventId = false := by
  have hknown : Step.seeing known [x.eventId] x.eventId = true := by simp [Step.seeing]
  -- By induction on what comes before; it may hold the event itself, which is then heard of there.
  induction xs generalizing known with
  | nil =>
    refine ⟨[], unheard (Step.seeing known [x.eventId]) ys, ?_, ?_, by simp⟩
    · simp [unheard, hx]
    · simp [unheard, hknown]
  | cons y xs ih =>
    have hrest (z : Stamp) (hz : z ∈ xs) := hsame z (List.mem_cons_of_mem y hz)
    cases hy : known y.eventId with
    | true =>
      have hy' : Step.seeing known [x.eventId] y.eventId = true := Step.seeing_iff.2 (.inl hy)
      obtain ⟨a, b, hold, hnew, ha⟩ := ih hx hrest hknown
      refine ⟨a, b, ?_, ?_, fun z hz => ⟨List.mem_cons_of_mem y (ha z hz).1, (ha z hz).2⟩⟩
      · simpa [unheard, hy] using hold
      · simpa [unheard, hy'] using hnew
    | false =>
      by_cases hid : y.eventId = x.eventId
      · obtain rfl := hsame y List.mem_cons_self hid
        refine ⟨[], unheard (Step.seeing known [y.eventId]) (xs ++ y :: ys), ?_, ?_, by simp⟩
        · simp [unheard, hx]
        · simp [unheard, hknown]
      · have hx' : Step.seeing known [y.eventId] x.eventId = false := by
          rw [Step.seeing_of_ne (Ne.symm hid), hx]
        have hy' : Step.seeing known [x.eventId] y.eventId = false := by
          rw [Step.seeing_of_ne hid, hy]
        obtain ⟨a, b, hold, hnew, ha⟩ := ih hx' hrest (by simp [Step.seeing])
        refine ⟨y :: a, b, ?_, ?_, ?_⟩
        · simpa [unheard, hy] using hold
        · rw [Step.seeing_comm] at hnew
          simpa [unheard, hy'] using hnew
        · intro z hz
          cases List.mem_cons.1 hz with
          | inl he =>
            subst he
            exact ⟨List.mem_cons_self, hy⟩
          | inr hz =>
            refine ⟨List.mem_cons_of_mem y (ha z hz).1, Bool.eq_false_iff.2 fun hk => ?_⟩
            exact Bool.eq_false_iff.1 (ha z hz).2 (Step.seeing_iff.2 (.inl hk))

end Unheard

/-- Whatever goes by the name of one of the events is that event of the job. -/
def Unmistaken (calls : List Call) (j : String) (stamps : List Stamp) : Prop :=
  ∀ e ∈ errandsOf calls, ∀ x ∈ stamps, e.event.eventId = x.eventId →
    e.event.jobId = j ∧ e.stamp = x

theorem Unmistaken.mono {calls calls' : List Call} {j : String} {stamps stamps' : List Stamp}
    (h : Unmistaken calls j stamps) (hc : calls' ⊆ calls) (hs : stamps' ⊆ stamps) :
    Unmistaken calls' j stamps' := by
  intro e he x hx
  apply h e _ x (hs hx)
  obtain ⟨call, hcall, he⟩ := List.mem_filterMap.1 he
  exact List.mem_filterMap.2 ⟨call, hc hcall, he⟩

namespace Deployment
variable {d : Deployment} {j : String}

theorem recorded_obey (hs : d.Sound) {c : Command} (ht : c.transient = true) {id : String}
    (hid : ∀ call e, c = .deliver call → call.errand? = some e → e.event.eventId = id →
      e.event.jobId = j) :
    (d.obey c).2.store.recorded id =
      Step.seeing d.store.recorded ((d.takesNow c j).map Stamp.eventId) id := by
  cases touched hs ht j with
  | spared htakes _ _ hnew =>
    rw [htakes, List.map_nil, Step.seeing_nil]
    cases hnew id with
    | inl hsame => exact hsame
    | inr hother =>
      obtain ⟨call, e, hc, he, hj, hname⟩ := hother
      exact absurd (hid call e hc he hname) hj
  | @taken call e hc he hj ha htaken =>
    subst hc
    change (d.deliver call).2.store.recorded id = _
    rw [recorded_of_taken hs he ha, takesNow_of_taken he hj htaken]
    simp [Step.seeing, Errand.stamp]

/-- What is new to a store that does not fail is taken. -/
theorem takesNow_calm (hs : d.Sound) (hf : d.store.faults = []) {job : Job}
    (hj : d.store.job? j = some job) (call : Call) :
    d.takesNow (.deliver call) j = unheard d.store.recorded (stampsFor [call] j) := by
  have hh := handled_deliver hs call
  cases he : call.errand? with
  | none => simp [takesNow, stampsFor_none he, unheard]
  | some e =>
    by_cases hje : e.event.jobId = j
    · have hstamps := stampsFor_own he hje
      have htaken : (d.deliver call).1.taken = !d.store.recorded e.event.eventId := by
        rw [Bool.eq_iff_iff, hh.taken_iff]
        constructor
        · intro hex
          obtain ⟨e', he', ha⟩ := hex
          cases he.symm.trans he'
          rw [ha.new]
          rfl
        · intro hnew
          have hworks : d.store.fails .insertEvent e.event.jobId = false := by
            simp [MemoryStore.fails, hf]
          exact ⟨e, he, hworks, ⟨job, hje ▸ hj⟩, by simpa using hnew⟩
      simp only [takesNow, htaken, hstamps, unheard, Errand.stamp]
      cases d.store.recorded e.event.eventId <;> rfl
    · have hstamps : stampsFor [call] j = [] := by rw [stampsFor_single he, if_neg hje]
      simp [takesNow, hstamps, unheard]

theorem unheard_append (known : String → Bool) (xs ys : List Stamp) :
    unheard known (xs ++ ys) = unheard known xs ++
      unheard (Step.seeing known ((unheard known xs).map Stamp.eventId)) ys := by
  induction xs generalizing known with
  | nil => simp [unheard, Step.seeing_nil]
  | cons x xs ih =>
    cases hx : known x.eventId with
    | true => simp [unheard, hx, ih]
    | false => simp [unheard, hx, ih, Step.seeing_append]

theorem faults_deliver (hs : d.Sound) (call : Call) :
    (d.deliver call).2.store.faults = d.store.faults := by
  have hh := handled_deliver hs call
  cases htaken : (d.deliver call).1.taken with
  | false => rw [(hh.untaken htaken).1]
  | true =>
    obtain ⟨e, he, ha⟩ := hh.taken_iff.1 htaken
    exact (ledger_of_taken hs he ha).2.faults

theorem carries_deliveries (hs : d.Sound) (hf : d.store.faults = []) (calls : List Call)
    (j : String) : d.Carries (calls.map .deliver) j := by
  induction calls generalizing d with
  | nil => exact carries_nil
  | cons call calls ih =>
    have hrest := ih (hs.obey (.deliver call)) ((faults_deliver hs call).trans hf)
    exact .cons (fun _ => hf) hrest

/-- A store that does not fail takes in whatever it has not heard of. -/
theorem takes_deliveries {calls : List Call} {job : Job} (hs : d.Sound) (hc : d.store.Calm)
    (hj : d.store.job? job.id = some job)
    (hu : Unmistaken calls job.id (stampsFor calls job.id)) :
    d.takes (calls.map .deliver) job.id =
      unheard d.store.recorded (stampsFor calls job.id) := by
  induction calls generalizing d job with
  | nil => rfl
  | cons call calls ih =>
    have hsplit := stampsFor_cons call calls job.id
    have hcarries := carries_deliveries hs hc.faults (call :: calls) job.id
    have hreached := reached_obey hs hc.pending hj rfl hcarries
    obtain ⟨job', hj', -, -⟩ := hreached.job
    have hid := MemoryStore.job_id hj'
    have hcalm : (d.deliver call).2.store.Calm :=
      ⟨(faults_deliver hs call).trans hc.faults, hreached.pending⟩
    have hu' : Unmistaken calls job'.id (stampsFor calls job'.id) := by
      rw [hid]
      apply hu.mono (List.subset_cons_self call calls)
      rw [hsplit]
      exact List.subset_append_right _ _
    have hrest := ih (hs.obey (.deliver call)) hcalm (hid ▸ hj') hu'
    rw [hid] at hrest
    rw [List.map_cons, takes, hsplit, unheard_append, hrest, ← takesNow_calm hs hc.faults hj call]
    congr 1
    apply unheard_congr
    intro x hx
    apply recorded_obey hs rfl
    intro call' e hcall he hname
    cases hcall
    have hmem : e ∈ errandsOf (call :: calls) :=
      List.mem_filterMap.2 ⟨call, List.mem_cons_self, he⟩
    exact (hu e hmem x (hsplit ▸ List.mem_append_right _ hx) hname).1

end Deployment
end PhaseKeeper
