import PhaseKeeper.Proofs.Interleaving.Tally
import PhaseKeeper.Proofs.Sequence.Capacity
import PhaseKeeper.Proofs.Sequence.Intake
import PhaseKeeper.Proofs.Store.Extract
/-!
Jobs do not get into each other's way. All of them share the ledger, the bus, and what the engines have
seen lately; but whatever has to do with other jobs only can be left out, and one job does not notice.
-/
namespace PhaseKeeper

/-- Whether a command has to do with the job. What names no job has to do with all of them. -/
def Command.concerns (j : String) : Command → Bool
  | .create k .. | .interleave k _ | .fail _ (some k) => k = j
  | .deliver call => call.errand?.any (·.event.jobId = j)
  | .fail _ none | .recover | .refuse .. | .heal => true

/-- The given identifiers are those of the events of the job. -/
def Command.Marked (j : String) (ids : List String) (c : Command) : Prop :=
  ∀ call e, c.call? = some call → call.errand? = some e →
    (e.event.eventId ∈ ids ↔ e.event.jobId = j)

theorem Outcome.Blurs.failed_of_row {s : MemoryStore} {e : Errand} {o o' : Outcome}
    (h : Blurs s e o o') (hrow : (s.row? e.event.jobId).isSome) :
    o = .duplicate ∧ ∃ cause, o' = .storageFailed cause ∧
      s.fails .insertEvent e.event.jobId = true := by
  cases h with
  | failed cause hf => exact ⟨rfl, cause, rfl, hf⟩
  | homeless hj =>
    have hnone : s.row? e.event.jobId = none := Option.map_eq_none_iff.1 hj
    rw [hnone] at hrow
    cases hrow

/-- The message asks for the job to be matched, or tells that it is complete. -/
def Message.About (m : Message) (j : String) : Prop :=
  ∃ draft now, (Request.publish draft).Notifies j ∧ m = draft.stamp .nil now

structure Visit where
  call : Call
  before : Deployment
  outcome : Outcome
  sent : List Message

/-- The same was delivered, with the same outcome and the same messages. But one side may know that the
event is recorded while the other does not get to see it, because recording fails. -/
structure Visit.Same (v v' : Visit) : Prop where
  call : v.call = v'.call
  sent : v.sent.map Message.untimed = v'.sent.map Message.untimed
  outcome : v.outcome = v'.outcome ∨ ∃ e cause, v.call.errand? = some e ∧
    v.before.store.recorded e.event.eventId = true ∧
    v.before.store.fails .insertEvent e.event.jobId = true ∧
    (v.outcome = .duplicate ∧ v'.outcome = .storageFailed cause ∨
      v.outcome = .storageFailed cause ∧ v'.outcome = .duplicate)

theorem MemoryStore.Spares.row_isSome {j : String} {s s' : MemoryStore} (h : Spares j s s')
    (k : String) : (s'.row? k).isSome = (s.row? k).isSome := by
  by_cases hk : k = j
  · subst hk
    have hassets := congrArg Option.isSome h.assets
    simpa [job?] using hassets
  · rw [h.other hk]

/-- Without its job, an event is not found to be recorded. -/
theorem MemoryStore.insert_homeless {s : MemoryStore} {e : LedgerEntry}
    (h : s.row? e.jobId = none) (now : Instant) :
    ∃ cause, (∀ id, cause ≠ .alreadyRecorded id) ∧
      s.answer now (.insertEvent e) = (.error cause, s) := by
  by_cases hf : s.fails .insertEvent e.jobId = true
  · exact ⟨.unavailable _, fun _ => nofun, if_pos hf⟩
  · have hanswer : s.answer now (.insertEvent e) = s.insertEntry e := if_neg hf
    have hrow : (s.row? e.jobId).isNone = true := by rw [h]; rfl
    exact ⟨.jobNotFound e.jobId, fun _ => nofun, hanswer.trans (if_pos hrow)⟩

namespace Deployment
variable {d d' : Deployment} {j : String} {ids : List String} {n n' : Nat} {member : Nat}

def visit (d : Deployment) (call : Call) : Visit where
  call := call
  before := d
  outcome := (d.deliver call).1
  sent := (d.deliver call).2.bus.published.drop d.bus.published.length

def visitNow (j : String) (d : Deployment) (c : Command) : List Visit :=
  match c with
  | .deliver call => if c.concerns j then [d.visit call] else []
  | _ => []

def visits (j : String) : Deployment → List Command → List Visit
  | _, [] => []
  | d, c :: cs => d.visitNow j c ++ visits j (d.obey c).2 cs

theorem answer_sent {id t : String} {r : Request} (hr : r.Serves id j t) (member : Nat)
    (d : Deployment) : ∃ sent, (d.answer member r).2.bus.published = d.bus.published ++ sent ∧
      ∀ m ∈ sent, m.About j := by
  obtain h | ⟨draft, rfl, h⟩ := answer_published member r d
  · exact ⟨[], by rw [h, List.append_nil], fun m hm => nomatch hm⟩
  · have hnotifies : (Request.publish draft).Notifies j := hr.resolve_left fun h => h
    refine ⟨[draft.stamp .nil d.clock], h, fun m hm => ?_⟩
    cases List.mem_singleton.1 hm
    exact ⟨draft, d.clock, hnotifies, rfl⟩

theorem perform_sent {α : Type} {id t : String} {p : Handling α} {R : α → Prop}
    (hp : p.Within (·.Serves id j t) R) (member : Nat) (d : Deployment) :
    ∃ sent, (d.perform member p).2.bus.published = d.bus.published ++ sent ∧
      ∀ m ∈ sent, m.About j := by
  induction p generalizing d with
  | done a => exact ⟨[], (List.append_nil _).symm, fun m hm => nomatch hm⟩
  | ask r next ih =>
    obtain ⟨sent, hsent, habout⟩ := answer_sent hp.1 member d
    obtain ⟨more, hmore, habout'⟩ :=
      ih _ (hp.2 (d.answer member r).1) (d.answer member r).2
    refine ⟨sent ++ more, ?_, fun m hm => ?_⟩
    · rw [← List.append_assoc, ← hsent]
      exact hmore
    · exact (List.mem_append.1 hm).elim (habout m) (habout' m)

theorem sent_about {call : Call} {m : Message} (hm : m ∈ (d.visit call).sent) :
    ∃ e, call.errand? = some e ∧ m.About e.event.jobId := by
  unfold visit deliver at hm
  cases call.handling_cases with
  | inl h =>
    obtain ⟨-, cause, hh⟩ := h
    rw [hh] at hm
    simp [perform, Program.run] at hm
  | inr h =>
    obtain ⟨e, he, hh⟩ := h
    obtain ⟨sent, hsent, habout⟩ := perform_sent e.handling_within call.member d
    rw [hh, hsent] at hm
    exact ⟨e, he, habout m (by simpa using hm)⟩

def extract (d : Deployment) (j : String) (ids : List String) (n : Nat) : Deployment :=
  { d with
    store := d.store.extract j ids
    recent := []
    bus := { d.bus with published := d.bus.published.drop n } }

theorem store_extract {c : StoreCall} (hj : c.jobId = j)
    (hid : ∀ e, c = .insertEvent e → e.eventId ∈ ids) (n member : Nat) (d : Deployment) :
    (d.extract j ids n).answer member (.store c) =
      ((d.answer member (.store c)).1, (d.answer member (.store c)).2.extract j ids n) := by
  simp only [answer, callStore, extract, MemoryStore.answer_extract hj hid]

theorem answer_extract {r : Request} (hr : r.Moves j) (hn : n ≤ d.bus.published.length)
    (member : Nat) : (d.extract j ids n).answer member r =
      ((d.answer member r).1, (d.answer member r).2.extract j ids n) := by
  cases r with
  | store c => exact store_extract hr.store.1 (fun e he => absurd he (hr.store.2 e)) n member d
  | report => rfl
  | publish draft =>
    simp only [answer, send, RecordingBus.send, extract]
    cases d.bus.failing.lookup draft.topic with
    | some reason => rfl
    | none => simp [List.drop_append_of_le_length hn]
  | lookUp | remember | now =>
    simp [Request.Moves, Request.Reads, Request.Notifies, Request.Solicits] at hr

theorem extract_obey {c : Command} (hc : c.concerns j = true) (hcall : c.call? = none)
    (ids : List String) (n : Nat) (d : Deployment) :
    ((d.extract j ids n).obey c).2 = (d.obey c).2.extract j ids n := by
  have hstore (f : MemoryStore → MemoryStore)
      (hf : f (d.store.extract j ids) = (f d.store).extract j ids) :
      (d.extract j ids n).onStore f = (d.onStore f).extract j ids n := by
    simp only [onStore, extract, hf]
  cases c with
  | deliver => cases hcall
  | create k industry p assets =>
    obtain rfl : k = j := by simpa [Command.concerns] using hc
    let job : Job := ⟨k, industry, p, assets, d.clock⟩
    exact hstore (·.insertJob job) (MemoryStore.insertJob_extract d.store job ids)
  | interleave k p =>
    obtain rfl : k = j := by simpa [Command.concerns] using hc
    exact hstore (·.interleave k p) (MemoryStore.interleave_extract d.store k p ids)
  | fail op target =>
    have htarget : target = none ∨ target = some j := by
      cases target with
      | none => exact .inl rfl
      | some k => exact .inr (congrArg some (by simpa [Command.concerns] using hc))
    exact hstore (·.fail op target) (MemoryStore.fail_extract htarget d.store op ids)
  | recover => exact hstore (·.recover) rfl
  | refuse | heal => rfl

theorem perform_extract_other {α : Type} {id k t : String} {p : Handling α} {R : α → Prop}
    (hp : p.Within (·.Serves id k t) R) (hk : k ≠ j) (hid : id ∉ ids) (member : Nat)
    (d : Deployment) :
    (d.perform member p).2.store.extract j ids = d.store.extract j ids ∧
      (d.perform member p).2.bus.failing = d.bus.failing := by
  induction p generalizing d with
  | done a => exact ⟨rfl, rfl⟩
  | ask r next ih =>
    have hstore : (d.answer member r).2.store.extract j ids = d.store.extract j ids := by
      cases r with
      | store c =>
        have hc := hp.1.store
        apply MemoryStore.answer_extract_other (hc.1 ▸ hk)
        intro e he
        rw [hc.2 e he]
        exact hid
      | lookUp => rw [(Answered.served member (.lookUp _) d).store_eq rfl]
      | remember | now | publish | report => rfl
    have hrest := ih _ (hp.2 (d.answer member r).1) (d.answer member r).2
    exact ⟨hrest.1.trans hstore, hrest.2.trans (answer_failing member r d)⟩

/-- Two deployments are the same for the job, times aside. What was published does not count. -/
structure Faces (j : String) (ids : List String) (d d' : Deployment) : Prop where
  store : (d.store.extract j ids).untimed = (d'.store.extract j ids).untimed
  failing : d.bus.failing = d'.bus.failing

/-- Two deployments are the same for the job, and have published the same since the first `n` messages of
the one and the first `n'` of the other. -/
structure Agree (j : String) (ids : List String) (n n' : Nat) (d d' : Deployment) : Prop where
  alike : (d.extract j ids n).Alike (d'.extract j ids n')
  le : n ≤ d.bus.published.length
  le' : n' ≤ d'.bus.published.length

theorem Faces.refl (j : String) (ids : List String) (d : Deployment) : d.Faces j ids d := ⟨rfl, rfl⟩

theorem Faces.symm (h : Faces j ids d d') : Faces j ids d' d := ⟨h.store.symm, h.failing.symm⟩

theorem Faces.trans {d'' : Deployment} (h : Faces j ids d d') (k : Faces j ids d' d'') :
    Faces j ids d d'' := ⟨h.store.trans k.store, h.failing.trans k.failing⟩

theorem Agree.faces (h : Agree j ids n n' d d') : Faces j ids d d' := by
  have hfailing := congrArg RecordingBus.failing h.alike.bus
  exact ⟨h.alike.store, hfailing⟩

theorem Faces.agree (h : Faces j ids d d') :
    Agree j ids d.bus.published.length d'.bus.published.length d d' := by
  refine ⟨⟨h.store, ?_⟩, Nat.le_refl _, Nat.le_refl _⟩
  simp only [extract, RecordingBus.untimed, List.drop_length, h.failing]

theorem Agree.likeness {e : Errand} (hj : e.event.jobId = j) (hid : e.event.eventId ∈ ids) :
    Likeness (Agree j ids n n') e where
  congr := by
    intro d d' c c' h hs hb hs' hb'
    have hc : (d.extract j ids n).Alike (c.extract j ids n) := by
      apply Alike.of_eq <;> simp only [extract, hs, hb]
    have hc' : (d'.extract j ids n').Alike (c'.extract j ids n') := by
      apply Alike.of_eq <;> simp only [extract, hs', hb']
    exact ⟨hc.symm.trans (h.alike.trans hc'), hb ▸ h.le, hb' ▸ h.le'⟩
  recorded := by
    intro d d' h
    have hr := (Alike.likeness e).recorded h.alike
    simpa only [extract, MemoryStore.recorded_extract _ _ hid] using hr
  insert := by
    intro d d' h member now now'
    have hx := (Alike.likeness e).insert h.alike member now now'
    have hentry (now : Instant) (n : Nat) (d : Deployment) :
        (d.extract j ids n).answer member (.store (.insertEvent (e.entryAt now))) =
          ((d.answer member (.store (.insertEvent (e.entryAt now)))).1,
            (d.answer member (.store (.insertEvent (e.entryAt now)))).2.extract j ids n) := by
      have hjob : (StoreCall.insertEvent (e.entryAt now)).jobId = j := hj
      refine store_extract hjob (fun e' he => ?_) n member d
      cases he
      exact hid
    rw [hentry, hentry] at hx
    exact ⟨hx.1, hx.2, h.le, h.le'⟩
  move := by
    intro d d' r h hr member
    subst hj
    have hx := h.alike.answer hr member
    rw [answer_extract hr h.le, answer_extract hr h.le'] at hx
    have hserves : r.Serves e.event.eventId e.event.jobId e.eventType := hr.serves
    have hgrows {n : Nat} {d : Deployment} (hn : n ≤ d.bus.published.length) :
        n ≤ (d.answer member r).2.bus.published.length := by
      obtain ⟨sent, hsent, -⟩ := answer_sent hserves member d
      rw [hsent, List.length_append]
      omega
    exact ⟨hx.1, hx.2, hgrows h.le, hgrows h.le'⟩

/-- If an engine knows one of the identifiers, the job is there. -/
def Housed (j : String) (ids : List String) (d : Deployment) : Prop :=
  ∀ id ∈ ids, d.Caches id → (d.store.row? j).isSome

theorem answer_row_isSome (member : Nat) (r : Request) (d : Deployment) (j : String) :
    ((d.answer member r).2.store.row? j).isSome = (d.store.row? j).isSome := by
  cases r with
  | store c =>
    change ((d.store.answer d.clock c).2.row? j).isSome = _
    cases c with
    | insertEvent e =>
      have hinserted := MemoryStore.inserted_answer d.store e d.clock
      generalize (d.store.answer d.clock (.insertEvent e)).1 = x,
        (d.store.answer d.clock (.insertEvent e)).2 = s at hinserted
      cases hinserted with
      | known | homeless | failed => rfl
      | done h =>
        rw [h.eq]
        rfl
    | _ => exact (MemoryStore.Spares.answer (by simp) d.clock d.store).row_isSome j
  | lookUp => rw [(Answered.served member (.lookUp _) d).store_eq rfl]
  | remember | now | publish | report => rfl

theorem perform_keeps {α : Type} {id i k t : String} {p : Handling α} {R : α → Prop}
    (hp : p.Within (·.Serves id k t) R) (member : Nat) (d : Deployment) :
    ((d.perform member p).2.store.row? j).isSome = (d.store.row? j).isSome ∧
      ((d.perform member p).2.Caches i → d.Caches i ∨ i = id) := by
  induction p generalizing d with
  | done a => exact ⟨rfl, .inl⟩
  | ask r next ih =>
    have hrest := ih _ (hp.2 (d.answer member r).1) (d.answer member r).2
    refine ⟨hrest.1.trans (answer_row_isSome member r d j), fun hc => ?_⟩
    cases hrest.2 hc with
    | inr heq => exact .inr heq
    | inl hc =>
      cases (Answered.served member r d).caches hc with
      | inl hold => exact .inl hold
      | inr hr =>
        subst hr
        exact .inr hp.1

/-- An event of a job that is not there is not kept in mind. -/
theorem caches_of_homeless {call : Call} {e : Errand} (he : call.errand? = some e)
    (hrow : d.store.row? e.event.jobId = none) {i : String} (hc : (d.deliver call).2.Caches i) :
    d.Caches i := by
  cases d.deliver_cases he with
  | inl hhit =>
    rw [hhit.2] at hc
    exact ((Answered.served call.member (.lookUp _) d).caches hc).resolve_right fun h => nomatch h
  | inr hmiss =>
    have hinsert : ∃ cause, d.tick.perform call.member (insertNew (d.entry e)) =
        (.failed cause, d.tick) := by
      obtain ⟨cause, hcause, hanswer⟩ :=
        MemoryStore.insert_homeless (e := d.entry e) hrow d.tick.clock
      have hans : d.tick.answer call.member (.store (.insertEvent (d.entry e))) =
          (.error cause, d.tick) := answer_store hanswer call.member
      unfold insertNew askStore
      rw [perform_ask, hans]
      cases cause with
      | alreadyRecorded id => exact absurd rfl (hcause id)
      | _ => exact ⟨_, rfl⟩
    obtain ⟨cause, hinsert⟩ := hinsert
    rw [hmiss, perform_bind, hinsert] at hc
    cases cause <;> exact hc

theorem Housed.obey {c : Command} (h : d.Housed j ids) (hm : c.Marked j ids) :
    (d.obey c).2.Housed j ids := by
  intro id hid hc
  cases c with
  | create k industry p assets =>
    let job : Job := ⟨k, industry, p, assets, d.clock⟩
    change ((d.store.insertJob job).row? j).isSome
    rw [MemoryStore.row_insertJob]
    split
    · rfl
    · exact h id hid hc
  | fail | recover | interleave | refuse | heal => exact h id hid hc
  | deliver call =>
    change (d.deliver call).2.Caches id at hc
    change ((d.deliver call).2.store.row? j).isSome
    cases call.handling_cases with
    | inl hnone =>
      obtain ⟨-, cause, hh⟩ := hnone
      rw [deliver, hh] at hc ⊢
      exact h id hid hc
    | inr hsome =>
      obtain ⟨e, he, hh⟩ := hsome
      have hkeeps := perform_keeps (j := j) (i := id) e.handling_within call.member d
      rw [← hh] at hkeeps
      rw [deliver, hkeeps.1]
      cases hkeeps.2 hc with
      | inl hold => exact h id hid hold
      | inr heq =>
        subst heq
        have hj : e.event.jobId = j := (hm call e rfl he).1 hid
        subst hj
        -- without its job the event would not have been recorded, so it is no new one in the cache
        by_contra hrow
        have hrow' : d.store.row? e.event.jobId = none := by simpa using hrow
        exact hrow (h _ hid (caches_of_homeless he hrow' hc))

theorem faces_obey_other {c : Command} (hc : c.concerns j = false) (hm : c.Marked j ids)
    (d : Deployment) : Faces j ids (d.obey c).2 d := by
  have hstore {s : MemoryStore} (hs : s.extract j ids = d.store.extract j ids) :
      Faces j ids (d.onStore fun _ => s) d := ⟨congrArg MemoryStore.untimed hs, rfl⟩
  cases c with
  | create k industry p assets =>
    have hk : (⟨k, industry, p, assets, d.clock⟩ : Job).id ≠ j := by simpa [Command.concerns] using hc
    exact hstore (MemoryStore.insertJob_extract_other hk d.store ids)
  | fail op target =>
    cases target with
    | none => cases hc
    | some k =>
      have hk : k ≠ j := by simpa [Command.concerns] using hc
      exact hstore (MemoryStore.fail_extract_other hk d.store op ids)
  | interleave k p =>
    have hk : k ≠ j := by simpa [Command.concerns] using hc
    exact hstore (MemoryStore.interleave_extract_other hk d.store p ids)
  | recover | refuse | heal => cases hc
  | deliver call =>
    change Faces j ids (d.deliver call).2 d
    cases call.handling_cases with
    | inl hnone =>
      obtain ⟨-, cause, hh⟩ := hnone
      rw [deliver, hh]
      exact .refl j ids d
    | inr hsome =>
      obtain ⟨e, he, hh⟩ := hsome
      have hk : e.event.jobId ≠ j := by simpa [Command.concerns, he] using hc
      have hid : e.event.eventId ∉ ids := fun hid => hk ((hm call e rfl he).1 hid)
      have hother := perform_extract_other e.handling_within hk hid call.member d
      rw [deliver, hh]
      exact ⟨congrArg MemoryStore.untimed hother.1, hother.2⟩

theorem Faces.row (h : Faces j ids d d') :
    (d.store.row? j).map JobRow.untimed = (d'.store.row? j).map JobRow.untimed := by
  have hrow := congrArg (MemoryStore.row? · j) h.store
  simpa only [MemoryStore.row_untimed, MemoryStore.row_extract] using hrow

theorem Faces.fails (h : Faces j ids d d') (op : StoreOp) :
    d.store.fails op j = d'.store.fails op j := by
  rw [← MemoryStore.fails_extract d.store op j ids, ← MemoryStore.fails_extract d'.store op j ids,
    MemoryStore.fails, (MemoryStore.untimed_eq_iff.1 h.store).2.2.1, MemoryStore.fails]

theorem Faces.ledger (h : Faces j ids d d') :
    (d.store.ledger.filter (·.jobId = j)).map LedgerEntry.untimed =
      (d'.store.ledger.filter (·.jobId = j)).map LedgerEntry.untimed := by
  have hown (s : MemoryStore) : (s.ledger.filter (·.jobId = j)).map LedgerEntry.untimed =
      ((s.extract j ids).ledger.map LedgerEntry.untimed).filter (·.jobId = j) := by
    have hfilter : s.ledger.filter (·.jobId = j) =
        (s.extract j ids).ledger.filter (·.jobId = j) := by
      simp only [MemoryStore.extract, List.filter_filter]
      apply List.filter_congr
      intro e _
      cases decide (e.jobId = j) <;> rfl
    rw [hfilter, List.filter_map]
    rfl
  rw [hown, hown, (MemoryStore.untimed_eq_iff.1 h.store).2.1]

theorem Faces.deliver {call : Call} {e : Errand} (h : Faces j ids d d') (hs : d.Sound)
    (hs' : d'.Sound) (hh : d.Housed j ids) (hh' : d'.Housed j ids) (he : call.errand? = some e)
    (hj : e.event.jobId = j) (hid : e.event.eventId ∈ ids) :
    Faces j ids (d.deliver call).2 (d'.deliver call).2 ∧ (d.visit call).Same (d'.visit call) := by
  have hlikeness :
      Likeness (Agree j ids d.bus.published.length d'.bus.published.length) e := Agree.likeness hj hid
  obtain ⟨hafter, hsame⟩ := hlikeness.deliver h.agree hs hs' he
  have hrow : (d.store.row? j).isSome = (d'.store.row? j).isSome := by
    simpa using congrArg Option.isSome h.row
  have hsent := congrArg RecordingBus.published hafter.alike.bus
  subst hj
  -- the outcomes differ only if one side has the event in a cache, and then its job is there
  refine ⟨hafter.faces, rfl, hsent, hsame.imp_right fun hblur => ?_⟩
  cases hblur with
  | inl hleft =>
    obtain ⟨hc, hblurs⟩ := hleft
    obtain ⟨hduplicate, cause, hfailed, hfails⟩ := hblurs.failed_of_row (hrow ▸ hh _ hid hc)
    exact ⟨e, cause, he, hs _ hc, (h.fails .insertEvent).trans hfails, .inl ⟨hduplicate, hfailed⟩⟩
  | inr hright =>
    obtain ⟨hc, hblurs⟩ := hright
    obtain ⟨hduplicate, cause, hfailed, hfails⟩ := hblurs.failed_of_row (hrow ▸ hh' _ hid hc)
    have hrecorded := (hlikeness.recorded h.agree).trans (hs' _ hc)
    exact ⟨e, cause, he, hrecorded, hfails, .inr ⟨hfailed, hduplicate⟩⟩

/-- Two deployments are the same for the job, and all that their engines know is true. -/
structure Twins (j : String) (ids : List String) (d d' : Deployment) : Prop where
  faces : d.Faces j ids d'
  sound : d.Sound
  sound' : d'.Sound
  housed : d.Housed j ids
  housed' : d'.Housed j ids

theorem visitNow_other {c : Command} (hc : c.concerns j = false) (d : Deployment) :
    d.visitNow j c = [] := by
  cases c with
  | deliver call => exact if_neg (Bool.eq_false_iff.1 hc)
  | create | fail | recover | interleave | refuse | heal => rfl

namespace Twins
variable {c : Command} {script : List Command}

theorem symm (h : Twins j ids d d') : Twins j ids d' d :=
  ⟨h.faces.symm, h.sound', h.sound, h.housed', h.housed⟩

theorem obey_other (h : Twins j ids d d') (hc : c.concerns j = false) (hm : c.Marked j ids) :
    Twins j ids (d.obey c).2 d' :=
  ⟨(faces_obey_other hc hm d).trans h.faces, h.sound.obey c, h.sound', h.housed.obey hm, h.housed'⟩

theorem obey_own (h : Twins j ids d d') (hc : c.concerns j = true) (hm : c.Marked j ids) :
    Faces j ids (d.obey c).2 (d'.obey c).2 ∧
      List.Forall₂ Visit.Same (d.visitNow j c) (d'.visitNow j c) := by
  have hplain (hcall : c.call? = none) : Faces j ids (d.obey c).2 (d'.obey c).2 := by
    have hsound (d : Deployment) (n : Nat) : (d.extract j ids n).Sound := by
      intro id hid
      obtain ⟨r, hr, -⟩ := hid
      cases hr
    have hobey := (h.faces.agree.alike.obey (hsound d _) (hsound d' _) c).2
    rw [extract_obey hc hcall, extract_obey hc hcall] at hobey
    have hfailing := congrArg RecordingBus.failing hobey.bus
    exact ⟨hobey.store, hfailing⟩
  cases c with
  | create | fail | recover | interleave | refuse | heal => exact ⟨hplain rfl, .nil⟩
  | deliver call =>
    have hvisit (d : Deployment) : d.visitNow j (.deliver call) = [d.visit call] := if_pos hc
    obtain ⟨e, he, hj⟩ : ∃ e, call.errand? = some e ∧ e.event.jobId = j := by
      simpa [Command.concerns, Option.any_eq_true] using hc
    have hid : e.event.eventId ∈ ids := (hm call e rfl he).2 hj
    obtain ⟨hafter, hsame⟩ := h.faces.deliver h.sound h.sound' h.housed h.housed' he hj hid
    rw [hvisit, hvisit]
    exact ⟨hafter, .cons hsame .nil⟩

theorem obey (h : Twins j ids d d') (hm : c.Marked j ids) :
    Twins j ids (d.obey c).2 (d'.obey c).2 ∧
      List.Forall₂ Visit.Same (d.visitNow j c) (d'.visitNow j c) := by
  cases hc : c.concerns j with
  | true =>
    obtain ⟨hfaces, hvisits⟩ := h.obey_own hc hm
    exact ⟨⟨hfaces, h.sound.obey c, h.sound'.obey c, h.housed.obey hm, h.housed'.obey hm⟩, hvisits⟩
  | false =>
    refine ⟨((h.obey_other hc hm).symm.obey_other hc hm).symm, ?_⟩
    rw [visitNow_other hc, visitNow_other hc]
    exact .nil

/-- The second run only has some of the commands, among them all that have to do with the job. -/
theorem follow (h : Twins j ids d d') (hm : ∀ c ∈ script, c.Marked j ids) {keep : Command → Bool}
    (hkeep : ∀ c ∈ script, c.concerns j = true → keep c = true) :
    Twins j ids (d.follow script) (d'.follow (script.filter keep)) ∧
      List.Forall₂ Visit.Same (d.visits j script) (d'.visits j (script.filter keep)) := by
  induction script generalizing d d' with
  | nil => exact ⟨h, .nil⟩
  | cons c cs ih =>
    have hmc := hm c List.mem_cons_self
    have hmcs (c' : Command) (hc' : c' ∈ cs) := hm c' (List.mem_cons_of_mem c hc')
    have hkeeps (c' : Command) (hc' : c' ∈ cs) := hkeep c' (List.mem_cons_of_mem c hc')
    cases hk : keep c with
    | true =>
      rw [List.filter_cons_of_pos hk]
      obtain ⟨hafter, hvisits⟩ := h.obey hmc
      obtain ⟨hend, hrest⟩ := ih hafter hmcs hkeeps
      exact ⟨hend, List.rel_append hvisits hrest⟩
    | false =>
      have hc : c.concerns j = false := by
        apply Bool.eq_false_iff.2
        intro hc
        rw [hkeep c List.mem_cons_self hc] at hk
        cases hk
      rw [List.filter_cons_of_neg (by simp [hk])]
      obtain ⟨hend, hrest⟩ := ih (h.obey_other hc hmc) hmcs hkeeps
      refine ⟨hend, ?_⟩
      rw [visits, visitNow_other hc]
      exact hrest

end Twins
end Deployment

/-- Whatever has nothing to do with a job can be left out, all of it or some: the job ends up with the same
row, where the phases that it has had are kept, and with the same entries in the ledger; and its deliveries
come to the same, with the same messages. Other messages are not about the job: a delivery only leads to
messages about the job of its event. -/
theorem job_isolated (store : MemoryStore) (bus : RecordingBus) (clock : Instant)
    (capacities : List Nat) (j : String) (script : List Command) (keep : Command → Bool)
    (hkeep : ∀ c ∈ script, c.concerns j = true → keep c = true)
    (hown : ∀ e ∈ errandsOf (callsOf script), ∀ e' ∈ errandsOf (callsOf script),
      e.event.jobId = j → e'.event.jobId ≠ j → e.event.eventId ≠ e'.event.eventId) :
    let d := Deployment.upon store bus clock capacities
    let d₁ := d.follow script
    let d₂ := d.follow (script.filter keep)
    (d₁.store.row? j).map JobRow.untimed = (d₂.store.row? j).map JobRow.untimed ∧
      (d₁.store.ledger.filter (·.jobId = j)).map LedgerEntry.untimed =
        (d₂.store.ledger.filter (·.jobId = j)).map LedgerEntry.untimed ∧
      List.Forall₂ Visit.Same (d.visits j script) (d.visits j (script.filter keep)) ∧
      ∀ call, ∀ m ∈ (d₁.visit call).sent, ∃ e, call.errand? = some e ∧ m.About e.event.jobId := by
  intro d d₁ d₂
  let ids := ((errandsOf (callsOf script)).filter (·.event.jobId = j)).map (·.event.eventId)
  have hm (c : Command) (hc : c ∈ script) : c.Marked j ids := by
    intro call e hcall he
    have hmem : e ∈ errandsOf (callsOf script) :=
      List.mem_filterMap.2 ⟨call, List.mem_filterMap.2 ⟨c, hc, hcall⟩, he⟩
    constructor
    · intro hid
      obtain ⟨e', he', hsame⟩ := List.mem_map.1 hid
      obtain ⟨hmem', hj'⟩ := List.mem_filter.1 he'
      by_contra hj
      exact hown e' hmem' e hmem (by simpa using hj') hj hsame
    · intro hj
      exact List.mem_map.2 ⟨e, List.mem_filter.2 ⟨hmem, by simpa using hj⟩, rfl⟩
  have hhoused : d.Housed j ids := by
    intro id _ hc
    obtain ⟨r, hr, hid⟩ := hc
    obtain ⟨n, -, rfl⟩ := List.mem_map.1 hr
    cases hid
  have hsound : d.Sound := Deployment.sound_upon store bus clock capacities
  have hstart : d.Twins j ids d := ⟨.refl j ids d, hsound, hsound, hhoused, hhoused⟩
  obtain ⟨hend, hvisits⟩ := hstart.follow hm hkeep
  exact ⟨hend.faces.row, hend.faces.ledger, hvisits, fun call m hm => Deployment.sent_about hm⟩

def Command.rivals : List Command :=
  [.create "a" "retail" .collection ⟨true, false⟩, .create "b" "retail" .collection ⟨true, false⟩,
    .deliver (.ofEvent 0 Topic.imageEmbeddings ⟨"x", "a", none⟩), .fail .insertEvent (some "a"),
    .deliver (.ofEvent 0 Topic.imageEmbeddings ⟨"y", "b", none⟩),
    .deliver (.ofEvent 0 Topic.imageEmbeddings ⟨"x", "a", none⟩)]

/-- The engine has room for one identifier, and the other job makes it forget the first event. -/
theorem job_isolated_from_rival :
    let d := Deployment.upon .empty .empty .epoch [1]
    let alone := Command.rivals.filter (Command.concerns "a")
    (∀ e ∈ errandsOf (callsOf Command.rivals), ∀ e' ∈ errandsOf (callsOf Command.rivals),
        e.event.jobId = "a" → e'.event.jobId ≠ "a" → e.event.eventId ≠ e'.event.eventId) ∧
      List.Forall₂ Visit.Same (d.visits "a" Command.rivals) (d.visits "a" alone) ∧
      (d.visits "a" Command.rivals)[1]?.map Visit.outcome =
        some (.storageFailed (.unavailable "InsertEvent failed for job a")) ∧
      (d.visits "a" alone)[1]?.map Visit.outcome = some .duplicate := by
  intro d alone
  have hown : ∀ e ∈ errandsOf (callsOf Command.rivals),
      ∀ e' ∈ errandsOf (callsOf Command.rivals),
      e.event.jobId = "a" → e'.event.jobId ≠ "a" → e.event.eventId ≠ e'.event.eventId := by
    decide +kernel
  have hisolated := job_isolated .empty .empty .epoch [1] "a" Command.rivals (Command.concerns "a")
    (fun _ _ h => h) hown
  exact ⟨hown, hisolated.2.2.1, by decide +kernel, by decide +kernel⟩

end PhaseKeeper
