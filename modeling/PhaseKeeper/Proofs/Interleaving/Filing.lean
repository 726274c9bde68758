import PhaseKeeper.Proofs.Sequence.Capacity
/-!
Many clerks at work on one store: each of them is to record one event for one of the engines, and asks for
one thing at a time, in any order with the others. Meanwhile jobs are created, and the store begins and
ceases to fail. An event is recorded once at most, and whoever recorded it says so.
-/
namespace PhaseKeeper

structure Filing where
  member : Nat
  eventId : String
  jobId : String
  eventType : String

namespace Filing

def handling (f : Filing) : Handling Recording := recordEvent f.eventId f.jobId f.eventType

def entryAt (f : Filing) (now : Instant) : LedgerEntry := ⟨f.eventId, f.jobId, f.eventType, now⟩

end Filing

/-- Who records an event, with what is left to do. -/
structure Clerk where
  filing : Filing
  rest : Handling Recording

def Clerk.returned (k : Clerk) : Option Recording :=
  match k.rest with
  | .done x => some x
  | .ask .. => none

structure Office where
  deployment : Deployment
  clerks : List Clerk
  log : List Deed

inductive Office.Move where
  /-- A job that is there already is replaced. -/
  | create (job : Job)
  | fail (op : StoreOp) (jobId : Option String)
  | recover
  | file (f : Filing)
  /-- A clerk makes the next request. -/
  | act (clerk : Nat)

def Deed.added? : Deed → Option LedgerEntry
  | ⟨_, .store (.insertEvent e), .ok (), _, _⟩ => some e
  | _ => none

namespace Office

def opened (d : Deployment) : Office := ⟨d, [], []⟩

def act (c : Office) (i : Nat) : Office :=
  match c.clerks[i]? with
  | none => c
  | some k =>
    match k.rest with
    | .done _ => c
    | .ask r next =>
      let (x, d) := c.deployment.answer k.filing.member r
      ⟨d, c.clerks.set i { k with rest := next x }, c.log ++ [⟨i, r, x, c.deployment, d⟩]⟩

def step (c : Office) : Move → Office
  | .create job => { c with deployment := c.deployment.onStore (·.insertJob job) }
  | .fail op j => { c with deployment := c.deployment.onStore (·.fail op j) }
  | .recover => { c with deployment := c.deployment.onStore (·.recover) }
  | .file f => { c with clerks := c.clerks ++ [⟨f, f.handling⟩] }
  | .act i => c.act i

def run (c : Office) (moves : List Move) : Office := moves.foldl step c

/-- The clerk has put an event into the ledger. -/
def Inserted (c : Office) (i : Nat) : Prop := ∃ x ∈ c.log, x.handler = i ∧ x.added?.isSome

/-- Whatever the clerk has asked for so far has changed neither the store nor what engines keep in mind. -/
def Idle (c : Office) (i : Nat) : Prop :=
  ∀ x ∈ c.log, x.handler = i →
    x.added? = none ∧ x.after.store = x.before.store ∧ x.after.recent = x.before.recent

/-- What it takes to give this answer about an event. -/
def Grounds (c : Office) (i : Nat) (f : Filing) : Recording → Prop
  | .recorded => c.Inserted i
  | .alreadyProcessed => ¬ c.Inserted i ∧ c.deployment.store.recorded f.eventId = true
  | .failed _ => c.Idle i

/-- How far a clerk has got, with the number of requests that are left at most. -/
inductive Progress (c : Office) (i : Nat) (f : Filing) : Nat → Handling Recording → Prop
  | called (h : c.Idle i) : Progress c i f 4 f.handling
  | unseen (h : c.Idle i) :
      Progress c i f 3 (.ask .now fun now => insertNew (f.entryAt now))
  | dated (now : Instant) (h : c.Idle i) : Progress c i f 2 (insertNew (f.entryAt now))
  | inserted (h : c.Inserted i) (hr : c.deployment.store.recorded f.eventId = true) :
      Progress c i f 1 (.ask (.remember f.eventId) fun _ => .done .recorded)
  | known (h : ¬ c.Inserted i) (hr : c.deployment.store.recorded f.eventId = true) :
      Progress c i f 1 (.ask (.remember f.eventId) fun _ => .done .alreadyProcessed)
  | returned (x : Recording) (h : c.Grounds i f x) : Progress c i f 0 (.done x)

variable {c c' : Office} {i n : Nat} {f : Filing} {k : Clerk} {start : MemoryStore}

theorem added_answered {r : Request} {d d' : Deployment} {x : r.Reply} (h : Answered r d x d')
    (i : Nat) : d'.store.ledger = d.store.ledger ++ (Deed.mk i r x d d').added?.toList ∧
      ∀ e, (Deed.mk i r x d d').added? = some e →
        r = .store (.insertEvent e) ∧ d.store.recorded e.eventId = false := by
  have hnone (hy : (Deed.mk i r x d d').added? = none) (hl : d'.store.ledger = d.store.ledger) :
      d'.store.ledger = d.store.ledger ++ (Deed.mk i r x d d').added?.toList ∧
        ∀ e, (Deed.mk i r x d d').added? = some e →
          r = .store (.insertEvent e) ∧ d.store.recorded e.eventId = false := by
    rw [hy]
    exact ⟨by simpa using hl, nofun⟩
  cases r with
  | store s =>
    cases s with
    | insertEvent e =>
      have hinserted := h.insert
      clear h
      generalize d'.store = s' at hinserted
      cases hinserted with
      | known | homeless | failed => exact ⟨(List.append_nil _).symm, nofun⟩
      | done hrecorded =>
        refine ⟨congrArg MemoryStore.ledger hrecorded.eq, fun e' he => ?_⟩
        cases he
        exact ⟨rfl, hrecorded.fresh⟩
    | _ =>
      cases h
      exact hnone rfl (MemoryStore.Spares.answer (by simp) d.clock d.store).ledger
  | lookUp => exact hnone rfl (congrArg MemoryStore.ledger (h.store_eq rfl))
  | remember | now | publish | report =>
    cases h <;> exact hnone rfl rfl

def entering (c : Office) (clerks : List Clerk) (y : Deed) : Office :=
  ⟨y.after, clerks, c.log ++ [y]⟩

theorem mem_entering {clerks : List Clerk} {y x : Deed} :
    x ∈ (c.entering clerks y).log ↔ x ∈ c.log ∨ x = y := by simp [entering]

theorem Inserted.entering {clerks : List Clerk} {y : Deed} (h : c.Inserted i) :
    (c.entering clerks y).Inserted i := by
  obtain ⟨x, hx, hi⟩ := h
  exact ⟨x, mem_entering.2 (.inl hx), hi⟩

theorem not_inserted_entering {clerks : List Clerk} {y : Deed} (h : ¬ c.Inserted i)
    (hy : y.handler = i → y.added? = none) : ¬ (c.entering clerks y).Inserted i := by
  rintro ⟨x, hx, hi, he⟩
  cases mem_entering.1 hx with
  | inl hold => exact h ⟨x, hold, hi, he⟩
  | inr hnew =>
    subst hnew
    rw [hy hi] at he
    cases he

theorem Idle.entering {clerks : List Clerk} {y : Deed} (h : c.Idle i)
    (hy : y.handler = i →
      y.added? = none ∧ y.after.store = y.before.store ∧ y.after.recent = y.before.recent) :
    (c.entering clerks y).Idle i := by
  intro x hx hi
  cases mem_entering.1 hx with
  | inl hold => exact h x hold hi
  | inr hnew =>
    subst hnew
    exact hy hi

theorem Idle.not_inserted (h : c.Idle i) : ¬ c.Inserted i := by
  rintro ⟨x, hx, hi, he⟩
  rw [(h x hx hi).1] at he
  cases he

theorem Progress.mono {rest : Handling Recording} (h : c.Progress i f n rest)
    (hlog : ∀ x, x.handler = i → (x ∈ c'.log ↔ x ∈ c.log))
    (hl : c.deployment.store.ledger <+: c'.deployment.store.ledger) :
    c'.Progress i f n rest := by
  have hidle (h : c.Idle i) : c'.Idle i := fun x hx hi => h x ((hlog x hi).1 hx) hi
  have hinserted : c'.Inserted i ↔ c.Inserted i := by
    constructor
    · rintro ⟨x, hx, hi, he⟩
      exact ⟨x, (hlog x hi).1 hx, hi, he⟩
    · rintro ⟨x, hx, hi, he⟩
      exact ⟨x, (hlog x hi).2 hx, hi, he⟩
  have hrecorded (hr : c.deployment.store.recorded f.eventId = true) :
      c'.deployment.store.recorded f.eventId = true := Deployment.recorded_of_prefix hl hr
  cases h with
  | called h => exact .called (hidle h)
  | unseen h => exact .unseen (hidle h)
  | dated now h => exact .dated now (hidle h)
  | inserted h hr => exact .inserted (hinserted.2 h) (hrecorded hr)
  | known h hr => exact .known (mt hinserted.1 h) (hrecorded hr)
  | returned x h =>
    refine .returned x ?_
    cases x with
    | recorded => exact hinserted.2 h
    | alreadyProcessed => exact ⟨mt hinserted.1 h.1, hrecorded h.2⟩
    | failed cause => exact hidle h

theorem Progress.ask {r : Request} {next : r.Reply → Handling Recording} {x : r.Reply}
    {d : Deployment} {member : Nat} (h : c.Progress i f n (.ask r next))
    (hs : c.deployment.Sound) (hx : c.deployment.answer member r = (x, d)) (clerks : List Clerk) :
    d.Sound ∧ (∀ e, r = .store (.insertEvent e) → ∃ now, e = f.entryAt now) ∧
      ∃ m < n, (c.entering clerks ⟨i, r, x, c.deployment, d⟩).Progress i f m (next x) := by
  have hanswered := Answered.served member r c.deployment
  rw [hx] at hanswered
  -- how far the clerk has got says which request this is
  generalize hrest : Program.ask r next = rest at h
  cases h with
  | called h =>
    have hask : f.handling = .ask (.lookUp f.eventId) fun hit =>
        if hit then .done .alreadyProcessed
        else .ask .now fun now => insertNew (f.entryAt now) := rfl
    rw [hask] at hrest
    cases hrest
    have hlookUp : c.deployment.lookUp member f.eventId = (x, d) := hx
    have hsound : d.Sound := by
      have hlooked : (c.deployment.lookUp member f.eventId).2.Sound := hs.lookUp f.eventId
      rwa [hlookUp] at hlooked
    refine ⟨hsound, (fun _ he => by cases he), ?_⟩
    cases c.deployment.lookUp_cases member f.eventId with
    | inl hhit =>
      rw [hlookUp] at hhit
      obtain ⟨hit, hc⟩ := hhit
      cases hit
      have hrecorded : d.store.recorded f.eventId = true := by
        rw [hanswered.store_eq rfl]
        exact hs _ hc
      exact ⟨0, by decide, .returned .alreadyProcessed
        ⟨not_inserted_entering h.not_inserted fun _ => rfl, hrecorded⟩⟩
    | inr hmiss =>
      cases hlookUp.symm.trans hmiss
      exact ⟨3, by decide, .unseen (h.entering fun _ => ⟨rfl, rfl, rfl⟩)⟩
  | unseen h =>
    cases hrest
    cases hx
    exact ⟨hs.congr rfl rfl, (fun _ he => by cases he), 2, by decide,
      .dated _ (h.entering fun _ => ⟨rfl, rfl, rfl⟩)⟩
  | dated now h =>
    change Program.ask r next = .ask (.store (.insertEvent (f.entryAt now))) _ at hrest
    cases hrest
    have hrecent : d.recent = c.deployment.recent := congrArg (fun y => y.2.recent) hx.symm
    have hsound : d.Sound := by
      intro id hc
      rw [Deployment.Caches, hrecent] at hc
      exact Deployment.recorded_of_prefix ⟨_, (added_answered hanswered i).1.symm⟩ (hs id hc)
    refine ⟨hsound, ?_, ?_⟩
    · intro e he
      cases he
      exact ⟨now, rfl⟩
    · have hinserted := hanswered.insert
      generalize hstore : d.store = s at hinserted
      cases hinserted with
      | done hrecorded =>
        have hr : d.store.recorded f.eventId = true := hstore ▸ hrecorded.recorded
        exact ⟨1, by decide, .inserted ⟨_, mem_entering.2 (.inr rfl), rfl, rfl⟩ hr⟩
      | known hr =>
        exact ⟨1, by decide, .known (not_inserted_entering h.not_inserted fun _ => rfl)
          (hstore ▸ hr)⟩
      | homeless | failed =>
        exact ⟨0, by decide, .returned (.failed _) (h.entering fun _ => ⟨rfl, hstore, hrecent⟩)⟩
  | inserted h hr =>
    cases hrest
    cases hx
    exact ⟨hs.remember hr, (fun _ he => by cases he), 0, by decide, .returned .recorded h.entering⟩
  | known h hr =>
    cases hrest
    cases hx
    exact ⟨hs.remember hr, (fun _ he => by cases he), 0, by decide,
      .returned .alreadyProcessed ⟨not_inserted_entering h fun _ => rfl, hr⟩⟩
  | returned x h => cases hrest

/-- What the ledger has gained over `start` is what the log says; every entry is new when it is made, and is
the one that its clerk was to make. -/
structure InOrder (c : Office) (start : MemoryStore) : Prop where
  sound : c.deployment.Sound
  ledger : c.deployment.store.ledger = start.ledger ++ c.log.filterMap Deed.added?
  fresh : ∀ x ∈ c.log, ∀ e, x.added? = some e → start.recorded e.eventId = false
  once : c.log.Pairwise fun x y =>
    ∀ e e', x.added? = some e → y.added? = some e' → e.eventId ≠ e'.eventId
  belongs : ∀ x ∈ c.log, ∃ k, c.clerks[x.handler]? = some k ∧
    ∀ e, x.added? = some e → ∃ now, e = k.filing.entryAt now
  progress : ∀ i k, c.clerks[i]? = some k → ∃ n, c.Progress i k.filing n k.rest

theorem InOrder.opened {d : Deployment} (hs : d.Sound) : (opened d).InOrder d.store where
  sound := hs
  ledger := (List.append_nil _).symm
  fresh _ hx := nomatch hx
  once := .nil
  belongs _ hx := nomatch hx
  progress _ _ hi := nomatch hi

theorem act_eq {r : Request} {next : r.Reply → Handling Recording} {x : r.Reply} {d : Deployment}
    (hi : c.clerks[i]? = some k) (hr : k.rest = .ask r next)
    (hx : c.deployment.answer k.filing.member r = (x, d)) :
    c.act i = c.entering (c.clerks.set i { k with rest := next x }) ⟨i, r, x, c.deployment, d⟩ := by
  unfold act
  simp only [hi, hr, hx]
  rfl

theorem act_of_done {x : Recording} (hi : c.clerks[i]? = some k) (hr : k.rest = .done x) :
    c.act i = c := by
  unfold act
  simp only [hi, hr]

theorem InOrder.entering {y : Deed} {rest : Handling Recording} (h : c.InOrder start)
    (hi : c.clerks[y.handler]? = some k) (hsound : y.after.Sound)
    (hledger : y.after.store.ledger = c.deployment.store.ledger ++ y.added?.toList)
    (hnew : ∀ e, y.added? = some e → c.deployment.store.recorded e.eventId = false ∧
      ∃ now, e = k.filing.entryAt now)
    (hrest : ∃ n, (c.entering (c.clerks.set y.handler { k with rest }) y).Progress y.handler
      k.filing n rest) :
    (c.entering (c.clerks.set y.handler { k with rest }) y).InOrder start where
  sound := hsound
  ledger := by
    simp only [Office.entering, List.filterMap_append, ← List.append_assoc, ← h.ledger, hledger]
    cases hy : y.added? <;> simp [hy]
  fresh := by
    intro x hx e he
    cases mem_entering.1 hx with
    | inl hold => exact h.fresh x hold e he
    | inr heq =>
      subst heq
      -- The ledger only grows, so an entry that is new now was not there at the start.
      apply Bool.eq_false_iff.2
      intro hr
      have hr' := Deployment.recorded_of_prefix ⟨_, h.ledger.symm⟩ hr
      rw [(hnew e he).1] at hr'
      cases hr'
  once := by
    refine List.pairwise_append.2 ⟨h.once, List.pairwise_singleton _ _, ?_⟩
    intro x hx z hz e e' he he'
    cases List.mem_singleton.1 hz
    intro heq
    have hmem : e ∈ c.deployment.store.ledger := by
      rw [h.ledger]
      exact List.mem_append_right _ (List.mem_filterMap.2 ⟨x, hx, he⟩)
    have hr : c.deployment.store.recorded e'.eventId = true :=
      List.any_eq_true.2 ⟨e, hmem, by simpa using heq⟩
    rw [(hnew e' he').1] at hr
    cases hr
  belongs := by
    intro x hx
    have hlt := (List.getElem?_eq_some_iff.1 hi).1
    by_cases hxy : x.handler = y.handler
    · refine ⟨{ k with rest }, by simp [Office.entering, hxy, hlt], fun e he => ?_⟩
      cases mem_entering.1 hx with
      | inl hold =>
        obtain ⟨k', hk', hentry⟩ := h.belongs x hold
        rw [hxy, hi] at hk'
        cases hk'
        exact hentry e he
      | inr heq =>
        subst heq
        exact (hnew e he).2
    · cases mem_entering.1 hx with
      | inl hold =>
        obtain ⟨k', hk', hentry⟩ := h.belongs x hold
        refine ⟨k', ?_, hentry⟩
        simp only [Office.entering]
        rw [List.getElem?_set_ne fun he => hxy he.symm]
        exact hk'
      | inr heq => exact absurd (congrArg Deed.handler heq) hxy
  progress := by
    intro i k' hk'
    simp only [Office.entering] at hk'
    by_cases hiy : y.handler = i
    · subst hiy
      rw [List.getElem?_set_self (List.getElem?_eq_some_iff.1 hi).1] at hk'
      cases hk'
      exact hrest
    · -- all that another clerk has got to see is a longer ledger
      rw [List.getElem?_set_ne hiy] at hk'
      obtain ⟨n, hn⟩ := h.progress i k' hk'
      refine ⟨n, hn.mono (fun x hxi => ?_) ⟨_, hledger.symm⟩⟩
      refine mem_entering.trans (or_iff_left fun he => hiy ?_)
      rw [← he]
      exact hxi

theorem InOrder.act (h : c.InOrder start) (i : Nat) : (c.act i).InOrder start := by
  cases hi : c.clerks[i]? with
  | none =>
    have hact : c.act i = c := by
      unfold Office.act
      simp only [hi]
    rwa [hact]
  | some k =>
    obtain ⟨n, hprogress⟩ := h.progress i k hi
    cases hr : k.rest with
    | done x =>
      rw [act_of_done hi hr]
      exact h
    | ask r next =>
      obtain ⟨x, d, hx⟩ : ∃ x d, c.deployment.answer k.filing.member r = (x, d) := ⟨_, _, rfl⟩
      rw [act_eq hi hr hx]
      rw [hr] at hprogress
      have hanswered : Answered r c.deployment x d := by
        have hserved := Answered.served k.filing.member r c.deployment
        rwa [hx] at hserved
      obtain ⟨hledger, hnew⟩ := added_answered hanswered i
      obtain ⟨hsound, hown, m, -, honward⟩ :=
        hprogress.ask h.sound hx (c.clerks.set i { k with rest := next x })
      exact h.entering hi hsound hledger
        (fun e he => ⟨(hnew e he).2, hown e (hnew e he).1⟩) ⟨m, honward⟩

theorem InOrder.onStore (h : c.InOrder start) {g : MemoryStore → MemoryStore}
    (hg : (g c.deployment.store).ledger = c.deployment.store.ledger) :
    InOrder { c with deployment := c.deployment.onStore g } start where
  sound := h.sound.congr rfl hg
  ledger := hg.trans h.ledger
  fresh := h.fresh
  once := h.once
  belongs := h.belongs
  progress i k hk := by
    obtain ⟨n, hn⟩ := h.progress i k hk
    exact ⟨n, hn.mono (fun _ _ => .rfl) ⟨[], (List.append_nil _).trans hg.symm⟩⟩

theorem InOrder.file (h : c.InOrder start) (f : Filing) :
    InOrder { c with clerks := c.clerks ++ [⟨f, f.handling⟩] } start where
  sound := h.sound
  ledger := h.ledger
  fresh := h.fresh
  once := h.once
  belongs x hx := by
    obtain ⟨k, hk, hentry⟩ := h.belongs x hx
    have hlt := (List.getElem?_eq_some_iff.1 hk).1
    exact ⟨k, (List.getElem?_append_left hlt).trans hk, hentry⟩
  progress i k hk := by
    cases Nat.lt_or_ge i c.clerks.length with
    | inl hlt =>
      obtain ⟨n, hn⟩ := h.progress i k ((List.getElem?_append_left hlt).symm.trans hk)
      exact ⟨n, hn.mono (fun _ _ => .rfl) List.prefix_rfl⟩
    | inr hge =>
      have hnew : k = ⟨f, f.handling⟩ := by
        have hlast := (List.getElem?_append_right hge).symm.trans hk
        simpa using (List.mem_singleton.1 (List.mem_of_getElem? hlast))
      subst hnew
      -- every deed in the log is an older clerk's
      refine ⟨4, .called fun x hx hxi => ?_⟩
      obtain ⟨k', hk', -⟩ := h.belongs x hx
      have hlt := (List.getElem?_eq_some_iff.1 hk').1
      omega

theorem InOrder.step (h : c.InOrder start) (m : Move) : (c.step m).InOrder start := by
  cases m with
  | create | fail | recover => exact h.onStore rfl
  | file f => exact h.file f
  | act i => exact h.act i

theorem InOrder.run (h : c.InOrder start) (moves : List Move) : (c.run moves).InOrder start := by
  induction moves generalizing c with
  | nil => exact h
  | cons m ms ih => exact ih (h.step m)

theorem log_step (c : Office) (m : Move) : c.log <+: (c.step m).log := by
  cases m with
  | create | fail | recover | file => exact List.prefix_rfl
  | act i =>
    simp only [step, act]
    split
    · exact List.prefix_rfl
    · split
      · exact List.prefix_rfl
      · exact List.prefix_append _ _

theorem log_run (c : Office) (moves : List Move) : c.log <+: (c.run moves).log := by
  induction moves generalizing c with
  | nil => exact List.prefix_rfl
  | cons m ms ih => exact (log_step c m).trans (ih (c.step m))

namespace InOrder

theorem only (h : c.InOrder start) {x : Deed} {e : LedgerEntry} (hx : x ∈ c.log)
    (he : x.added? = some e) : ∃ l l', c.log = l ++ x :: l' ∧
      ∀ y ∈ l ++ l', ∀ e', y.added? = some e' → e'.eventId ≠ e.eventId := by
  obtain ⟨l, l', hlog⟩ := List.append_of_mem hx
  have honce := h.once
  rw [hlog, List.pairwise_append, List.pairwise_cons] at honce
  obtain ⟨-, ⟨hafter, -⟩, hbefore⟩ := honce
  refine ⟨l, l', hlog, fun y hy e' he' => ?_⟩
  cases List.mem_append.1 hy with
  | inl hl => exact hbefore y hl x List.mem_cons_self e' e he' he
  | inr hl' => exact (hafter y hl' e e' he he').symm

theorem entries (h : c.InOrder start) {x : Deed} {e : LedgerEntry} (hx : x ∈ c.log)
    (he : x.added? = some e) :
    c.deployment.store.ledger.filter (·.eventId = e.eventId) = [e] := by
  obtain ⟨l, l', hlog, hothers⟩ := h.only hx he
  have hnone {es : List LedgerEntry} (hes : ∀ e' ∈ es, e'.eventId ≠ e.eventId) :
      es.filter (·.eventId = e.eventId) = [] :=
    List.filter_eq_nil_iff.2 fun e' he' => by simpa using hes e' he'
  have hstart : ∀ e' ∈ start.ledger, e'.eventId ≠ e.eventId := by
    intro e' he' heq
    have hr : start.recorded e.eventId = true := List.any_eq_true.2 ⟨e', he', by simpa using heq⟩
    rw [h.fresh x hx e he] at hr
    cases hr
  have hl : ∀ e' ∈ l.filterMap Deed.added?, e'.eventId ≠ e.eventId := by
    intro e' he'
    obtain ⟨y, hy, hye⟩ := List.mem_filterMap.1 he'
    exact hothers y (List.mem_append_left _ hy) e' hye
  have hl' : ∀ e' ∈ l'.filterMap Deed.added?, e'.eventId ≠ e.eventId := by
    intro e' he'
    obtain ⟨y, hy, hye⟩ := List.mem_filterMap.1 he'
    exact hothers y (List.mem_append_right _ hy) e' hye
  rw [h.ledger, hlog, List.filterMap_append, List.filterMap_cons_some he, List.filter_append,
    List.filter_append, hnone hstart, hnone hl, List.filter_cons_of_pos (by simp), hnone hl']
  rfl

theorem added_of_inserted (h : c.InOrder start) (hi : c.clerks[i]? = some k)
    (hins : c.Inserted i) :
    ∃ x ∈ c.log, x.handler = i ∧ ∃ now, x.added? = some (k.filing.entryAt now) := by
  obtain ⟨x, hx, hxi, hsome⟩ := hins
  obtain ⟨e, he⟩ := Option.isSome_iff_exists.1 hsome
  obtain ⟨k', hk', hentry⟩ := h.belongs x hx
  rw [hxi, hi] at hk'
  cases hk'
  obtain ⟨now, rfl⟩ := hentry e he
  exact ⟨x, hx, hxi, now, he⟩

theorem unique {i' : Nat} {k' : Clerk} (h : c.InOrder start) (hi : c.clerks[i]? = some k)
    (hi' : c.clerks[i']? = some k') (hsame : k.filing.eventId = k'.filing.eventId)
    (hins : c.Inserted i) (hins' : c.Inserted i') : i = i' := by
  obtain ⟨x, hx, rfl, now, he⟩ := h.added_of_inserted hi hins
  obtain ⟨x', hx', rfl, now', he'⟩ := h.added_of_inserted hi' hins'
  obtain ⟨l, l', hlog, hothers⟩ := h.only hx he
  rw [hlog, List.mem_append, List.mem_cons, or_left_comm] at hx'
  cases hx' with
  | inl heq => rw [heq]
  | inr hother => exact absurd hsame.symm (hothers x' (List.mem_append.2 hother) _ he')

theorem recorded_iff (h : c.InOrder start) {id : String} (hnew : start.recorded id = false) :
    c.deployment.store.recorded id = true ↔
      ∃ i k, c.clerks[i]? = some k ∧ k.filing.eventId = id ∧ c.Inserted i := by
  constructor
  · intro hr
    obtain ⟨e, hmem, hid⟩ := List.any_eq_true.1 hr
    rw [h.ledger] at hmem
    cases List.mem_append.1 hmem with
    | inl hold =>
      have hr' : start.recorded id = true := List.any_eq_true.2 ⟨e, hold, hid⟩
      rw [hnew] at hr'
      cases hr'
    | inr hmade =>
      obtain ⟨x, hx, he⟩ := List.mem_filterMap.1 hmade
      obtain ⟨k, hk, hentry⟩ := h.belongs x hx
      obtain ⟨now, rfl⟩ := hentry e he
      exact ⟨x.handler, k, hk, of_decide_eq_true hid, x, hx, rfl, by rw [he]; rfl⟩
  · rintro ⟨i, k, hk, rfl, hins⟩
    obtain ⟨x, hx, -, now, he⟩ := h.added_of_inserted hk hins
    have hmem : k.filing.entryAt now ∈ c.deployment.store.ledger := by
      rw [h.ledger]
      exact List.mem_append_right _ (List.mem_filterMap.2 ⟨x, hx, he⟩)
    exact List.any_eq_true.2 ⟨_, hmem, by simp [Filing.entryAt]⟩

end InOrder

theorem Progress.le_four {rest : Handling Recording} (h : c.Progress i f n rest) : n ≤ 4 := by
  cases h <;> decide

theorem Progress.eq_zero {x : Recording} (h : c.Progress i f n (.done x)) : n = 0 := by
  generalize hrest : Program.done x = rest at h
  cases h with
  | returned => rfl
  | _ => cases hrest

theorem Progress.grounds {x : Recording} (h : c.Progress i f n (.done x)) : c.Grounds i f x := by
  generalize hrest : Program.done x = rest at h
  cases h with
  | returned y hy =>
    cases hrest
    exact hy
  | _ => cases hrest

theorem returns {m : Nat} (hs : c.deployment.Sound) (hi : c.clerks[i]? = some k)
    (h : c.Progress i k.filing n k.rest) (hm : n ≤ m) :
    ∃ k', (c.run (List.replicate m (.act i))).clerks[i]? = some k' ∧ ∃ x, k'.returned = some x := by
  induction m generalizing c k n with
  | zero =>
    cases hr : k.rest with
    | done x => exact ⟨k, hi, x, by simp [Clerk.returned, hr]⟩
    | ask r next =>
      rw [hr] at h
      obtain ⟨x, d, hx⟩ : ∃ x d, c.deployment.answer k.filing.member r = (x, d) := ⟨_, _, rfl⟩
      obtain ⟨-, -, m, hlt, -⟩ := h.ask hs hx c.clerks
      omega
  | succ m ih =>
    have hlt := (List.getElem?_eq_some_iff.1 hi).1
    change ∃ k', ((c.act i).run (List.replicate m (.act i))).clerks[i]? = some k' ∧ _
    cases hr : k.rest with
    | done x =>
      rw [act_of_done hi hr]
      rw [hr] at h
      exact ih hs hi (hr ▸ h) (h.eq_zero ▸ Nat.zero_le m)
    | ask r next =>
      rw [hr] at h
      obtain ⟨x, d, hx⟩ : ∃ x d, c.deployment.answer k.filing.member r = (x, d) := ⟨_, _, rfl⟩
      obtain ⟨hsound, -, n', hless, hrest⟩ :=
        h.ask hs hx (c.clerks.set i { k with rest := next x })
      rw [act_eq hi hr hx]
      exact ih (k := { k with rest := next x }) hsound (List.getElem?_set_self hlt) hrest (by omega)

theorem rest_of_returned {x : Recording} (h : k.returned = some x) : k.rest = .done x := by
  unfold Clerk.returned at h
  split at h
  · cases h
    assumption
  · cases h

/-- What can be said of a clerk and of its answer. -/
structure Reliable (c : Office) (i : Nat) (k : Clerk) : Prop where
  /-- It needs four requests at most. -/
  returns : ∃ k', (c.run (List.replicate 4 (.act i))).clerks[i]? = some k' ∧
    ∃ x, k'.returned = some x
  recorded_iff : ∀ x, k.returned = some x → (x = .recorded ↔ c.Inserted i)
  /-- Nobody else has put the same event into the ledger. -/
  alone : c.Inserted i → ∀ i' k', c.clerks[i']? = some k' →
    k'.filing.eventId = k.filing.eventId → c.Inserted i' → i' = i
  /-- What it has put there stays, and nothing else gets there under the same identifier. -/
  kept : c.Inserted i → ∃ now, ∀ more,
    (c.run more).deployment.store.ledger.filter (·.eventId = k.filing.eventId) =
      [k.filing.entryAt now]
  known : k.returned = some .alreadyProcessed →
    c.deployment.store.recorded k.filing.eventId = true
  failed : ∀ cause, k.returned = some (.failed cause) → c.Idle i

theorem InOrder.reliable (h : c.InOrder start) (hi : c.clerks[i]? = some k) : c.Reliable i k := by
  obtain ⟨n, hprogress⟩ := h.progress i k hi
  have hgrounds {x : Recording} (hx : k.returned = some x) : c.Grounds i k.filing x := by
    rw [rest_of_returned hx] at hprogress
    exact hprogress.grounds
  constructor
  case returns =>
    exact Office.returns h.sound hi hprogress hprogress.le_four
  case recorded_iff =>
    intro x hx
    have hg := hgrounds hx
    cases x with
    | recorded => exact ⟨fun _ => hg, fun _ => rfl⟩
    | alreadyProcessed => exact ⟨nofun, fun hins => absurd hins hg.1⟩
    | failed cause => exact ⟨nofun, fun hins => absurd hins (Idle.not_inserted hg)⟩
  case alone =>
    intro hins i' k' hi' hsame hins'
    exact h.unique hi' hi hsame hins' hins
  case kept =>
    intro hins
    obtain ⟨x, hx, -, now, he⟩ := h.added_of_inserted hi hins
    exact ⟨now, fun more => (h.run more).entries ((log_run c more).subset hx) he⟩
  case known => exact fun hx => (hgrounds hx).2
  case failed => exact fun cause hx => hgrounds hx

end Office

/-- Whatever the capacities, the faults, and the order in which clerks get on: at most one of them answers
that it has recorded an event; an event that was not recorded at first is recorded if and only if a clerk has
put it into the ledger; each answer can be relied on; and whatever an engine keeps in mind is recorded. -/
theorem recorded_at_most_once (store : MemoryStore) (bus : RecordingBus) (clock : Instant)
    (capacities : List Nat) (moves : List Office.Move) :
    let c := (Office.opened (Deployment.upon store bus clock capacities)).run moves
    (∀ (i i' : Nat) (k k' : Clerk), c.clerks[i]? = some k → c.clerks[i']? = some k' →
        k.filing.eventId = k'.filing.eventId → k.returned = some .recorded →
        k'.returned = some .recorded → i = i') ∧
      (∀ id, store.recorded id = false → (c.deployment.store.recorded id = true ↔
        ∃ i k, c.clerks[i]? = some k ∧ k.filing.eventId = id ∧ c.Inserted i)) ∧
      (∀ i k, c.clerks[i]? = some k → c.Reliable i k) ∧ c.deployment.Sound := by
  intro c
  have horder : c.InOrder store :=
    (Office.InOrder.opened (Deployment.sound_upon store bus clock capacities)).run moves
  refine ⟨?_, fun id hnew => horder.recorded_iff hnew, fun i k => horder.reliable, horder.sound⟩
  intro i i' k k' hi hi' hsame hx hx'
  have hins := ((horder.reliable hi).recorded_iff _ hx).1 rfl
  have hins' := ((horder.reliable hi').recorded_iff _ hx').1 rfl
  exact horder.unique hi hi' hsame hins hins'

/-- Both engines miss the event before either records it, and the jobs differ. -/
example :
    let c := (Office.opened (.upon .empty .empty .epoch [1, 1])).run
      ([.create ⟨"a", "retail", .collection, ⟨true, false⟩, .epoch⟩,
        .create ⟨"b", "retail", .collection, ⟨true, false⟩, .epoch⟩,
        .file ⟨0, "x", "a", Topic.imageEmbeddings⟩, .file ⟨1, "x", "b", Topic.matchings⟩] ++
        [0, 1, 1, 0, 1, 0, 0, 1].map .act)
    c.clerks.map Clerk.returned = [some .alreadyProcessed, some .recorded] := by
  decide +kernel

end PhaseKeeper
