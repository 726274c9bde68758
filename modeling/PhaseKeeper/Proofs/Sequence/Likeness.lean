import PhaseKeeper.Proofs.Sequence.Script
/-!
Two deployments that give the same replies about an event and its job, and differ in what their engines
have seen lately. A delivery of the event comes to the same in both, and it is answered alike; unless the
engine of one knows the event, and that of the other asks its store in vain.
-/
namespace PhaseKeeper

def Errand.entryAt (e : Errand) (now : Instant) : LedgerEntry :=
  ⟨e.event.eventId, e.event.jobId, e.eventType, now⟩

/-- Asked about the event, a store with these faults and jobs need not notice that it is recorded. -/
inductive Outcome.Blurs (s : MemoryStore) (e : Errand) : Outcome → Outcome → Prop
  | failed (cause : StoreFault) (h : s.fails .insertEvent e.event.jobId = true) :
      Blurs s e .duplicate (.storageFailed cause)
  | homeless (h : s.job? e.event.jobId = none) : Blurs s e .duplicate .unknownJob

namespace Deployment
variable {d d' : Deployment} {call : Call} {e : Errand}

theorem entry_eq (d : Deployment) (e : Errand) : d.entry e = e.entryAt d.clock := rfl

theorem deliver_cases (d : Deployment) (he : call.errand? = some e) :
    (d.Caches e.event.eventId ∧
        d.deliver call = (.duplicate, (d.lookUp call.member e.event.eventId).2)) ∨
      d.deliver call = d.tick.perform call.member (insertNew (d.entry e) >>= e.resume) := by
  have hcall : call.handling = e.handling := by
    cases call.handling_cases with
    | inl h =>
      rw [h.1] at he
      cases he
    | inr h =>
      obtain ⟨e', he', hh⟩ := h
      cases he.symm.trans he'
      exact hh
  have hdeliver : d.deliver call = (d.perform call.member
      (recordEvent e.event.eventId e.event.jobId e.eventType)).2.perform call.member
        (e.resume (d.perform call.member
          (recordEvent e.event.eventId e.event.jobId e.eventType)).1) := by
    rw [deliver, hcall, e.handling_eq, perform_bind]
  cases d.perform_recordEvent call.member e with
  | inl hhit =>
    rw [hhit.2] at hdeliver
    exact .inl ⟨hhit.1, hdeliver⟩
  | inr hmiss =>
    rw [hmiss, ← perform_bind] at hdeliver
    exact .inr hdeliver

theorem Handled.of_recorded {y : Outcome × Deployment} (h : d.Handled call y)
    (he : call.errand? = some e) (hr : d.store.recorded e.event.eventId = true) :
    y.1.taken = false ∧ (.duplicate = y.1 ∨ Outcome.Blurs d.store e .duplicate y.1) := by
  cases h with
  | rejected cause hnone =>
    rw [he] at hnone
    cases hnone
  | seen | known => exact ⟨rfl, .inl rfl⟩
  | failed cause he' hf =>
    cases he.symm.trans he'
    exact ⟨rfl, .inr (.failed cause hf)⟩
  | homeless he' hj =>
    cases he.symm.trans he'
    exact ⟨rfl, .inr (.homeless hj)⟩
  | taken he' ha =>
    cases he.symm.trans he'
    rw [ha.new] at hr
    cases hr

/-- Deployments that `S` relates give the same replies about the event `e` and its job, whenever it is
recorded, and are still related then. What engines have seen lately does not count. -/
structure Likeness (S : Deployment → Deployment → Prop) (e : Errand) : Prop where
  congr : ∀ {d d' c c' : Deployment}, S d d' → c.store = d.store → c.bus = d.bus →
    c'.store = d'.store → c'.bus = d'.bus → S c c'
  recorded : ∀ {d d' : Deployment}, S d d' →
    d.store.recorded e.event.eventId = d'.store.recorded e.event.eventId
  insert : ∀ {d d' : Deployment}, S d d' → ∀ (member : Nat) (now now' : Instant),
    (d.answer member (.store (.insertEvent (e.entryAt now)))).1 =
        (d'.answer member (.store (.insertEvent (e.entryAt now')))).1 ∧
      S (d.answer member (.store (.insertEvent (e.entryAt now)))).2
        (d'.answer member (.store (.insertEvent (e.entryAt now')))).2
  move : ∀ {d d' : Deployment} {r : Request}, S d d' → r.Moves e.event.jobId → ∀ member : Nat,
    (d.answer member r).1 = (d'.answer member r).1 ∧ S (d.answer member r).2 (d'.answer member r).2

namespace Likeness
variable {S : Deployment → Deployment → Prop}

theorem perform {α : Type} {p : Handling α} {R : α → Prop} (L : Likeness S e) (h : S d d')
    (hp : p.Within (·.Moves e.event.jobId) R) (member : Nat) :
    (d.perform member p).1 = (d'.perform member p).1 ∧
      S (d.perform member p).2 (d'.perform member p).2 := by
  induction p generalizing d d' with
  | done a => exact ⟨rfl, h⟩
  | ask r next ih =>
    have hr := L.move h hp.1 member
    have hrest := ih (d.answer member r).1 hr.2 (hp.2 _)
    simp only [Deployment.perform, Program.run]
    rw [← hr.1]
    exact hrest

theorem entered (L : Likeness S e) (h : S d d') (member : Nat) (now now' : Instant) :
    (d.perform member (insertNew (e.entryAt now))).1 =
        (d'.perform member (insertNew (e.entryAt now'))).1 ∧
      S (d.perform member (insertNew (e.entryAt now))).2
        (d'.perform member (insertNew (e.entryAt now'))).2 := by
  have hr := L.insert h member now now'
  unfold insertNew askStore
  rw [perform_ask, perform_ask]
  generalize d.answer member (.store (.insertEvent (e.entryAt now))) = y at hr ⊢
  generalize d'.answer member (.store (.insertEvent (e.entryAt now'))) = y' at hr ⊢
  obtain ⟨x, c⟩ := y
  obtain ⟨x', c'⟩ := y'
  obtain ⟨rfl, hc⟩ : x = x' ∧ S c c' := hr
  obtain cause | _ := x
  · cases cause with
    | alreadyRecorded id => exact ⟨rfl, L.congr hc rfl rfl rfl rfl⟩
    | _ => exact ⟨rfl, hc⟩
  · exact ⟨rfl, L.congr hc rfl rfl rfl rfl⟩

theorem deliver (L : Likeness S e) (h : S d d') (hs : d.Sound) (hs' : d'.Sound)
    (he : call.errand? = some e) :
    S (d.deliver call).2 (d'.deliver call).2 ∧
      ((d.deliver call).1 = (d'.deliver call).1 ∨
        d.Caches e.event.eventId ∧ Outcome.Blurs d'.store e (d.deliver call).1 (d'.deliver call).1 ∨
        d'.Caches e.event.eventId ∧
          Outcome.Blurs d.store e (d'.deliver call).1 (d.deliver call).1) := by
  have hh := handled_deliver hs call
  have hh' := handled_deliver hs' call
  -- an event that is recorded leaves both as they are
  have hknown (hr : d.store.recorded e.event.eventId = true) :
      S (d.deliver call).2 (d'.deliver call).2 := by
    have hd := hh.untaken (hh.of_recorded he hr).1
    have hd' := hh'.untaken (hh'.of_recorded he (L.recorded h ▸ hr)).1
    exact L.congr h hd.1 hd.2 hd'.1 hd'.2
  cases d.deliver_cases he with
  | inl hhit =>
    have hr : d.store.recorded e.event.eventId = true := hs _ hhit.1
    refine ⟨hknown hr, ?_⟩
    have hother := (hh'.of_recorded he (L.recorded h ▸ hr)).2
    rw [hhit.2]
    exact hother.imp_right fun hblur => .inl ⟨hhit.1, hblur⟩
  | inr hmiss =>
    cases d'.deliver_cases he with
    | inl hhit =>
      have hr' : d'.store.recorded e.event.eventId = true := hs' _ hhit.1
      have hr : d.store.recorded e.event.eventId = true := (L.recorded h).trans hr'
      refine ⟨hknown hr, ?_⟩
      have hother := (hh.of_recorded he hr).2
      rw [hhit.2]
      exact hother.imp Eq.symm fun hblur => .inr ⟨hhit.1, hblur⟩
    | inr hmiss' =>
      have hticked : S d.tick d'.tick := L.congr h rfl rfl rfl rfl
      have hrecording := L.entered hticked call.member d.clock d'.clock
      rw [hmiss, hmiss', perform_bind, perform_bind, entry_eq, entry_eq, ← hrecording.1]
      have hrest (x : Recording) := L.perform hrecording.2 (e.resume_within x) call.member
      exact ⟨(hrest _).2, .inl (hrest _).1⟩

end Likeness
end Deployment
end PhaseKeeper
