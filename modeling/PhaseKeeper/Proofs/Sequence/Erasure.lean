import PhaseKeeper.Proofs.Sequence.Script
/-!
Deliveries that are not taken might as well never have come. They change what the engines have seen
lately, and so which of them looks an event up where; but the store answers the same in the end.
-/
namespace PhaseKeeper

def JobRow.untimed (r : JobRow) : JobRow := { r with job := { r.job with updatedAt := .epoch } }

def LedgerEntry.untimed (e : LedgerEntry) : LedgerEntry := { e with createdAt := .epoch }

def Message.untimed (m : Message) : Message := { m with timestamp := .epoch }

def RecordingBus.untimed (b : RecordingBus) : RecordingBus :=
  { b with published := b.published.map Message.untimed }

namespace MemoryStore
variable {s s' : MemoryStore} {j : String} {p q : Phase}

def untimed (s : MemoryStore) : MemoryStore :=
  { s with rows := s.rows.map JobRow.untimed, ledger := s.ledger.map LedgerEntry.untimed }

theorem row_untimed (s : MemoryStore) (j : String) :
    s.untimed.row? j = (s.row? j).map JobRow.untimed := by
  simp only [row?, untimed, List.find?_map]
  rfl

theorem job_untimed (s : MemoryStore) (j : String) :
    s.untimed.job? j = (s.job? j).map fun job => { job with updatedAt := .epoch } := by
  simp only [job?, row_untimed, Option.map_map]
  rfl

theorem phase_untimed (s : MemoryStore) (j : String) : s.untimed.phase? j = s.phase? j := by
  simp only [phase?, job_untimed, Option.map_map]
  rfl

theorem hasEvent_untimed (s : MemoryStore) (j t : String) :
    s.untimed.hasEvent j t = s.hasEvent j t := by
  simp only [hasEvent, untimed, List.any_map]
  rfl

theorem recorded_untimed (s : MemoryStore) (id : String) :
    s.untimed.recorded id = s.recorded id := by
  simp only [recorded, untimed, List.any_map]
  rfl

theorem map_putRow (row : JobRow) (rows : List JobRow) :
    (putRow row rows).map JobRow.untimed = putRow row.untimed (rows.map JobRow.untimed) := by
  induction rows with
  | nil => rfl
  | cons r rs ih =>
    by_cases h : r.job.id = row.job.id
    · simp [putRow, JobRow.untimed, h]
    · simp [putRow, JobRow.untimed, h] at ih ⊢
      exact ih

theorem settle_untimed (s : MemoryStore) (j : String) :
    (s.settle j).untimed = s.untimed.settle j := by
  unfold settle
  rw [row_untimed]
  cases s.row? j with
  | none => rfl
  | some r =>
    cases hp : s.pending.lookup j with
    | none => simp only [untimed, hp]; rfl
    | some p =>
      have hp' : s.untimed.pending.lookup j = some p := hp
      simp only [Option.map_some, hp']
      simp only [untimed, map_putRow]
      rfl

theorem untimed_untimed (s : MemoryStore) : s.untimed.untimed = s.untimed := by
  simp only [untimed, List.map_map]
  rfl

theorem swap_untimed (now now' : Instant) (s : MemoryStore) (j : String) (p q : Phase) :
    (s.untimed.swap now' j p q).1 = (s.swap now j p q).1 ∧
      (s.untimed.swap now' j p q).2.untimed = (s.swap now j p q).2.untimed := by
  unfold swap
  rw [row_untimed]
  cases s.row? j with
  | none => exact ⟨rfl, untimed_untimed s⟩
  | some r =>
    by_cases hp : r.job.phase = p
    · have hp' : r.untimed.job.phase = p := hp
      simp only [Option.map_some, hp, hp', if_true, true_and]
      simp only [untimed, map_putRow, List.map_map]
      rfl
    · have hp' : ¬ r.untimed.job.phase = p := hp
      simp only [Option.map_some, hp, hp', if_false, true_and]
      exact untimed_untimed s

theorem answer_untimed {c : StoreCall} (hc : ∀ e, c ≠ .insertEvent e) (now now' : Instant)
    (s : MemoryStore) : (s.untimed.answer now' c).1 = (s.answer now c).1 ∧
      (s.untimed.answer now' c).2.untimed = (s.answer now c).2.untimed := by
  have hfails : s.untimed.fails c.op c.jobId = s.fails c.op c.jobId := rfl
  unfold answer
  rw [hfails]
  split
  · exact ⟨rfl, untimed_untimed s⟩
  · cases c with
    | phaseOf j => exact ⟨congrArg Except.ok (phase_untimed s j), untimed_untimed s⟩
    | hasEvent j t => exact ⟨congrArg Except.ok (hasEvent_untimed s j t), untimed_untimed s⟩
    | assetsOf j | industryOf j =>
      simp only [perform, job_untimed]
      cases s.job? j with
      | none => exact ⟨rfl, untimed_untimed s⟩
      | some job => exact ⟨rfl, untimed_untimed s⟩
    | insertEvent e => exact absurd rfl (hc e)
    | swapPhase j p q =>
      have hswap := swap_untimed now now' (s.settle j) j p q
      rw [settle_untimed] at hswap
      exact ⟨congrArg Except.ok hswap.1, hswap.2⟩

end MemoryStore

/-- The stores and the buses are the same, times aside. -/
structure Deployment.Alike (d d' : Deployment) : Prop where
  store : d.store.untimed = d'.store.untimed
  bus : d.bus.untimed = d'.bus.untimed

namespace Deployment.Alike
variable {d d' d'' : Deployment} {j : String} {member : Nat}

theorem refl (d : Deployment) : d.Alike d := ⟨rfl, rfl⟩

theorem symm (h : d.Alike d') : d'.Alike d := ⟨h.store.symm, h.bus.symm⟩

theorem trans (h : d.Alike d') (k : d'.Alike d'') : d.Alike d'' :=
  ⟨h.store.trans k.store, h.bus.trans k.bus⟩

theorem of_eq (hs : d'.store = d.store) (hb : d'.bus = d.bus) : d.Alike d' := by
  constructor
  · rw [hs]
  · rw [hb]

theorem send (h : d.Alike d') (draft : Draft) :
    (d.send draft).1 = (d'.send draft).1 ∧ (d.send draft).2.Alike (d'.send draft).2 := by
  have hfailing : d.bus.failing = d'.bus.failing := by
    have hb := congrArg RecordingBus.failing h.bus
    exact hb
  have hpublished : d.bus.published.map Message.untimed = d'.bus.published.map Message.untimed := by
    have hb := congrArg RecordingBus.published h.bus
    exact hb
  simp only [Deployment.send, RecordingBus.send, hfailing]
  cases d'.bus.failing.lookup draft.topic with
  | some reason => exact ⟨rfl, h⟩
  | none =>
    refine ⟨rfl, h.store, ?_⟩
    simp only [RecordingBus.untimed, List.map_append, hpublished]
    rfl

theorem answer {r : Request} (h : d.Alike d') (hr : r.Moves j) (member : Nat) :
    (d.answer member r).1 = (d'.answer member r).1 ∧
      (d.answer member r).2.Alike (d'.answer member r).2 := by
  cases r with
  | store c =>
    have hne := hr.store.2
    have hd := MemoryStore.answer_untimed hne d.clock d.clock d.store
    have hd' := MemoryStore.answer_untimed hne d'.clock d.clock d'.store
    rw [h.store] at hd
    exact ⟨hd.1.symm.trans hd'.1, hd.2.symm.trans hd'.2, h.bus⟩
  | publish draft => exact h.send draft
  | report => exact ⟨rfl, h.store, h.bus⟩
  | lookUp | remember | now =>
    simp [Request.Moves, Request.Reads, Request.Notifies, Request.Solicits] at hr

theorem perform {α : Type} {p : Handling α} {R : α → Prop} (h : d.Alike d')
    (hp : p.Within (·.Moves j) R) (member : Nat) :
    (d.perform member p).1 = (d'.perform member p).1 ∧
      (d.perform member p).2.Alike (d'.perform member p).2 := by
  induction p generalizing d d' with
  | done a => exact ⟨rfl, h⟩
  | ask r next ih =>
    have hr := h.answer hp.1 member
    have hrest := ih (d.answer member r).1 hr.2 (hp.2 _)
    simp only [Deployment.perform, Program.run]
    rw [← hr.1]
    exact hrest

theorem accepts {e : Errand} (h : d.Alike d') (ha : d.Accepts e) : d'.Accepts e := by
  have hfaults : d.store.faults = d'.store.faults := by
    have hs := congrArg MemoryStore.faults h.store
    exact hs
  have hjob := congrArg (MemoryStore.job? · e.event.jobId) h.store
  have hrecorded := congrArg (MemoryStore.recorded · e.event.eventId) h.store
  simp only [MemoryStore.job_untimed] at hjob
  simp only [MemoryStore.recorded_untimed] at hrecorded
  obtain ⟨job, hj⟩ := ha.job
  rw [hj] at hjob
  obtain ⟨job', hj', -⟩ := Option.map_eq_some_iff.1 hjob.symm
  refine ⟨?_, ⟨job', hj'⟩, hrecorded ▸ ha.new⟩
  rw [MemoryStore.fails, ← hfaults]
  exact ha.works

theorem noting (h : d.Alike d') (member : Nat) (e : Errand) :
    (d.noting member e).Alike (d'.noting member e) := by
  have hnoting (d : Deployment) : (d.noting member e).store.untimed =
      { d.store.untimed with
        ledger := d.store.untimed.ledger ++ [(LedgerEntry.untimed ⟨e.event.eventId, e.event.jobId,
          e.eventType, .epoch⟩)] } := by
    simp only [MemoryStore.untimed, Deployment.noting, remember, onStore, List.map_append]
    rfl
  refine ⟨?_, h.bus⟩
  rw [hnoting, hnoting, h.store]

end Deployment.Alike

namespace Deployment.Alike
variable {d d' : Deployment}

theorem deliver (h : d.Alike d') (hs : d.Sound) (hs' : d'.Sound) (call : Call) :
    (d'.deliver call).1.taken = (d.deliver call).1.taken ∧
      ((d.deliver call).1.taken = true → (d'.deliver call).1 = (d.deliver call).1) ∧
      (d.deliver call).2.Alike (d'.deliver call).2 := by
  have hh := handled_deliver hs call
  have hh' := handled_deliver hs' call
  cases ht : (d.deliver call).1.taken with
  | true =>
    obtain ⟨e, he, ha⟩ := hh.taken_iff.1 ht
    have hsame := (h.noting call.member e).perform
      (advanceJob_within e.event.eventId e.event.jobId e.eventType) call.member
    rw [← hh.of_accepts he ha, ← hh'.of_accepts he (h.accepts ha)] at hsame
    exact ⟨hsame.1 ▸ ht, fun _ => hsame.1.symm, hsame.2⟩
  | false =>
    have ht' : (d'.deliver call).1.taken = false := by
      apply Bool.eq_false_iff.2
      intro htaken
      obtain ⟨e, he, ha⟩ := hh'.taken_iff.1 htaken
      rw [hh.taken_iff.2 ⟨e, he, h.symm.accepts ha⟩] at ht
      cases ht
    have hd := hh.untaken ht
    have hd' := hh'.untaken ht'
    refine ⟨ht', fun hf => (nomatch hf), ?_⟩
    exact (of_eq hd.1 hd.2).symm.trans (h.trans (of_eq hd'.1 hd'.2))

theorem create (h : d.Alike d') (j industry : String) (p : Phase) (assets : Assets) :
    (d.onStore (·.insertJob ⟨j, industry, p, assets, d.clock⟩)).Alike
      (d'.onStore (·.insertJob ⟨j, industry, p, assets, d'.clock⟩)) := by
  have hinsert (s : MemoryStore) (t : Instant) :
      (s.insertJob ⟨j, industry, p, assets, t⟩).untimed =
        { s.untimed with
          rows := MemoryStore.putRow ⟨⟨j, industry, p, assets, .epoch⟩, [p]⟩ s.untimed.rows } := by
    simp only [MemoryStore.untimed, MemoryStore.insertJob, MemoryStore.map_putRow]
    rfl
  refine ⟨?_, h.bus⟩
  simp only [onStore]
  rw [hinsert, hinsert, h.store]

theorem obey (h : d.Alike d') (hs : d.Sound) (hs' : d'.Sound) (c : Command) :
    [Turn.mk c (d'.obey c).1].filter Turn.kept = [Turn.mk c (d.obey c).1].filter Turn.kept ∧
      (d.obey c).2.Alike (d'.obey c).2 := by
  have hstore (f : MemoryStore → MemoryStore) (hf : ∀ s, (f s).untimed = f s.untimed) :
      (d.onStore f).Alike (d'.onStore f) := by
    refine ⟨?_, h.bus⟩
    simp only [onStore]
    rw [hf, hf, h.store]
  have hbus (f : RecordingBus → RecordingBus) (hf : ∀ b, (f b).untimed = f b.untimed) :
      (d.onBus f).Alike (d'.onBus f) := by
    refine ⟨h.store, ?_⟩
    simp only [onBus]
    rw [hf, hf, h.bus]
  cases c with
  | create j industry p assets => exact ⟨rfl, h.create j industry p assets⟩
  | fail op j => exact ⟨rfl, hstore (·.fail op j) fun _ => rfl⟩
  | recover => exact ⟨rfl, hstore (·.recover) fun _ => rfl⟩
  | interleave j p => exact ⟨rfl, hstore (·.interleave j p) fun _ => rfl⟩
  | refuse topic reason => exact ⟨rfl, hbus (·.refuse topic reason) fun _ => rfl⟩
  | heal => exact ⟨rfl, hbus (·.heal) fun _ => rfl⟩
  | deliver call =>
    obtain ⟨htaken, hsame, halike⟩ := h.deliver hs hs' call
    refine ⟨?_, halike⟩
    cases ht : (d.deliver call).1.taken with
    | true => simp [Deployment.obey, Turn.kept, ht, hsame ht]
    | false => simp [Deployment.obey, Turn.kept, ht, htaken]

theorem of_not_kept (hs : d.Sound) {c : Command} (h : (Turn.mk c (d.obey c).1).kept = false) :
    d.Alike (d.obey c).2 := by
  cases c with
  | create | fail | recover | interleave | refuse | heal => cases h
  | deliver call =>
    have hsame := (handled_deliver hs call).untaken (by simpa [Turn.kept, Deployment.obey] using h)
    exact of_eq hsame.1 hsame.2

end Deployment.Alike

/-- `t'` is what is left of `t` without some of the deliveries that were not taken. -/
inductive Thinned : List Turn → List Turn → Prop
  | nil : Thinned [] []
  | keep {t t' : List Turn} (x : Turn) (h : Thinned t t') : Thinned (x :: t) (x :: t')
  | drop {t t' : List Turn} (x : Turn) (hx : x.kept = false) (h : Thinned t t') :
      Thinned (x :: t) t'

theorem thinned_filter (t : List Turn) : Thinned t (t.filter Turn.kept) := by
  induction t with
  | nil => exact .nil
  | cons x t ih =>
    cases hx : x.kept with
    | true =>
      rw [List.filter_cons_of_pos hx]
      exact .keep x ih
    | false =>
      rw [List.filter_cons_of_neg (by simp [hx])]
      exact .drop x hx ih

namespace Deployment
variable {d d' : Deployment} {script : List Command} {t : List Turn}

theorem length_transcript (d : Deployment) (script : List Command) :
    (d.transcript script).length = script.length := by
  induction script generalizing d with
  | nil => rfl
  | cons c cs ih => simp [transcript, ih]

theorem Alike.transcript (h : d.Alike d') (hs : d.Sound) (hs' : d'.Sound)
    (ht : Thinned (d.transcript script) t) :
    (d'.transcript (t.map Turn.command)).filter Turn.kept =
        (d.transcript script).filter Turn.kept ∧
      (d.follow script).Alike (d'.follow (t.map Turn.command)) := by
  induction script generalizing d d' t with
  | nil =>
    cases ht
    exact ⟨rfl, h⟩
  | cons c cs ih =>
    cases ht with
    | keep x hrest =>
      have hnow := h.obey hs hs' c
      have hlater := ih hnow.2 (hs.obey c) (hs'.obey c) hrest
      refine ⟨?_, hlater.2⟩
      have hsplit (y : Turn) (ys : List Turn) :
          (y :: ys).filter Turn.kept = [y].filter Turn.kept ++ ys.filter Turn.kept :=
        List.filter_append [y] ys
      simp only [List.map_cons, Deployment.transcript]
      rw [hsplit, hnow.1, hlater.1, ← hsplit]
    | drop x hx hrest =>
      have hlater := ih ((of_not_kept hs hx).symm.trans h) (hs.obey c) hs' hrest
      refine ⟨?_, hlater.2⟩
      rw [hlater.1, Deployment.transcript, List.filter_cons_of_neg (by simp [hx])]

end Deployment

/-- Deliveries that are not taken might as well never have come. If all of them are erased from a script,
what is left has the same outcomes and comes to the same; and if only some are erased, it still does, as
far as deliveries are taken. An event that is recorded is never taken again, and a failed attempt to
record one leaves nothing behind. -/
theorem untaken_invisible (capacities : List Nat) (clock : Instant) (script : List Command) :
    let d := Deployment.ofCapacities capacities clock
    let kept := (d.transcript script).filter Turn.kept
    (d.transcript (kept.map Turn.command) = kept ∧
        (d.follow script).Alike (d.follow (kept.map Turn.command))) ∧
      (∀ t, Thinned (d.transcript script) t →
        (d.transcript (t.map Turn.command)).filter Turn.kept = kept ∧
          (d.follow script).Alike (d.follow (t.map Turn.command))) ∧
      (∀ call e, call.errand? = some e → (d.follow script).store.recorded e.event.eventId = true →
        ∀ more, ((d.follow (script ++ more)).deliver call).1.taken = false) ∧
      ∀ call cause, ((d.follow script).deliver call).1 = .storageFailed cause →
        ((d.follow script).deliver call).2 = (d.follow script).tick := by
  intro d kept
  have hs : d.Sound := Deployment.sound_ofCapacities capacities clock
  have hthin (t : List Turn) (ht : Thinned (d.transcript script) t) :
      (d.transcript (t.map Turn.command)).filter Turn.kept = kept ∧
        (d.follow script).Alike (d.follow (t.map Turn.command)) :=
    (Deployment.Alike.refl d).transcript hs hs ht
  -- The second run has nothing to erase any more, as it is no longer than what is kept of it.
  have hall := hthin kept (thinned_filter _)
  have hlength : ((d.transcript (kept.map Turn.command)).filter Turn.kept).length =
      (d.transcript (kept.map Turn.command)).length := by
    rw [hall.1, Deployment.length_transcript, List.length_map]
  refine ⟨⟨?_, hall.2⟩, hthin, ?_, ?_⟩
  · rw [← List.filter_eq_self.2 (List.length_filter_eq_length_iff.1 hlength), hall.1]
  · intro call e he hr more
    rw [d.follow_append]
    have hsound := (hs.follow script).follow more
    have hr' := Deployment.recorded_of_prefix
      (Deployment.ledger_follow (hs.follow script) more) hr
    apply Bool.eq_false_iff.2
    intro ht
    obtain ⟨e', he', ha⟩ := (Deployment.handled_deliver hsound call).taken_iff.1 ht
    cases he.symm.trans he'
    rw [ha.new] at hr'
    cases hr'
  · intro call cause ho
    have hh := Deployment.handled_deliver (hs.follow script) call
    generalize (d.follow script).deliver call = y at hh ho
    cases hh with
    | rejected | seen | known | homeless => cases ho
    | failed => rfl
    | taken he ha =>
      have ht := ha.taken call.member
      rw [ho] at ht
      cases ht

end PhaseKeeper
