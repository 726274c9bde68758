import Mathlib.Tactic.Common
import PhaseKeeper.Proofs.Message.Envelope
import PhaseKeeper.Proofs.Message.Notices
import PhaseKeeper.Proofs.Sequence.Script
/-!
What goes out, over every interleaving and also while someone else writes phases. A handler sends a
message only when its event is recorded, and only about the job of that event; and what it sends can be
read by whoever gets it.
-/
namespace PhaseKeeper

namespace MemoryStore
variable {s s' s'' : MemoryStore} {j : String}

def industryOf? (s : MemoryStore) (j : String) : Option String := (s.job? j).map Job.industry

/-- What holds from one moment to a later one, whoever makes calls or writes phases meanwhile. -/
structure Lasts (s s' : MemoryStore) : Prop where
  ledger : s.ledger <+: s'.ledger
  industry : ∀ {j industry : String}, s.industryOf? j = some industry → s'.industryOf? j = some industry

theorem Lasts.refl (s : MemoryStore) : s.Lasts s := ⟨List.prefix_rfl, fun h => h⟩

theorem Lasts.trans (h : s.Lasts s') (k : s'.Lasts s'') : s.Lasts s'' :=
  ⟨h.ledger.trans k.ledger, fun hj => k.industry (h.industry hj)⟩

theorem Later.lasts (h : s.Later s') : s.Lasts s' where
  ledger := h.ledger
  industry := by
    intro j industry hj
    obtain ⟨job, hjob, rfl⟩ := Option.map_eq_some_iff.1 hj
    obtain ⟨job', hjob', -, hindustry, -⟩ := h.job hjob
    rw [industryOf?, hjob', Option.map_some, hindustry]

theorem Spares.lasts (h : Spares j s s') : s.Lasts s' where
  ledger := h.ledger ▸ List.prefix_rfl
  industry := by
    intro k industry hk
    by_cases hkj : k = j
    · subst hkj
      exact h.industry.trans hk
    · simpa only [industryOf?, job?, h.other hkj] using hk

end MemoryStore

open MemoryStore (Lasts)

theorem Answered.lasts {r : Request} {d d' : Deployment} {x : r.Reply} (h : Answered r d x d') :
    d.store.Lasts d'.store := by
  by_cases hw : r.writes = false
  · rw [h.store_eq hw]
    exact .refl _
  · cases r with
    | store c =>
      cases c with
      | swapPhase j p q =>
        cases h
        exact (MemoryStore.Spares.answer (c := .swapPhase j p q) (by simp) d.clock d.store).lasts
      | insertEvent e =>
        by_cases hx : x = .ok ()
        · exact (h.recorded hx).later.lasts
        · rw [h.unrecorded hx]
          exact .refl _
      | phaseOf | hasEvent | assetsOf | industryOf => exact absurd rfl hw
    | lookUp | remember | now | publish | report => exact absurd rfl hw

theorem Answered.industryOf {j industry : String} {d d' : Deployment}
    (h : Answered (.store (.industryOf j)) d (.ok industry) d') :
    d.store.industryOf? j = some industry := by
  generalize hx : (Except.ok industry : Except StoreFault String) = x at h
  cases h
  change Except.ok industry = (d.store.answer d.clock (.industryOf j)).1 at hx
  unfold MemoryStore.answer at hx
  split at hx
  · cases hx
  · simp only [MemoryStore.perform] at hx
    split at hx
    · rename_i job hjob
      cases hx
      simp [MemoryStore.industryOf?, hjob]
    · cases hx

namespace Errand

def Filed (e : Errand) (s : MemoryStore) : Prop :=
  ∃ entry ∈ s.ledger, entry.eventId = e.event.eventId ∧ entry.jobId = e.event.jobId ∧
    entry.eventType = e.eventType

theorem Filed.later {e : Errand} {s s' : MemoryStore} (h : e.Filed s) (hl : s.Lasts s') :
    e.Filed s' := by
  obtain ⟨entry, hmem, hentry⟩ := h
  exact ⟨entry, hl.ledger.subset hmem, hentry⟩

inductive MaySend (e : Errand) (s : MemoryStore) : Draft → Prop where
  | request {industry : String} (h : s.industryOf? e.event.jobId = some industry) :
    e.MaySend s (MatchRequest.ofJob e.event.jobId industry).draft
  | notice : e.MaySend s (JobCompleted.mk e.event.jobId).draft

end Errand

namespace Pact

/-- To send only what the errand calls for, once its event is recorded. -/
def speaking (e : Errand) : Pact Unit where
  valid _ := True
  rely d d' := d.store.Lasts d'.store
  duty _ r d _ _ := ∀ draft, r = .publish draft → e.Filed d.store ∧ e.MaySend d.store draft
  note _ _ _ _ _ := ()
  refl d := .refl d.store
  trans := Lasts.trans

variable {e : Errand} {d : Deployment}

theorem speaking_quiet {r : Request} (hr : ∀ draft, r ≠ .publish draft) : (speaking e).Quiet r where
  duty _ _ draft h := absurd h (hr draft)
  note _ _ := rfl
  rely _ hx := hx.lasts

theorem Keeps.lasting {α : Type} {p : Handling α} {post : α → Unit → Deployment → Prop}
    (h : (speaking e).Keeps post p () d) :
    (speaking e).Keeps (fun a n d' => post a n d' ∧ d.store.Lasts d'.store) p () d := by
  suffices ∀ start : Deployment, start.store.Lasts d.store →
      (speaking e).Keeps (fun a n d' => post a n d' ∧ start.store.Lasts d'.store) p () d from
    this d (.refl _)
  induction p generalizing d with
  | done a => exact fun start hs d₁ hv h₁ => ⟨h d₁ hv h₁, hs.trans h₁⟩
  | ask r next ih =>
    intro start hs d₁ hv h₁ x d₂ hx
    exact ⟨(h d₁ hv h₁ x d₂ hx).1,
      ih x (h d₁ hv h₁ x d₂ hx).2 start (hs.trans (h₁.trans hx.lasts))⟩

theorem speaks_report {α : Type} (i : Incident) (a : α) :
    (speaking e).Keeps (fun _ _ _ => True) (do ask (.report i); return a) () d :=
  .ask fun _ _ _ _ _ _ => ⟨nofun, fun _ _ _ => trivial⟩

theorem speaks_sendRequest (h : e.Filed d.store) :
    (speaking e).Keeps (fun _ _ _ => True) (sendRequest e.event.jobId) () d := by
  refine .ask fun d₁ _ h₁ x d₂ hx => ⟨nofun, ?_⟩
  cases x with
  | error cause => exact fun _ _ _ _ _ _ => ⟨nofun, fun _ _ _ => trivial⟩
  | ok industry =>
    have hindustry := hx.lasts.industry hx.industryOf
    refine .ask fun d₃ _ h₃ y d₄ _ => ⟨fun draft hr => ?_, ?_⟩
    · cases hr
      exact ⟨h.later ((h₁.trans hx.lasts).trans h₃), .request (h₃.industry hindustry)⟩
    · cases y with
      | error cause => exact fun _ _ _ _ _ _ => ⟨nofun, fun _ _ _ => trivial⟩
      | ok => exact fun _ _ _ => trivial

theorem speaks_announce (h : e.Filed d.store) :
    (speaking e).Keeps (fun _ _ _ => True) (announce e.event.jobId) () d := by
  refine .ask fun d₁ _ h₁ x d₂ _ => ⟨fun draft hr => ?_, ?_⟩
  · cases hr
    exact ⟨h.later h₁, .notice⟩
  · cases x with
    | error cause => exact speaks_report _ _
    | ok => exact fun _ _ _ => trivial

theorem speaks_firing (h : e.Filed d.store) {r : Report} (hj : r.jobId = e.event.jobId)
    (effect : Option Effect) :
    (speaking e).Keeps (fun _ _ _ => True) (r.firing effect) () d := by
  obtain _ | effect := effect
  · exact fun _ _ _ => trivial
  · have hfire : (speaking e).Keeps (fun _ _ _ => True) (effect.fire r.jobId) () d := by
      rw [hj]
      cases effect with
      | requestMatching => exact .bind ((speaks_sendRequest h).mono fun _ _ _ _ _ _ _ _ => trivial)
      | announceCompletion => exact speaks_announce h
    refine .bind (hfire.mono fun y _ _ _ _ => ?_)
    cases y <;> exact fun _ _ _ => trivial

theorem speaks_chain {first : Bool} (n : Nat) {r : Report} (hj : r.jobId = e.event.jobId)
    (h : e.Filed d.store) : (speaking e).Keeps (fun _ _ _ => True) (chain first n r) () d := by
  induction n generalizing first r d with
  | zero => exact fun _ _ _ => trivial
  | succ n ih =>
    have hquiet (q : Request) (hq : q.Reads r.jobId) : (speaking e).Quiet q :=
      speaking_quiet fun draft hd => by simp [hd, Request.Reads] at hq
    refine .bind ((Keeps.of_within (nextStep_within _ _ _ _) hquiet).mono ?_)
    rintro x - d₁ - ⟨hx, -, h₁⟩
    obtain cause | _ | effect | ⟨target, effect⟩ := x
    · exact fun _ _ _ => trivial
    · exact fun _ _ _ => trivial
    · exact speaks_firing (h.later h₁) hj _
    · simp only [Phase.ensureForward_of_lt (hx target effect rfl)]
      refine .ask fun d₂ _ h₂ y d₃ hy => ⟨fun _ hr => Request.noConfusion hr, ?_⟩
      have h₃ := h.later ((Lasts.trans h₁ h₂).trans hy.lasts)
      obtain cause | _ | _ := y
      · exact fun _ _ _ => trivial
      · exact fun _ _ _ => trivial
      · have hfire := speaks_firing (r := { r with finish := target }) h₃ hj effect
        refine .bind ((hfire.lasting.within (firing_within _ effect)).mono ?_)
        rintro z - d₄ - ⟨⟨-, -, hz⟩, -, h₄⟩
        cases z with
        | error cause => exact fun _ _ _ => trivial
        | ok r' =>
          dsimp only
          split
          · exact fun _ _ _ => trivial
          · exact ih ((hz r' rfl).1.trans hj) (h₃.later h₄)

theorem speaks_advanceJob (h : e.Filed d.store) (id t : String) :
    (speaking e).Keeps (fun _ _ _ => True) (advanceJob id e.event.jobId t) () d := by
  refine .ask fun d₁ _ h₁ x d₂ hx => ⟨nofun, ?_⟩
  obtain cause | _ | phase := x
  · exact speaks_report _ _
  · exact fun _ _ _ => trivial
  · have h₂ := h.later (Lasts.trans h₁ hx.lasts)
    refine .bind ((speaks_chain longestChain rfl h₂).mono fun y _ _ _ _ => ?_)
    cases y with
    | error cause => exact speaks_report _ _
    | ok => exact fun _ _ _ => trivial

theorem speaks_recordEvent (e : Errand) :
    (speaking e).Keeps (fun x _ d' => x = .recorded → e.Filed d'.store)
      (recordEvent e.event.eventId e.event.jobId e.eventType) () d := by
  refine .ask fun d₁ _ _ hit d₂ _ => ⟨nofun, ?_⟩
  cases hit
  · refine .ask fun d₂ _ _ now d₃ _ => ⟨nofun, .ask fun d₃ _ _ x d₄ hx => ⟨nofun, ?_⟩⟩
    obtain cause | _ := x
    · cases cause with
      | alreadyRecorded => exact fun _ _ _ _ _ _ => ⟨nofun, fun _ _ _ h => nomatch h⟩
      | database | jobNotFound | corrupt | unavailable => exact fun _ _ _ h => nomatch h
    · have hfiled : e.Filed d₄.store := by
        rw [(hx.recorded rfl).eq]
        exact ⟨_, List.mem_append_right _ List.mem_cons_self, rfl, rfl, rfl⟩
      refine .ask fun d₅ _ h₅ _ d₆ hy => ⟨nofun, fun d₇ _ h₇ _ => ?_⟩
      exact hfiled.later ((Lasts.trans h₅ hy.lasts).trans h₇)
  · exact fun _ _ _ h => nomatch h

theorem speaks_handling (e : Errand) :
    (speaking e).Keeps (fun _ _ _ => True) e.handling () d := by
  rw [e.handling_eq]
  refine .bind ((speaks_recordEvent e).mono fun x _ d₁ _ hx => ?_)
  obtain _ | _ | cause := x
  · exact speaks_advanceJob (hx rfl) _ _
  · exact fun _ _ _ => trivial
  · cases cause <;> exact fun _ _ _ => trivial

end Pact

/-- The message was handed to the bus, which may have refused it. -/
def Deed.Hands (deed : Deed) (m : Message) : Prop :=
  ∃ draft random now, deed.request = .publish draft ∧ m = draft.stamp random now

theorem Answered.published {r : Request} {d d' : Deployment} {x : r.Reply}
    (h : Answered r d x d') :
    d'.bus = d.bus ∨ ∃ draft, r = .publish draft ∧
      d'.bus.published = d.bus.published ++ [draft.stamp .nil d.clock] := by
  cases h with
  | refused => exact .inl rfl
  | served member => exact d.answer_published member r

namespace Crew

/-- Everything that can become of a crew, also while someone else writes phases. -/
inductive Lives (d : Deployment) : Crew → Prop where
  | fresh : Lives d (.fresh d)
  | step {c : Crew} (h : Lives d c) (m : Move) : Lives d (c.step m)
  | interleave {c : Crew} (h : Lives d c) (j : String) (p : Phase) :
    Lives d { c with deployment := c.deployment.onStore (·.interleave j p) }

structure Truthful (c : Crew) : Prop where
  proper : c.Proper
  keeps : ∀ {i : Nat} {h : Handler} {e : Errand}, c.handlers[i]? = some h →
    h.call.errand? = some e →
    (Pact.speaking e).Keeps (fun _ _ _ => True) h.rest () c.deployment
  log : ∀ {deed : Deed}, deed ∈ c.log → deed.before.store.Lasts c.deployment.store ∧
    ∀ draft, deed.request = .publish draft → ∃ e, c.errand? deed.handler = some e ∧
      e.Filed deed.before.store ∧ e.MaySend deed.before.store draft
  sent : ∀ {m : Message}, m ∈ c.deployment.bus.published → ∃ deed ∈ c.log, deed.Hands m

variable {c : Crew}

theorem truthful_fresh {d : Deployment} (hd : d.bus.published = []) : (fresh d).Truthful where
  proper := proper_fresh d
  keeps := by simp [fresh]
  log := by simp [fresh]
  sent := by simp [fresh, hd]

theorem Truthful.disturb (hc : c.Truthful) {d : Deployment}
    (hl : c.deployment.store.Lasts d.store) (hb : d.bus = c.deployment.bus) :
    { c with deployment := d }.Truthful where
  proper := ⟨hc.proper.rejected, hc.proper.within, hc.proper.log⟩
  keeps hi he := (hc.keeps hi he).later hl
  log hd := ⟨(hc.log hd).1.trans hl, (hc.log hd).2⟩
  sent hm := hc.sent (hb ▸ hm)

theorem disturb_bus (m : Move) (d : Deployment) : (m.disturb d).bus = d.bus := by
  cases m with
  | create job => obtain h | ⟨-, h⟩ := d.create_cases job <;> rw [Move.disturb, h]
  | _ => rfl

theorem Truthful.step (hc : c.Truthful) (m : Move) : (c.step m).Truthful := by
  have hproper := hc.proper.step m
  have hkeep {k e} : c.errand? k = some e → (c.step m).errand? k = some e := errand_step m
  have hs := c.step_cases m
  generalize c.step m = c' at hs hproper hkeep
  cases hs with
  | disturbed => exact hc.disturb (m.disturb_later _).lasts (disturb_bus m _)
  | delivered call =>
    refine ⟨hproper, fun {i h e} hi he => ?_,
      fun hd => ⟨(hc.log hd).1, fun draft hr => ?_⟩, hc.sent⟩
    · obtain hi | ⟨-, rfl⟩ := handlers_snoc hi
      · exact hc.keeps hi he
      · rw [Call.handling_of_errand he]
        exact Pact.speaks_handling e
    · obtain ⟨e, he, hsend⟩ := (hc.log hd).2 draft hr
      exact ⟨e, hkeep he, hsend⟩
  | @acted i h r next x d hi hr hx =>
    obtain ⟨e, he, -, -⟩ := hc.proper.acts hi hr
    have hnow := hc.keeps hi he
    rw [hr] at hnow
    obtain ⟨hduty, hnext⟩ := hnow c.deployment trivial (.refl _) x d hx
    refine ⟨hproper, fun {k h' e'} hk he' => ?_, fun {deed} hd => ?_, fun {m} hm => ?_⟩
    · rw [handlers_set hi] at hk
      split at hk
      · cases hk
        rw [he] at he'
        cases he'
        exact hnext
      -- To the others it is as if this had happened from outside.
      · exact (hc.keeps hk he').later hx.lasts
    · obtain hd | hd := List.mem_append.1 hd
      · refine ⟨(hc.log hd).1.trans hx.lasts, fun draft hr => ?_⟩
        obtain ⟨e', he', hsend⟩ := (hc.log hd).2 draft hr
        exact ⟨e', hkeep he', hsend⟩
      · rw [List.mem_singleton.1 hd]
        have herrand := hkeep ((errand_of_handler hi).trans he)
        exact ⟨hx.lasts, fun draft hr => ⟨e, herrand, hduty draft hr⟩⟩
    · have hold (hm : m ∈ c.deployment.bus.published) :
          ∃ deed ∈ c.log ++ [⟨i, r, x, c.deployment, d⟩], deed.Hands m := by
        obtain ⟨deed, hd, hands⟩ := hc.sent hm
        exact ⟨deed, List.mem_append_left _ hd, hands⟩
      obtain hb | ⟨draft, hdraft, hb⟩ := hx.published
      · exact hold (hb ▸ hm)
      · obtain hm | hm := List.mem_append.1 (hb ▸ hm)
        · exact hold hm
        · exact ⟨_, List.mem_append_right _ List.mem_cons_self, draft, .nil, _, hdraft,
            List.mem_singleton.1 hm⟩

theorem Lives.truthful {d : Deployment} (h : c.Lives d) (hd : d.bus.published = []) :
    c.Truthful := by
  induction h with
  | fresh => exact truthful_fresh hd
  | step _ m ih => exact ih.step m
  | interleave _ j p ih => exact ih.disturb ⟨List.prefix_rfl, fun h => h⟩ rfl

theorem Lives.run {d : Deployment} (h : c.Lives d) (moves : List Move) : (c.run moves).Lives d := by
  induction moves generalizing c with
  | nil => exact h
  | cons m ms ih => exact ih (h.step m)

end Crew

/-- What a message about the job `j` says and how it looks, given the store at that time. Texts of four
gigabytes and more do not fit the format. -/
structure Message.Informs (m : Message) (j : String) (s : MemoryStore) : Prop where
  content : (m.topic = "match.request" ∧ ∃ industry, s.industryOf? j = some industry ∧
      (MatchRequest.unpack m.payload = .ok ⟨j, industry, j, j⟩ ↔
        (bytesOf j).length < 2 ^ 32 ∧ (bytesOf industry).length < 2 ^ 32)) ∨
    (m.topic = "job.completed" ∧
      (JobCompleted.unpack m.payload = .ok ⟨j⟩ ↔ (bytesOf j).length < 2 ^ 32))
  correlation : m.correlationId = .ofJob j
  version : m.version = 1
  wire : m.timestamp.isValid = true →
    (Message.ofBytes m.toBytes = .ok m ↔ m.payload.length < 2 ^ 32)

theorem Message.wire_iff {m : Message} (htopic : (bytesOf m.topic).length < UInt32.size)
    (htime : m.timestamp.isValid = true) :
    Message.ofBytes m.toBytes = .ok m ↔ m.payload.length < 2 ^ 32 := by
  rw [Message.ofBytes_toBytes_iff]
  exact ⟨fun h => h.payload, fun h => ⟨htopic, h, htime⟩⟩

theorem Errand.MaySend.informs {e : Errand} {s : MemoryStore} {draft : Draft}
    (h : e.MaySend s draft) (random : Uuid) (now : Instant) :
    (draft.stamp random now).Informs e.event.jobId s := by
  cases h with
  | @request industry hindustry =>
    refine ⟨.inl ⟨rfl, industry, hindustry, ?_⟩, rfl, rfl, ?_⟩
    · exact (MatchRequest.unpack_pack_iff _).trans MatchRequest.fits_ofJob
    · exact Message.wire_iff (show (bytesOf Topic.matchRequest).length < _ by decide)
  | notice =>
    refine ⟨.inr ⟨rfl, JobCompleted.unpack_pack_iff _⟩, rfl, rfl, ?_⟩
    exact Message.wire_iff (show (bytesOf Topic.jobCompleted).length < _ by decide)

/-- Whatever is delivered to however many engines, in whatever order their requests come, whatever
fails and whoever else writes phases: every message that is handed to the bus is a request to match the
job of the event being handled, in its industry, or the notice that this job is complete. The event was
recorded before, and neither that nor the industry is ever taken back. -/
theorem outbound_well_formed (capacities : List Nat) (clock : Instant) {c : Crew}
    (h : c.Lives (.ofCapacities capacities clock)) :
    (∀ m ∈ c.deployment.bus.published, ∃ deed ∈ c.log, deed.Hands m) ∧
    ∀ deed ∈ c.log, ∀ m, deed.Hands m → ∃ e, c.errand? deed.handler = some e ∧
      e.Filed deed.before.store ∧ m.Informs e.event.jobId deed.before.store ∧
      deed.before.store.Lasts c.deployment.store := by
  have hc := h.truthful rfl
  refine ⟨fun m hm => hc.sent hm, ?_⟩
  rintro deed hd _ ⟨draft, random, now, hr, rfl⟩
  obtain ⟨hl, hsend⟩ := hc.log hd
  obtain ⟨e, he, hfiled, hmay⟩ := hsend draft hr
  exact ⟨e, he, hfiled, hmay.informs random now, hl⟩

/-- A job without assets goes on to matching at once. Then someone else takes it back. -/
theorem outbound_well_formed_taken_back :
    let moves := Move.opening [Topic.imageKeypoints] ++ List.replicate 20 (.act 0 none)
    let c := (Crew.fresh (.ofCapacities [1] .epoch)).run moves
    let c' := { c with deployment := c.deployment.onStore (·.interleave "job" .collection) }
    ∃ m ∈ c'.deployment.bus.published, m.topic = "match.request" ∧
      MatchRequest.unpack m.payload = .ok ⟨"job", "retail", "job", "job"⟩ ∧
      m.correlationId = .ofJob "job" ∧ m.version = 1 ∧ Message.ofBytes m.toBytes = .ok m := by
  intro moves c c'
  have hlives : c'.Lives (.ofCapacities [1] .epoch) := .interleave (.run .fresh moves) _ _
  have hfacts : c'.deployment.bus.published.map (fun m => (m.topic, m.timestamp.isValid,
      decide (m.payload.length < 2 ^ 32))) = [("match.request", true, true)] := by
    decide +kernel
  obtain ⟨m, hpublished, hm⟩ := List.map_eq_singleton_iff.1 hfacts
  have hmem : m ∈ c'.deployment.bus.published := by simp [hpublished]
  obtain ⟨hhanded, hall⟩ := outbound_well_formed [1] .epoch hlives
  obtain ⟨deed, hd, hands⟩ := hhanded m hmem
  obtain ⟨e, he, -, hinforms, hlasts⟩ := hall deed hd m hands
  have hjob : e.event.jobId = "job" := by
    have hall : c'.handlers.all (fun h => h.call.errand?.all (·.event.jobId = "job")) = true := by
      decide +kernel
    obtain ⟨h, hh, hcall⟩ := Crew.handler_of_errand he
    have hown := List.all_eq_true.1 hall h (List.mem_of_getElem? hh)
    simpa [hcall] using hown
  rw [hjob] at hinforms
  simp only [Prod.mk.injEq, decide_eq_true_eq] at hm
  obtain ⟨htopic, htime, hlength⟩ := hm
  refine ⟨m, hmem, htopic, ?_, hinforms.correlation, hinforms.version,
    (hinforms.wire htime).2 hlength⟩
  obtain ⟨-, industry, hindustry, hread⟩ | ⟨hother, -⟩ := hinforms.content
  · have hretail : c'.deployment.store.industryOf? "job" = some "retail" := by decide +kernel
    obtain rfl : industry = "retail" :=
      Option.some.inj ((hlasts.industry hindustry).symm.trans hretail)
    exact hread.2 (by decide)
  · rw [hother] at htopic
    exact absurd htopic (by decide)

end PhaseKeeper
