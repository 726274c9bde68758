import Mathlib.Data.List.Nodup
import PhaseKeeper.Proofs.Handling.Trail
import PhaseKeeper.Proofs.Interleaving.Ascent
/-!
How often a job is asked to be matched. Each handling asks once at most: it has moved the job to
matching by a swap of its own, of which there is one for a job, or it has found the job there. So
every request but one goes back to an event of its own.
-/
namespace PhaseKeeper
open Footmark

def Deed.footmark? (deed : Deed) : Option Footmark := Footmark.of deed.request deed.reply

namespace Answered
variable {r : Request} {d d' : Deployment} {x : r.Reply}

theorem of_recorded (h : Answered r d x d') (ht : Footmark.of r x = some .recorded) :
    ∃ e, r = .store (.insertEvent e) ∧ d.store.Recorded e d'.store := by
  unfold Footmark.of at ht
  split at ht
  · exact ⟨_, rfl, h.recorded rfl⟩
  · cases ht
  · cases ht
  · cases ht
  · simp only [Option.some.injEq] at ht
    split at ht <;> cases ht
  · cases ht

theorem of_swapped {p q : Phase} (h : Answered r d x d') (hp : d.store.pending = [])
    (ht : Footmark.of r x = some (.swapped p q true)) :
    ∃ j, r = .store (.swapPhase j p q) ∧ d.store.Moved j p q d'.store := by
  unfold Footmark.of at ht
  split at ht
  · cases ht
  · cases ht
  · rename_i j p' q' x
    simp only [Option.some.injEq, Footmark.swapped.injEq] at ht
    obtain ⟨rfl, rfl, hx⟩ := ht
    refine ⟨j, rfl, h.moved hp ?_⟩
    obtain cause | b := x
    · cases hx
    · exact congrArg Except.ok hx
  · cases ht
  · simp only [Option.some.injEq] at ht
    split at ht <;> cases ht
  · cases ht

end Answered

theorem Request.Serves.of_requested {id j t : String} {r : Request} {x : r.Reply}
    (h : r.Serves id j t) (ht : Footmark.of r x = some .requested) :
    ∃ industry, r = .publish (MatchRequest.ofJob j industry).draft := by
  unfold Footmark.of at ht
  split at ht
  · cases ht
  · cases ht
  · cases ht
  · cases ht
  · rename_i draft _
    obtain h | h | ⟨industry, h⟩ := h
    · exact h.elim
    · cases h
      have hn : (JobCompleted.mk j).draft.topic ≠ Topic.matchRequest := by
        change Topic.jobCompleted ≠ Topic.matchRequest
        decide
      simp [hn] at ht
    · exact ⟨industry, congrArg _ h⟩
  · cases ht

namespace Crew
variable {c : Crew} {i k : Nat} {j : String} {e : Errand}

def trail (c : Crew) (i : Nat) : List Footmark := (c.deedsOf i).filterMap Deed.footmark?

theorem mem_trail {mark : Footmark} :
    mark ∈ c.trail i ↔ ∃ deed ∈ c.log, deed.handler = i ∧ deed.footmark? = some mark := by
  simp [trail, deedsOf, List.mem_filterMap, and_assoc]

theorem trail_snoc (d : Deployment) (hs : List Handler) (deed : Deed) (k : Nat) :
    Crew.trail ⟨d, hs, c.log ++ [deed]⟩ k =
      c.trail k ++ if deed.handler = k then deed.footmark?.toList else [] := by
  simp only [trail, deedsOf, deedsOf_snoc, List.filterMap_append]
  split
  · cases h : deed.footmark? <;> simp [h]
  · rfl

theorem treading_terms : Terms (fun e => Pact.treading e.eventType) [] (fun _ _ _ => True)
    (·.store.pending = []) where
  valid _ := trivial
  pending hv := hv
  rely _ := trivial
  starts e _ _ := Pact.treads_handleAccepted e.event
  kept hv _ hx _ := hx.pending hv

/-- All handlers leave only permitted marks. -/
abbrev Treading (c : Crew) : Prop :=
  c.Upholds (fun e => Pact.treading e.eventType) [] (fun _ _ _ => True) (·.store.pending = [])

theorem treading_notes (t : String) (trail : List Footmark) (log : List Deed) :
    (Pact.treading t).notes trail log = trail ++ log.filterMap Deed.footmark? := by
  induction log generalizing trail with
  | nil => simp [Pact.notes]
  | cons deed log ih =>
    change (Pact.treading t).notes (trail ++ deed.footmark?.toList) log = _
    rw [ih]
    cases h : deed.footmark? <;> simp [h]

/-- Everybody has only done what was permitted, and the log is in the order of time. -/
structure Orderly (c : Crew) : Prop where
  sound : ∀ {i e}, c.errand? i = some e → Sound e.eventType (c.trail i)
  past : ∀ {deed}, deed ∈ c.log → deed.after.store.Later c.deployment.store
  order : c.log.Pairwise fun x y => x.after.store.Later y.before.store

theorem Orderly.fresh (d : Deployment) : (Crew.fresh d).Orderly where
  sound he := by simp [errand?, Crew.fresh] at he
  past hd := by simp [Crew.fresh] at hd
  order := .nil

theorem Orderly.step (ho : c.Orderly)
    (hc : c.Treading) (m : Move) : (c.step m).Orderly := by
  have hs := c.step_cases m
  generalize c.step m = c' at hs
  cases hs with
  | disturbed =>
    exact ⟨ho.sound, fun hd => (ho.past hd).trans (m.disturb_later c.deployment), ho.order⟩
  | delivered call =>
    refine ⟨fun {i e} he => ?_, ho.past, ho.order⟩
    obtain ⟨h, hi, hcall⟩ := handler_of_errand he
    obtain hi | ⟨rfl, rfl⟩ := handlers_snoc hi
    · exact ho.sound ((errand_of_handler hi).trans hcall)
    · have hnew : c.trail c.handlers.length = [] := by rw [trail, hc.proper.deedsOf_new]; rfl
      have hsame : Crew.trail { c with handlers := c.handlers ++ [⟨call, call.handling⟩] }
          c.handlers.length = c.trail c.handlers.length := rfl
      rw [hsame, hnew]
      exact sound_nil
  | @acted i h r next x d hi hr hx =>
    obtain ⟨e, he, hserves, -⟩ := hc.proper.acts hi hr
    have hl := hx.later hc.holds hserves
    refine ⟨fun {k e'} hk => ?_, fun {deed} hd => ?_, ?_⟩
    · -- Only the trail of the handler that acts grows, by a mark that its pact permits.
      have hduty := (hc.acts treading_terms hi he hr hx).1
      rw [treading_notes, List.nil_append] at hduty
      obtain ⟨h', hk, hcall⟩ := handler_of_errand hk
      rw [handlers_set hi] at hk
      rw [trail_snoc]
      by_cases hki : k = i
      · subst hki
        rw [if_pos rfl] at hk ⊢
        cases hk
        obtain rfl : e = e' := Option.some.inj (he.symm.trans hcall)
        have hold := ho.sound ((errand_of_handler hi).trans he)
        simp only [Deed.footmark?]
        cases ht : Footmark.of r x with
        | none => simpa using hold
        | some mark => simpa using hold.snoc (hduty mark ht)
      · rw [if_neg hki] at hk
        rw [if_neg fun hik => hki hik.symm, List.append_nil]
        exact ho.sound ((errand_of_handler hk).trans hcall)
    · obtain hd | hd := List.mem_append.1 hd
      · exact (ho.past hd).trans hl
      · rw [List.mem_singleton.1 hd]
        exact .refl _
    · refine List.pairwise_append.2 ⟨ho.order, List.pairwise_singleton _ _, fun y hy z hz => ?_⟩
      rw [List.mem_singleton.1 hz]
      exact ho.past hy

theorem Orderly.run (ho : c.Orderly)
    (hc : c.Treading) (moves : List Move) : (c.run moves).Orderly := by
  induction moves generalizing c with
  | nil => exact ho
  | cons m ms ih =>
    refine ih (ho.step hc m) (hc.step treading_terms ?_)
    exact (m.disturb_pending c.deployment).trans hc.holds

/-- What cannot be done again after it was done is done by one deed at most. -/
theorem Orderly.unique (ho : c.Orderly) {P : Deed → Prop}
    (hP : ∀ {x y : Deed}, x.after.store.Later y.before.store → P x → ¬ P y) {x y : Deed}
    (hx : x ∈ c.log) (hy : y ∈ c.log) (px : P x) (py : P y) : x = y := by
  by_contra hne
  have hpair : c.log.Pairwise fun x y => ¬ (P x ∧ P y) :=
    ho.order.imp fun hl => fun ⟨px, py⟩ => hP hl px py
  have : Std.Symm fun x y => ¬ (P x ∧ P y) := ⟨fun _ _ h hs => h ⟨hs.2, hs.1⟩⟩
  exact hpair.forall hx hy hne ⟨px, py⟩

theorem Treading.mover (hc : c.Treading) (he : c.errand? i = some e) {p q : Phase}
    (hm : .swapped p q true ∈ c.trail i) :
    ∃ deed ∈ c.log, deed.handler = i ∧
      deed.before.store.Moved e.event.jobId p q deed.after.store := by
  obtain ⟨deed, hd, rfl, ht⟩ := mem_trail.1 hm
  obtain ⟨hx, e', he', hserves⟩ := hc.proper.log hd
  obtain rfl := Option.some.inj (he.symm.trans he')
  obtain ⟨k, hr, hmoved⟩ := hx.of_swapped (hc.held hd) ht
  rw [hr] at hserves
  exact ⟨deed, hd, rfl, hserves.1 ▸ hmoved⟩

theorem Treading.recorder (hc : c.Treading) (he : c.errand? i = some e)
    (hm : .recorded ∈ c.trail i) :
    ∃ deed ∈ c.log, deed.handler = i ∧ ∃ entry, entry.eventId = e.event.eventId ∧
      entry.jobId = e.event.jobId ∧ entry.eventType = e.eventType ∧
        deed.before.store.Recorded entry deed.after.store := by
  obtain ⟨deed, hd, rfl, ht⟩ := mem_trail.1 hm
  obtain ⟨hx, e', he', hserves⟩ := hc.proper.log hd
  obtain rfl := Option.some.inj (he.symm.trans he')
  obtain ⟨entry, hr, hrec⟩ := hx.of_recorded ht
  rw [hr] at hserves
  exact ⟨deed, hd, rfl, entry, hserves.1, hserves.2.1, hserves.2.2, hrec⟩

theorem Orderly.mover_unique (ho : c.Orderly) (hc : c.Treading) {e' : Errand} {p q : Phase}
    (hlt : p < q) (he : c.errand? i = some e) (he' : c.errand? k = some e')
    (hj : e.event.jobId = e'.event.jobId) (hi : .swapped p q true ∈ c.trail i)
    (hk : .swapped p q true ∈ c.trail k) : i = k := by
  obtain ⟨x, hx, rfl, mx⟩ := hc.mover he hi
  obtain ⟨y, hy, rfl, my⟩ := hc.mover he' hk
  have hxy : x = y := by
    refine ho.unique (P := fun deed => deed.before.store.Moved e.event.jobId p q deed.after.store)
      (fun hl px py => ?_) hx hy mx (hj ▸ my)
    obtain ⟨p', hp', hle⟩ := hl.phase px.phase
    obtain rfl := Option.some.inj (hp'.symm.trans py.was)
    exact Phase.not_lt_of_le hle hlt
  rw [hxy]

theorem Orderly.recorder_unique (ho : c.Orderly) (hc : c.Treading) {e' : Errand}
    (he : c.errand? i = some e) (he' : c.errand? k = some e')
    (hid : e.event.eventId = e'.event.eventId)
    (hi : .recorded ∈ c.trail i) (hk : .recorded ∈ c.trail k) : i = k := by
  obtain ⟨x, hx, rfl, a, ha, -, -, ra⟩ := hc.recorder he hi
  obtain ⟨y, hy, rfl, b, hb, -, -, rb⟩ := hc.recorder he' hk
  have hxy : x = y := by
    refine ho.unique (P := fun deed => ∃ entry, entry.eventId = e.event.eventId ∧
      deed.before.store.Recorded entry deed.after.store) (fun hl px py => ?_) hx hy
      ⟨a, ha, ra⟩ ⟨b, hb.trans hid.symm, rb⟩
    obtain ⟨a, ha, ra⟩ := px
    obtain ⟨b, hb, rb⟩ := py
    have hrec := hl.recorded ra.recorded
    rw [ha, ← hb, rb.fresh] at hrec
    cases hrec
  rw [hxy]

/-- How often it was tried to send a request to match the job. -/
def requests (c : Crew) (j : String) : Nat :=
  c.log.countP fun deed =>
    deed.footmark? = some .requested ∧ (c.errand? deed.handler).any (·.event.jobId = j)

/-- A handling of the recorded event `id` found the job in the phase `p`. -/
def Began (c : Crew) (j : String) (p : Phase) (id : String) : Prop :=
  ∃ i e, c.errand? i = some e ∧ e.event.eventId = id ∧ e.event.jobId = j ∧
    .found (some p) ∈ c.trail i ∧ c.deployment.store.Holds id j e.eventType

def askers (c : Crew) (j : String) : List Nat :=
  (c.log.filter fun deed => deed.footmark? = some .requested ∧
    (c.errand? deed.handler).any (·.event.jobId = j)).map Deed.handler

theorem length_askers (c : Crew) (j : String) : (c.askers j).length = c.requests j := by
  rw [askers, List.length_map, requests, List.countP_eq_length_filter]

theorem mem_askers (h : i ∈ c.askers j) :
    ∃ e, c.errand? i = some e ∧ e.event.jobId = j ∧ .requested ∈ c.trail i := by
  obtain ⟨deed, hd, rfl⟩ := List.mem_map.1 h
  simp only [List.mem_filter, decide_eq_true_eq, Option.any_eq_true] at hd
  obtain ⟨hd, ht, e, he, hj⟩ := hd
  exact ⟨e, he, by simpa using hj, mem_trail.2 ⟨deed, hd, rfl, ht⟩⟩

theorem Orderly.nodup_askers (ho : c.Orderly) (j : String) : (c.askers j).Nodup := by
  refine List.nodup_iff_count_le_one.2 fun i => ?_
  by_cases hi : i ∈ c.askers j
  · obtain ⟨e, he, -⟩ := mem_askers hi
    refine le_trans ?_ (ho.sound he).count_requested
    rw [askers, trail, deedsOf, List.count_eq_countP, List.countP_map, List.countP_filter,
      List.count_eq_countP, List.countP_filterMap, List.countP_filter]
    refine List.countP_mono_left fun deed _ h => ?_
    simp only [Function.comp_apply, Bool.and_eq_true, beq_iff_eq, decide_eq_true_eq] at h ⊢
    simp [h]
  · rw [List.count_eq_zero.2 hi]
    omega

theorem Orderly.began (ho : c.Orderly) (hc : c.Treading) (he : c.errand? i = some e)
    (hr : .requested ∈ c.trail i)
    (hn : .swapped .featureExtraction .matching true ∉ c.trail i) :
    .recorded ∈ c.trail i ∧ c.Began e.event.jobId .matching e.event.eventId := by
  obtain ⟨before, after, hsplit⟩ := List.append_of_mem hr
  have hs := ho.sound he
  have hmem {mark : Footmark} (h : mark ∈ before) : mark ∈ c.trail i := by simp [hsplit, h]
  obtain ⟨-, -, -, hm | ⟨hf, -, -⟩⟩ := hs before _ after hsplit
  · exact absurd (hmem hm) hn
  · have hrec := hs.recorded (hmem hf)
    obtain ⟨deed, hd, -, entry, hid, hj, ht, hentry⟩ := hc.recorder he hrec
    exact ⟨hrec, i, e, he, rfl, rfl, hmem hf,
      hid ▸ hj ▸ ht ▸ hentry.holds.later (ho.past hd)⟩

def hasMatched (c : Crew) (i : Nat) : Bool := .swapped .featureExtraction .matching true ∈ c.trail i

def eventId (c : Crew) (i : Nat) : String := ((c.errand? i).map (·.event.eventId)).getD ""

theorem Orderly.mover_le_one (ho : c.Orderly) (hc : c.Treading) (j : String) :
    ((c.askers j).filter c.hasMatched).length ≤ 1 := by
  have hsame : ∀ a ∈ (c.askers j).filter c.hasMatched,
      ∀ b ∈ (c.askers j).filter c.hasMatched, a = b := by
    intro a ha b hb
    obtain ⟨ha, hma⟩ := List.mem_filter.1 ha
    obtain ⟨hb, hmb⟩ := List.mem_filter.1 hb
    obtain ⟨e, he, hj, -⟩ := mem_askers ha
    obtain ⟨e', he', hj', -⟩ := mem_askers hb
    exact ho.mover_unique hc (by decide) he he' (hj.trans hj'.symm) (of_decide_eq_true hma)
      (of_decide_eq_true hmb)
  have hnodup := (ho.nodup_askers j).filter c.hasMatched
  generalize (c.askers j).filter c.hasMatched = l at hsame hnodup
  match l with
  | [] | [_] => simp
  | a :: b :: r =>
    have hab := hsame a (by simp) b (by simp)
    simp [hab] at hnodup

/-- All requests but one go back to different events, whose handling began in the matching phase. -/
theorem Orderly.bounded (ho : c.Orderly) (hc : c.Treading) (j : String) :
    ∃ ids : List String, ids.Nodup ∧ (∀ id ∈ ids, c.Began j .matching id) ∧
      c.requests j ≤ ids.length + 1 := by
  have hlate : ∀ i ∈ (c.askers j).filter (!c.hasMatched ·), ∃ e, c.errand? i = some e ∧
      c.eventId i = e.event.eventId ∧ .recorded ∈ c.trail i ∧
        c.Began j .matching e.event.eventId := by
    intro i hi
    obtain ⟨hi, hm⟩ := List.mem_filter.1 hi
    obtain ⟨e, he, rfl, hr⟩ := mem_askers hi
    exact ⟨e, he, by simp [eventId, he], ho.began hc he hr (by simpa [hasMatched] using hm)⟩
  refine ⟨((c.askers j).filter (!c.hasMatched ·)).map c.eventId, ?_, fun id hid => ?_, ?_⟩
  · refine ((ho.nodup_askers j).filter _).map_on fun a ha b hb hab => ?_
    obtain ⟨e, he, hid, hr, -⟩ := hlate a ha
    obtain ⟨e', he', hid', hr', -⟩ := hlate b hb
    exact ho.recorder_unique hc he he' (hid ▸ hid' ▸ hab) hr hr'
  · obtain ⟨i, hi, rfl⟩ := List.mem_map.1 hid
    obtain ⟨e, -, hid, -, hb⟩ := hlate i hi
    rw [hid]
    exact hb
  · have hlen := List.length_eq_length_filter_add (l := c.askers j) c.hasMatched
    have hone := ho.mover_le_one hc j
    rw [length_askers] at hlen
    rw [List.length_map]
    omega

/-- Requests to match the job are accounted for. -/
structure Solicited (c : Crew) (j : String) : Prop where
  /-- One handling makes one attempt at most. -/
  once : ∀ {i e}, c.errand? i = some e → (c.trail i).count .requested ≤ 1
  /-- It makes one only if it has moved the job to matching, or has found it there, on an event that
  does not tell of matching, and does not move it at all. -/
  earned : ∀ {i e before after}, c.errand? i = some e → c.trail i = before ++ .requested :: after →
    .swapped .featureExtraction .matching true ∈ before ∨
      .found (some .matching) ∈ before ∧ e.eventType ≠ Topic.matchings ∧
        ∀ p q won, .swapped p q won ∉ c.trail i
  /-- Every attempt is about the job of the handler. -/
  addressed : ∀ {deed}, deed ∈ c.log → deed.footmark? = some .requested →
    ∃ e industry, c.errand? deed.handler = some e ∧
      deed.request = .publish (MatchRequest.ofJob e.event.jobId industry).draft
  /-- All attempts for a job but one go back to different recorded events, whose handling began in
  the matching phase. -/
  bounded : ∃ ids : List String, ids.Nodup ∧ (∀ id ∈ ids, c.Began j .matching id) ∧
    c.requests j ≤ ids.length + 1
  /-- After a swap that was lost a handling looks nothing up for a request, sends nothing and moves
  nothing. -/
  silenced : ∀ {i e before after p q}, c.errand? i = some e →
    c.trail i = before ++ .swapped p q false :: after → after = []

theorem Orderly.solicited (ho : c.Orderly) (hc : c.Treading) (j : String) : c.Solicited j where
  once he := (ho.sound he).count_requested
  earned {i e before after} he hsplit := by
    have hs := ho.sound he
    rw [hsplit] at hs ⊢
    obtain ⟨-, -, hp, hm | ⟨hf, ht, hn⟩⟩ := hs before _ after rfl
    · exact .inl hm
    · exact .inr ⟨hf, ht, hs.no_swap hp hn⟩
  addressed {deed} hd ht := by
    obtain ⟨-, e, he, hserves⟩ := hc.proper.log hd
    obtain ⟨industry, hr⟩ := hserves.of_requested ht
    exact ⟨e, industry, he, hr⟩
  bounded := ho.bounded hc j
  silenced he hsplit := (hsplit ▸ ho.sound he).lost_last

end Crew

/-- Whatever is delivered how often, in whatever order the requests come, and whatever fails: a
handling asks once at most for its job to be matched, and there is one request more at most for a
job than there are recorded events whose handling began in the matching phase. -/
theorem requests_accounted (capacities : List Nat) (clock : Instant) (moves : List Move)
    (j : String) : ((Crew.fresh (.ofCapacities capacities clock)).run moves).Solicited j := by
  have hstart : (Crew.fresh (.ofCapacities capacities clock)).Treading := .fresh _ rfl
  have hc : ((Crew.fresh _).run moves).Treading := hstart.run Crew.treading_terms
    fun m _ d hd => (m.disturb_pending d).trans hd
  exact ((Crew.Orderly.fresh _).run hstart moves).solicited hc j

end PhaseKeeper
