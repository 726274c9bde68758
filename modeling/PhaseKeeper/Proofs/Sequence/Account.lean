import PhaseKeeper.Proofs.Sequence.Deeds
/-!
What the outcome of a handling tells, against its deeds. Anything can fail, and others can write phases in
between.
-/
namespace PhaseKeeper

/-- The writes lead from one phase to another, each from where the one before has ended. -/
def Linked : Phase → List (Phase × Phase) → Phase → Prop
  | p, [], q => p = q
  | p, w :: ws, q => w.1 = p ∧ Linked w.2 ws q

theorem Linked.append {p q s : Phase} {ws ws' : List (Phase × Phase)} (h : Linked p ws q)
    (h' : Linked q ws' s) : Linked p (ws ++ ws') s := by
  induction ws generalizing p with
  | nil => exact h ▸ h'
  | cons w ws ih => exact ⟨h.1, ih h.2⟩

theorem Linked.finish_eq {p q : Phase} {ws : List (Phase × Phase)} (h : Linked p ws q) :
    q = (ws.getLast?.map Prod.snd).getD p := by
  induction ws generalizing p with
  | nil => exact h.symm
  | cons w ws ih =>
    rw [ih h.2, List.getLast?_cons]
    cases ws.getLast? <;> rfl

/-- The deeds have brought a handling from the report `r` to the report `r'`. -/
structure Progress (deeds : List Deed) (r r' : Report) : Prop where
  unread : deeds.filterMap Deed.read? = []
  unbeaten : ∀ y ∈ deeds, y.lost = false
  linked : Linked r.finish (deeds.filterMap Deed.write?) r'.finish
  report : r' = { r with finish := r'.finish, effects := r.effects ++ deeds.filterMap Deed.effect? }

namespace Progress
variable {deeds more : List Deed} {r r' r'' : Report} {y : Deed}

theorem of_silent (h : ∀ y ∈ deeds, y.Silent) (r : Report) : Progress deeds r r := by
  refine ⟨reads_silent h, fun y hy => (h y hy).lost, ?_, ?_⟩
  · rw [writes_silent h]
    rfl
  · rw [effects_silent h, List.append_nil]

theorem refl (r : Report) : Progress [] r r := of_silent (List.forall_mem_nil _) r

theorem trans (h : Progress deeds r r') (k : Progress more r' r'') : Progress (deeds ++ more) r r'' where
  unread := by rw [List.filterMap_append, h.unread, k.unread, List.append_nil]
  unbeaten := fun y hy => (List.mem_append.1 hy).elim (h.unbeaten y) (k.unbeaten y)
  linked := by
    rw [List.filterMap_append]
    exact h.linked.append k.linked
  report := by
    rw [k.report, h.report, List.filterMap_append, List.append_assoc]

theorem of_write {q : Phase} (hw : y.write? = some (r.finish, q)) (hr : y.read? = none)
    (hl : y.lost = false) (he : y.effect? = none) : Progress [y] r { r with finish := q } where
  unread := by simp [hr]
  unbeaten := by simpa using hl
  linked := by simp [hw, Linked]
  report := by simp [he]

theorem of_effect {effect : Effect} (he : y.effect? = some effect) (hw : y.write? = none)
    (hr : y.read? = none) (hl : y.lost = false) :
    Progress [y] r { r with effects := r.effects ++ [effect] } where
  unread := by simp [hr]
  unbeaten := by simpa using hl
  linked := by simp [hw, Linked]
  report := by simp [he]

theorem jobId (h : Progress deeds r r') : r'.jobId = r.jobId := by rw [h.report]

end Progress

/-- How a chain of steps ends that began with the report `r`: done, beaten by somebody else in its last
deed, or failed. Unless it was beaten, the job is where the last write has left it. -/
inductive Ends (j : String) (deeds : List Deed) (r : Report) (s : MemoryStore) :
    Except HandlingFault Report → Prop
  | done {r' : Report} (h : Progress deeds r r') (hs : s.phase? j = some r'.finish) :
      Ends j deeds r s (.ok r')
  | beaten {r' : Report} {before : List Deed} {y : Deed} (hd : deeds = before ++ [y])
      (hl : y.lost = true) (h : Progress before r r') : Ends j deeds r s (.ok { r' with conflict := true })
  | failed {r' : Report} {cause : HandlingFault} (h : Progress deeds r r')
      (hs : s.phase? j = some r'.finish)
      (hp : ∀ topic k reason, cause = .publish topic k reason → r'.finish = .completed) :
      Ends j deeds r s (.error cause)

theorem Ends.after {j : String} {deeds more : List Deed} {r r' : Report} {s : MemoryStore}
    {x : Except HandlingFault Report} (hp : Progress deeds r r') (h : Ends j more r' s x) :
    Ends j (deeds ++ more) r s x := by
  cases h with
  | done h hs => exact .done (hp.trans h) hs
  | beaten hd hl h => exact .beaten (by rw [hd, List.append_assoc]) hl (hp.trans h)
  | failed h hs hf => exact .failed (hp.trans h) hs hf

theorem MemoryStore.phase_of_swap {s : MemoryStore} {now : Instant} {j : String} {p q : Phase}
    (h : (s.swap now j p q).1 = true) : (s.swap now j p q).2.phase? j = some q := by
  unfold swap at h ⊢
  split
  · rename_i hr
    simp [hr] at h
  · rename_i r hr
    split
    · rename_i hp
      exact (moved_putRow hr hp now).phase
    · rename_i hp
      simp [hr, hp] at h

namespace Deployment
variable {member : Nat} {d : Deployment} {j : String} {r : Report} {q : Phase} {effect : Option Effect}

theorem deeds_sendRequest (d : Deployment) (member : Nat) (j : String) :
    ∃ x d' rest, d.deeds member (sendRequest j) = ⟨member, .store (.industryOf j), x, d, d'⟩ :: rest ∧
      ∀ y ∈ rest, y.Silent := by
  unfold sendRequest askStore
  rw [deeds_ask]
  refine ⟨_, _, _, rfl, ?_⟩
  generalize d.answer member (.store (.industryOf j)) = y
  obtain ⟨cause | industry, d'⟩ := y
  · apply silent_deeds (R := fun _ => True)
    exact ⟨Request.silent_report _, fun _ => trivial⟩
  · apply silent_deeds (R := fun _ => True)
    refine ⟨Request.silent_request j industry, fun z => ?_⟩
    cases z with
    | error cause => exact ⟨Request.silent_report _, fun _ => trivial⟩
    | ok => trivial

/-- How firing ends: what was fired is noted, and only an announcement can fail. -/
inductive Fires (r : Report) (effect : Option Effect) (deeds : List Deed) :
    Except HandlingFault Report → Prop
  | done {r' : Report} (h : Progress deeds r r') (hf : r'.finish = r.finish) : Fires r effect deeds (.ok r')
  | failed {cause : HandlingFault} (h : Progress deeds r r) (he : effect = some .announceCompletion) :
      Fires r effect deeds (.error cause)

theorem fires (d : Deployment) (member : Nat) (r : Report) (effect : Option Effect) :
    Fires r effect (d.deeds member (r.firing effect)) (d.perform member (r.firing effect)).1 := by
  obtain _ | _ | _ := effect
  · exact .done (.refl r) rfl
  · obtain ⟨x, d', rest, hdeeds, hrest⟩ := d.deeds_sendRequest member r.jobId
    have hsent : Progress [⟨member, .store (.industryOf r.jobId), x, d, d'⟩] r
        { r with effects := r.effects ++ [.requestMatching] } := .of_effect rfl rfl rfl rfl
    have hall : d.deeds member (r.firing (some .requestMatching)) =
        ⟨member, .store (.industryOf r.jobId), x, d, d'⟩ :: rest := by
      change d.deeds member ((sendRequest r.jobId >>= _) >>= _) = _
      rw [deeds_bind, deeds_bind, hdeeds]
      simp only [perform_bind]
      exact (List.append_nil _).trans (List.append_nil _)
    have hreply : (d.perform member (r.firing (some .requestMatching))).1 =
        .ok { r with effects := r.effects ++ [.requestMatching] } := d.perform_firing member r _
    rw [hall, hreply]
    exact .done (hsent.trans (.of_silent hrest _)) rfl
  · change Fires r _ (d.deeds member (announce r.jobId >>= _)) (d.perform member (announce r.jobId >>= _)).1
    rw [deeds_bind, perform_bind]
    unfold announce
    rw [deeds_ask, perform_ask]
    generalize d.answer member (.publish (JobCompleted.mk r.jobId).draft) = y
    obtain ⟨cause | _, d'⟩ := y
    · refine .failed (.of_silent ?_ r) rfl
      have hreport := Request.silent_report (.announcementNotSent r.jobId cause) member () d'
      exact List.forall_mem_cons.2 ⟨⟨rfl, rfl, rfl, rfl⟩, List.forall_mem_singleton.2 (hreport _)⟩
    · exact .done (.of_effect rfl rfl rfl rfl) rfl

inductive Swaps (d : Deployment) (j : String) (q : Phase) : Except StoreFault Bool × Deployment → Prop
  | done {d' : Deployment} (h : d'.store.phase? j = some q) : Swaps d j q (.ok true, d')
  | lost {d' : Deployment} : Swaps d j q (.ok false, d')
  | failed (cause : StoreFault) {d' : Deployment} (h : d'.store = d.store) :
      Swaps d j q (.error cause, d')

theorem swaps (d : Deployment) (member : Nat) (j : String) (p q : Phase) :
    d.Swaps j q (d.answer member (.store (.swapPhase j p q))) := by
  by_cases hf : d.store.fails .swapPhase j = true
  · have hstore : d.store.answer d.clock (.swapPhase j p q) =
        (.error (.unavailable (StoreOp.swapPhase.name ++ " failed for job " ++ j)), d.store) :=
      if_pos hf
    rw [answer_store hstore]
    exact .failed _ rfl
  · have hstore : d.store.answer d.clock (.swapPhase j p q) =
        (.ok ((d.store.settle j).swap d.clock j p q).1, ((d.store.settle j).swap d.clock j p q).2) :=
      if_neg hf
    rw [answer_store hstore]
    cases hwon : ((d.store.settle j).swap d.clock j p q).1 with
    | false => exact .lost
    | true => exact .done (MemoryStore.phase_of_swap hwon)

theorem nextStep_silent (d : Deployment) (member : Nat) (j t : String) (first : Bool) (p : Phase) :
    (∀ y ∈ d.deeds member (nextStep j t first p), y.Silent) ∧
      (d.perform member (nextStep j t first p)).2.store = d.store ∧
      Sensible t first p (d.perform member (nextStep j t first p)).1 := by
  have hsensible := nextStep_sensible j t first p
  have hquiet := perform_quiet hsensible (fun _ h => h.writes_eq) member d
  exact ⟨silent_deeds (hsensible.mono (fun _ h => h.silent) fun _ h => h) member d, hquiet⟩

theorem ends_firing {f : Except HandlingFault Report → Handling (Except HandlingFault Report)}
    (hs : d.store.phase? j = some r.finish)
    (he : effect = some .announceCompletion → r.finish = .completed)
    (hfailed : ∀ cause, f (.error cause) = .done (.error cause))
    (hdone : ∀ (r' : Report) (d' : Deployment), r'.jobId = r.jobId → r'.finish = r.finish →
      d'.store.phase? j = some r'.finish →
      Ends j (d'.deeds member (f (.ok r'))) r' (d'.perform member (f (.ok r'))).2.store
        (d'.perform member (f (.ok r'))).1) :
    Ends j (d.deeds member (r.firing effect >>= f)) r
      (d.perform member (r.firing effect >>= f)).2.store
      (d.perform member (r.firing effect >>= f)).1 := by
  have hfires := d.fires member r effect
  have hquiet := perform_quiet (firing_within r effect) (fun _ h => h.writes_eq) member d
  rw [deeds_bind, perform_bind]
  generalize d.deeds member (r.firing effect) = deeds at hfires
  generalize d.perform member (r.firing effect) = y at hfires hquiet
  obtain ⟨x, d'⟩ := y
  have hs' : d'.store.phase? j = some r.finish := (congrArg (·.phase? j) hquiet.1).trans hs
  cases hfires with
  | done h hf => exact .after h (hdone _ d' h.jobId hf (hf ▸ hs'))
  | failed h hann =>
    rw [hfailed]
    exact .after h (.failed (.refl r) hs' fun _ _ _ _ => he hann)

theorem occasion_completed {p : Phase} (h : Occasion p q effect)
    (he : effect = some .announceCompletion) : q = .completed := by
  cases h with
  | nothing | matching => cases he
  | completed hq => exact hq

theorem ends_chain (member : Nat) (first : Bool) (n : Nat) (r : Report) (hrj : r.jobId = j)
    (hs : d.store.phase? j = some r.finish) :
    Ends j (d.deeds member (chain first n r)) r (d.perform member (chain first n r)).2.store
      (d.perform member (chain first n r)).1 := by
  -- By induction on the steps that are left; before each of them the job is where the report ends.
  induction n generalizing first r d with
  | zero => exact .done (.refl r) hs
  | succ n ih =>
    obtain ⟨hsilent, hstore, hsensible⟩ := d.nextStep_silent member r.jobId r.eventType first r.finish
    rw [chain_succ, deeds_bind, perform_bind]
    refine .after (.of_silent hsilent r) ?_
    generalize d.perform member (nextStep r.jobId r.eventType first r.finish) = x at hstore hsensible
    obtain ⟨decision, d₁⟩ := x
    have hs₁ : d₁.store.phase? j = some r.finish := (congrArg (·.phase? j) hstore).trans hs
    cases hsensible with
    | failed cause => exact .failed (.refl r) hs₁ (by simp)
    | stay => exact .done (.refl r) hs₁
    | refire =>
      have hdone : r.firing (some .requestMatching) >>= .done = r.firing (some .requestMatching) :=
        Program.bind_done _
      rw [Report.pursue, ← hdone]
      exact ends_firing hs₁ (by simp) (fun _ => rfl) fun r' _ _ _ hs' => .done (.refl r') hs'
    | @advance q effect hlt he =>
      simp only [Report.pursue, Phase.ensureForward_of_lt hlt, askStore]
      rw [deeds_ask, perform_ask]
      have hswap := d₁.swaps member r.jobId r.finish q
      generalize d₁.answer member (.store (.swapPhase r.jobId r.finish q)) = y at hswap
      cases hswap with
      | @failed cause d₂ h =>
        have hs₂ : d₂.store.phase? j = some r.finish := (congrArg (·.phase? j) h).trans hs₁
        have hquiet : ∀ y ∈ [(⟨member, .store (.swapPhase r.jobId r.finish q), .error cause, d₁,
            d₂⟩ : Deed)], y.Silent := List.forall_mem_singleton.2 ⟨rfl, rfl, rfl, rfl⟩
        exact .failed (.of_silent hquiet r) hs₂ (by simp)
      | lost => exact .beaten (List.nil_append _).symm rfl (.refl r)
      | @done d₂ h =>
        have hmoved : Progress [⟨member, .store (.swapPhase r.jobId r.finish q), .ok true, d₁, d₂⟩] r
            { r with finish := q } := .of_write rfl rfl rfl rfl
        refine .after hmoved (ends_firing (hrj ▸ h) (occasion_completed he) (fun _ => rfl) ?_)
        intro r' d₃ hj' hf hs₃
        by_cases hq : q.isTerminal = true
        · simp only [hq, if_true]
          exact .done (.refl r') hs₃
        · simp only [hq]
          exact ih false r' (hj'.trans hrj) hs₃

theorem effect_announces {id t : String} {r : Request} (hs : r.Serves id j t) (member : Nat)
    (d : Deployment) :
    Deed.effect? ⟨member, r, (d.answer member r).1, d, (d.answer member r).2⟩ =
      some .announceCompletion ↔ d.bus.Open ∧ r = announcement j := by
  cases r with
  | store c => cases c <;> simp [Deed.effect?, announcement]
  | lookUp | remember | now | report => simp [Deed.effect?, announcement]
  | publish draft =>
    obtain h | h | ⟨industry, rfl⟩ := hs
    · exact h.elim
    · obtain rfl := Request.publish.inj h
      have htopic : (JobCompleted.mk j).draft.topic = Topic.jobCompleted := rfl
      simp only [announcement, and_true, answer, send, RecordingBus.send, htopic, RecordingBus.Open]
      cases d.bus.failing.lookup Topic.jobCompleted <;> simp [Deed.effect?, htopic]
    · have hsilent := Request.silent_request j industry member
        (d.answer member (.publish (MatchRequest.ofJob j industry).draft)).1 d
        (d.answer member (.publish (MatchRequest.ofJob j industry).draft)).2
      have hne : Request.publish (MatchRequest.ofJob j industry).draft ≠ announcement j := fun h =>
        JobCompleted.draft_ne_request j j industry (Request.publish.inj h).symm
      simp [hsilent.effect, hne]

theorem completions_deeds {α : Type} {id t : String} {p : Handling α} {R : α → Prop}
    (h : p.Within (·.Serves id j t) R) (member : Nat) (d : Deployment) :
    (d.perform member p).2.bus.completions j = d.bus.completions j +
      ((d.deeds member p).filterMap Deed.effect?).count .announceCompletion := by
  induction p generalizing d with
  | done => rfl
  | ask r next ih =>
    have hfirst := answer_completions h.1 member d j
    have hrest := ih _ (h.2 (d.answer member r).1) (d.answer member r).2
    have hannounces := effect_announces h.1 member d
    change ((d.answer member r).2.perform member (next (d.answer member r).1)).2.bus.completions j = _
    rw [hrest, hfirst, deeds, List.filterMap_cons]
    simp only [← hannounces]
    cases Deed.effect? ⟨member, r, (d.answer member r).1, d, (d.answer member r).2⟩ with
    | none => simp
    | some effect =>
      cases effect with
      | requestMatching => simp
      | announceCompletion =>
        simp only [if_true, List.count_cons_self]
        omega

theorem recordEvent_silent (id j t : String) :
    (recordEvent id j t).Within Request.Silent fun _ => True :=
  recordEvent_asks (fun _ _ _ _ => ⟨rfl, rfl, rfl, rfl⟩) (fun _ _ _ _ => ⟨rfl, rfl, rfl, rfl⟩)
    (fun _ _ _ _ _ => ⟨rfl, rfl, rfl, rfl⟩) fun _ _ _ _ => ⟨rfl, rfl, rfl, rfl⟩

theorem accepts_of_taken {call : Call} {e : Errand} (he : call.errand? = some e)
    (ht : (d.deliver call).1.taken = true) : d.Accepts e ∧
      d.perform call.member (recordEvent e.event.eventId e.event.jobId e.eventType) =
        (.recorded, d.noting call.member e) := by
  rw [deliver, Call.handling_of_errand he, Errand.handling, handleAccepted, perform_bind] at ht
  obtain ⟨-, hhit⟩ | hmiss := d.perform_recordEvent call.member e
  · rw [hhit] at ht
    cases ht
  · rw [hmiss] at ht ⊢
    have henter := d.entered_insertNew call.member e
    generalize d.tick.perform call.member (insertNew (d.entry e)) = entered at henter ht
    cases henter with
    | known | failed | homeless => cases ht
    | done h => exact ⟨h, rfl⟩

end Deployment

/-- What the report of a handling says about its deeds, and about what they left behind. -/
structure Report.Accounts (report : Report) (deeds : List Deed) (after : MemoryStore) : Prop where
  start : deeds.filterMap Deed.read? = [report.start]
  writes : Linked report.start (deeds.filterMap Deed.write?) report.finish
  effects : report.effects = deeds.filterMap Deed.effect?
  conflict : report.conflict = true ↔ ∃ y ∈ deeds, y.lost = true
  /-- There is nothing after a swap that was lost. -/
  last : ∀ before y rest, deeds = before ++ y :: rest → y.lost = true → rest = []
  stored : report.conflict = false → after.phase? report.jobId = some report.finish

/-- What is left behind by a handling that failed. -/
structure HandlingFault.Leaves (cause : HandlingFault) (j : String) (deeds : List Deed)
    (before after : MemoryStore) : Prop where
  /-- The job is where the last write has left it, or where it was. -/
  stored : after.phase? j = ((deeds.filterMap Deed.write?).getLast?.map Prod.snd).or (before.phase? j)
  published : ∀ topic k reason, cause = .publish topic k reason → after.phase? j = some .completed

/-- The deeds up to the one that reads the phase. -/
structure Opens (deeds : List Deed) (p : Phase) : Prop where
  read : deeds.filterMap Deed.read? = [p]
  write : deeds.filterMap Deed.write? = []
  effect : deeds.filterMap Deed.effect? = []
  unbeaten : ∀ y ∈ deeds, y.lost = false

theorem opens_append {quiet : List Deed} {y : Deed} {p : Phase} (hquiet : ∀ y ∈ quiet, y.Silent)
    (hr : y.read? = some p) (hw : y.write? = none) (hl : y.lost = false) (he : y.effect? = none) :
    Opens (quiet ++ [y]) p where
  read := by simp [reads_silent hquiet, hr]
  write := by simp [writes_silent hquiet, hw]
  effect := by simp [effects_silent hquiet, he]
  unbeaten := List.forall_mem_append.2 ⟨fun z hz => (hquiet z hz).lost, List.forall_mem_singleton.2 hl⟩

theorem HandlingFault.leaves_silent {cause : HandlingFault} {j : String} {deeds : List Deed}
    {before after : MemoryStore} (h : ∀ y ∈ deeds, y.Silent) (hs : after.phase? j = before.phase? j)
    (hc : ∀ topic k reason, cause ≠ .publish topic k reason) : cause.Leaves j deeds before after where
  stored := by
    rw [writes_silent h]
    exact hs
  published topic k reason hp := absurd hp (hc topic k reason)

theorem Deed.of_lost {y : Deed} (h : y.lost = true) :
    y.read? = none ∧ y.write? = none ∧ y.effect? = none := by
  unfold lost at h
  split at h
  · exact ⟨rfl, rfl, rfl⟩
  · cases h

theorem lost_last {deeds before rest : List Deed} {y z : Deed} (h : ∀ y ∈ deeds, y.lost = false)
    (hd : deeds ++ [z] = before ++ y :: rest) (hl : y.lost = true) : rest = [] := by
  obtain rfl | ⟨rest', last, rfl⟩ := List.eq_nil_or_concat rest
  · rfl
  · have hsplit : deeds ++ [z] = (before ++ y :: rest') ++ [last] := by simpa using hd
    have hinit := (List.append_inj' hsplit rfl).1
    have hy := h y (by simp [hinit])
    rw [hl] at hy
    cases hy

namespace Opens
variable {j t : String} {p : Phase} {first deeds : List Deed} {r : Report}

theorem tells (ho : Opens first p) (h : Progress deeds ⟨j, t, p, p, [], false⟩ r) :
    (first ++ deeds).filterMap Deed.read? = [r.start] ∧
      Linked r.start ((first ++ deeds).filterMap Deed.write?) r.finish ∧
      r.effects = (first ++ deeds).filterMap Deed.effect? ∧
      (∀ y ∈ first ++ deeds, y.lost = false) ∧
      r.jobId = j ∧ r.eventType = t ∧ r.start = p ∧ r.conflict = false := by
  have hr := h.report
  have hstart : r.start = p := by rw [hr]
  refine ⟨?_, ?_, ?_, ?_, by rw [hr], by rw [hr], hstart, by rw [hr]⟩
  · rw [List.filterMap_append, ho.read, h.unread, hstart, List.append_nil]
  · rw [List.filterMap_append, ho.write, hstart]
    exact h.linked
  · rw [List.filterMap_append, ho.effect, hr]
  · exact fun y hy => (List.mem_append.1 hy).elim (ho.unbeaten y) (h.unbeaten y)

theorem accounts {after : MemoryStore} (ho : Opens first p)
    (h : Ends j deeds ⟨j, t, p, p, [], false⟩ after (.ok r)) :
    r.Accounts (first ++ deeds) after ∧ r.jobId = j ∧ r.eventType = t ∧ r.start = p := by
  cases h with
  | done h hs =>
    obtain ⟨hread, hwrite, heffect, hlost, rfl, ht, hp, hc⟩ := ho.tells h
    refine ⟨⟨hread, hwrite, heffect, ?_, ?_, fun _ => hs⟩, rfl, ht, hp⟩
    · simpa [hc] using hlost
    · intro before y rest hd hl
      have hy := hlost y (by simp [hd])
      rw [hl] at hy
      cases hy
  | @beaten r' before y hd hl h =>
    obtain ⟨hread, hwrite, heffect, hlost, rfl, ht, hp, -⟩ := ho.tells h
    obtain ⟨hnoread, hnowrite, hnoeffect⟩ := Deed.of_lost hl
    rw [hd, ← List.append_assoc]
    refine ⟨⟨?_, ?_, ?_, ?_, fun _ _ _ => lost_last hlost, fun hc => nomatch hc⟩, rfl, ht, hp⟩
    · simpa [hnoread] using hread
    · simpa [hnowrite] using hwrite
    · simpa [hnoeffect] using heffect
    · simpa using ⟨y, by simp, hl⟩

theorem leaves {cause : HandlingFault} {before after : MemoryStore} (ho : Opens first p)
    (hp : before.phase? j = some p)
    (h : Ends j deeds ⟨j, t, p, p, [], false⟩ after (.error cause)) {rest : List Deed}
    (hrest : ∀ y ∈ rest, y.Silent) : cause.Leaves j (first ++ (deeds ++ rest)) before after := by
  cases h with
  | @failed r' cause h hs hpublish =>
    obtain ⟨-, hwrite, -, -, -, -, hstart, -⟩ := ho.tells (h.trans (.of_silent hrest r'))
    refine ⟨?_, fun topic k reason hc => hpublish topic k reason hc ▸ hs⟩
    rw [hs, hwrite.finish_eq, hp, hstart]
    cases ((first ++ (deeds ++ rest)).filterMap Deed.write?).getLast? <;> rfl

end Opens

/-- The outcome of a handling that found its job in the phase `p`, between one store and the other. -/
inductive Tells (j t : String) (p : Phase) (deeds : List Deed) (before after : MemoryStore) :
    Outcome → Prop
  | applied {report : Report} (h : report.Accounts deeds after) (hj : report.jobId = j)
      (ht : report.eventType = t) (hp : report.start = p) : Tells j t p deeds before after (.applied report)
  | failed {cause : HandlingFault} (h : cause.Leaves j deeds before after) :
      Tells j t p deeds before after (.failed cause)

namespace Deployment
variable {d : Deployment} {j : String} {p : Phase}

theorem tells_conclude {t : String} {first deeds : List Deed} {before : MemoryStore}
    {x : Except HandlingFault Report} (ho : Opens first p) (hp : before.phase? j = some p)
    (h : Ends j deeds ⟨j, t, p, p, [], false⟩ d.store x) (member : Nat) (id : String) :
    Tells j t p (first ++ (deeds ++ d.deeds member (conclude id j t p x))) before
      (d.perform member (conclude id j t p x)).2.store (d.perform member (conclude id j t p x)).1 := by
  cases x with
  | ok report =>
    obtain ⟨haccounts, hj, ht, hstart⟩ := ho.accounts h
    have hdeeds : first ++ (deeds ++ d.deeds member (conclude id j t p (.ok report))) = first ++ deeds :=
      congrArg (first ++ ·) (List.append_nil deeds)
    rw [hdeeds]
    exact .applied haccounts hj ht hstart
  | error cause =>
    have hrest : ∀ y ∈ d.deeds member (conclude id j t p (.error cause)), y.Silent :=
      List.forall_mem_singleton.2 (Request.silent_report _ member () d _)
    exact .failed (ho.leaves hp h hrest)

theorem tells_advanceJob (hp : d.store.phase? j = some p) {before : MemoryStore}
    (hb : before.phase? j = some p) {quiet : List Deed} (hquiet : ∀ y ∈ quiet, y.Silent)
    (member : Nat) (id t : String) :
    Tells j t p (quiet ++ d.deeds member (advanceJob id j t)) before
      (d.perform member (advanceJob id j t)).2.store (d.perform member (advanceJob id j t)).1 := by
  have hread := (Answered.served member (.store (.phaseOf j)) d).phaseOf
  have hstore := (Answered.served member (.store (.phaseOf j)) d).store_eq rfl
  unfold advanceJob askStore
  rw [deeds_ask, perform_ask]
  generalize d.answer member (.store (.phaseOf j)) = y at hread hstore
  obtain ⟨x, d₁⟩ := y
  have hp₁ : d₁.store.phase? j = some p := (congrArg (·.phase? j) hstore).trans hp
  obtain hx | ⟨-, cause, hx⟩ := hread
  · obtain rfl : x = .ok (some p) := hx.trans (congrArg Except.ok hp)
    have hopens : Opens (quiet ++ [⟨member, .store (.phaseOf j), .ok (some p), d, d₁⟩]) p :=
      opens_append hquiet rfl rfl rfl rfl
    have hends := ends_chain member true longestChain ⟨j, t, p, p, [], false⟩ rfl hp₁
    have htells := tells_conclude hopens hb hends member id
    change Tells j t p (quiet ++ (_ :: d₁.deeds member (applyEvent j t p >>= conclude id j t p))) before
      (d₁.perform member (applyEvent j t p >>= conclude id j t p)).2.store
      (d₁.perform member (applyEvent j t p >>= conclude id j t p)).1
    rw [deeds_bind, perform_bind, List.append_cons]
    exact htells
  · obtain rfl := hx
    -- The phase could not be read, and nothing has been done.
    have hsilent : ∀ y ∈ quiet ++ [⟨member, .store (.phaseOf j), .error cause, d, d₁⟩,
        ⟨member, .report (.phaseUnknown j id t cause), (), d₁, d₁.report (.phaseUnknown j id t cause)⟩],
        y.Silent := by
      have hreport := Request.silent_report (.phaseUnknown j id t cause) member () d₁
      refine List.forall_mem_append.2 ⟨hquiet, List.forall_mem_cons.2 ⟨⟨rfl, rfl, rfl, rfl⟩, ?_⟩⟩
      exact List.forall_mem_singleton.2 (hreport _)
    exact .failed (HandlingFault.leaves_silent hsilent (hp₁.trans hb.symm) (by simp))

theorem tells_deliver {call : Call} {e : Errand} (he : call.errand? = some e)
    (ht : (d.deliver call).1.taken = true) :
    ∃ p, d.store.phase? e.event.jobId = some p ∧
      Tells e.event.jobId e.eventType p (d.deeds call.member call.handling) d.store
        (d.deliver call).2.store (d.deliver call).1 := by
  obtain ⟨ha, hr⟩ := accepts_of_taken he ht
  obtain ⟨job, hjob⟩ := ha.job
  have hp : d.store.phase? e.event.jobId = some job.phase := MemoryStore.phase_of_job hjob
  have hdeeds : d.deeds call.member call.handling =
      d.deeds call.member (recordEvent e.event.eventId e.event.jobId e.eventType) ++
        (d.noting call.member e).deeds call.member
          (advanceJob e.event.eventId e.event.jobId e.eventType) := by
    rw [Call.handling_of_errand he, Errand.handling, handleAccepted, deeds_bind, hr]
  rw [hdeeds, deliver_recorded he hr]
  exact ⟨job.phase, hp, tells_advanceJob (d := d.noting call.member e) hp hp
    (silent_deeds (recordEvent_silent _ _ _) call.member d) call.member _ _⟩

theorem entry_mem_ledger {call : Call} {e : Errand} (he : call.errand? = some e)
    (ht : (d.deliver call).1.taken = true) : d.entry e ∈ (d.deliver call).2.store.ledger := by
  obtain ⟨-, hr⟩ := accepts_of_taken he ht
  have hspares := perform_spares (advanceJob_within e.event.eventId e.event.jobId e.eventType)
    call.member (d.noting call.member e)
  rw [deliver_recorded he hr, hspares.1.ledger]
  exact List.mem_append_right _ (List.mem_singleton_self _)

end Deployment

/-- What a handling reports is what it did, whatever fails and whoever writes meanwhile. A report says which
phase was read, which effects were fired in which order, whether somebody else came first and, unless that
is so, where the job is now. A failure leaves the job where the last write has left it, and the event in the
ledger. Each request for matching whose industry is known is tried once. -/
theorem outcome_tells_deeds {d : Deployment} {call : Call} {e : Errand}
    (he : call.errand? = some e) :
    let deeds := d.deeds call.member call.handling
    let after := (d.deliver call).2
    Requested deeds ∧
    (∀ report, (d.deliver call).1 = .applied report →
      report.Accounts deeds after.store ∧ report.jobId = e.event.jobId ∧
        report.eventType = e.eventType ∧ d.store.phase? e.event.jobId = some report.start ∧
        after.bus.completions e.event.jobId =
          d.bus.completions e.event.jobId + report.effects.count .announceCompletion ∧
        d.entry e ∈ after.store.ledger) ∧
    ∀ cause, (d.deliver call).1 = .failed cause →
      cause.Leaves e.event.jobId deeds d.store after.store ∧ d.entry e ∈ after.store.ledger := by
  intro deeds after
  have htells (ht : (d.deliver call).1.taken = true) := Deployment.tells_deliver he ht
  have hledger (ht : (d.deliver call).1.taken = true) := Deployment.entry_mem_ledger he ht
  have hwithin : call.handling.Within e.Serves Outcome.Onward :=
    Call.handling_of_errand he ▸ e.handling_within
  have hcompletions := Deployment.completions_deeds hwithin call.member d
  have hpaired : Requested deeds := by
    have herrand := Paired.errand e call.member d
    rwa [← Call.handling_of_errand he] at herrand
  refine ⟨hpaired, ?_, ?_⟩
  · intro report hreport
    have ht : (d.deliver call).1.taken = true := by rw [hreport]; rfl
    obtain ⟨p, hp, htold⟩ := htells ht
    rw [hreport] at htold
    cases htold with
    | applied h hj hty hstart =>
      refine ⟨h, hj, hty, hstart ▸ hp, ?_, hledger ht⟩
      rw [h.effects]
      exact hcompletions
  · intro cause hcause
    have ht : (d.deliver call).1.taken = true := by rw [hcause]; rfl
    obtain ⟨p, hp, htold⟩ := htells ht
    rw [hcause] at htold
    cases htold with
    | failed h => exact ⟨h, hledger ht⟩

/-- A job without assets has its evidence when the match is told. Once its industry cannot be looked up and
the bus is down, so that it goes all the way and fails at the end; once somebody else has come first. -/
theorem outcome_tells_deeds_spoiled :
    let job : Job := ⟨"job", "retail", .collection, ⟨false, false⟩, .epoch⟩
    let store : MemoryStore := { MemoryStore.empty.insertJob job with
      ledger := [⟨"evidence", "job", Topic.evidences, .epoch⟩] }
    let call := Call.ofEvent 0 Topic.matchings ⟨"match", "job", none⟩
    let down : Deployment := { Deployment.ofCapacities [8] .epoch with
      store := store.fail .industryOf none
      bus := RecordingBus.empty.refuse Topic.jobCompleted "down" }
    let raced : Deployment := { Deployment.ofCapacities [8] .epoch with
      store := store.interleave "job" .matching }
    (down.deliver call).1 = .failed (.publish Topic.jobCompleted "job" (.transport "down")) ∧
      (down.deeds 0 call.handling).filterMap Deed.effect? = [.requestMatching] ∧
      (down.deliver call).2.store.phase? "job" = some .completed ∧
      (raced.deliver call).1 =
        .applied ⟨"job", Topic.matchings, .collection, .collection, [], true⟩ ∧
      ∃ y ∈ raced.deeds 0 call.handling, y.lost = true := by
  intro job store call down raced
  have he : call.errand? = some ⟨Topic.matchings, ⟨"match", "job", none⟩⟩ := by rfl
  have hdown : (down.deliver call).1 =
      .failed (.publish Topic.jobCompleted "job" (.transport "down")) := by decide +kernel
  have hraced : (raced.deliver call).1 =
      .applied ⟨"job", Topic.matchings, .collection, .collection, [], true⟩ := by decide +kernel
  have hleaves := ((outcome_tells_deeds he).2.2 _ hdown).1
  have haccounts := ((outcome_tells_deeds he).2.1 _ hraced).1
  exact ⟨hdown, by decide +kernel, hleaves.published _ _ _ rfl, hraced, haccounts.conflict.1 rfl⟩

end PhaseKeeper
