import PhaseKeeper.Proofs.Handling.Course
import PhaseKeeper.Proofs.Interleaving.Terms
import PhaseKeeper.Proofs.Message.Drafts
/-!
The completion of a job is announced once, by whoever completed it. A job is completed by one swap only,
because phases never go back; and that swap is followed by the announcement, whatever else fails.
-/
namespace PhaseKeeper

def announcement (j : String) : Request := .publish (JobCompleted.mk j).draft

/-- The request has completed the job. -/
def Completes (j : String) (r : Request) (d d' : Deployment) : Prop :=
  ∃ p, r = .store (.swapPhase j p .completed) ∧ d.store.Moved j p .completed d'.store

namespace Pact
variable {j : String}

/-- To announce completion once if one has completed the job, and else not at all. One notes whether one
has completed it, and how many attempts one has made. -/
def announcing (j : String) : Pact (Prop × Nat) where
  valid d := d.store.pending = []
  rely d d' := d.store.Later d'.store
  duty n r _ _ _ := r = announcement j → n.1 ∧ n.2 = 0
  note n r d _ d' := (n.1 ∨ Completes j r d d', n.2 + if r = announcement j then 1 else 0)
  refl := Deployment.later_refl
  trans := @Deployment.later_trans

def Silent (n : Prop × Nat) : Prop := ¬ n.1 ∧ n.2 = 0

def Settled (n : Prop × Nat) : Prop := Silent n ∨ n.1 ∧ n.2 = 1

theorem announcing_quiet {r : Request} (hr : r ≠ announcement j)
    (hc : ∀ p, r ≠ .store (.swapPhase j p .completed))
    (hl : ∀ {d d' : Deployment} {x : r.Reply}, d.store.pending = [] → Answered r d x d' →
      d.store.Later d'.store) : (announcing j).Quiet r where
  duty _ _ h := absurd h hr
  note {n d _ d'} _ _ := by
    have hnot : ¬ Completes j r d d' := fun ⟨p, hp, _⟩ => hc p hp
    simp [announcing, hr, hnot]
  rely hv hx := hl hv hx

theorem announcing_quiet_of_writes {r : Request} (hr : r ≠ announcement j)
    (hw : r.writes = false) : (announcing j).Quiet r := by
  refine announcing_quiet hr (fun p hp => ?_) fun _ hx => ?_
  · rw [hp] at hw
    cases hw
  · rw [hx.store_eq hw]
    exact .refl _

theorem announcing_quiet_of_solicits {k : String} {r : Request} (h : r.Solicits k) :
    (announcing j).Quiet r := by
  refine announcing_quiet_of_writes (fun hr => ?_) (Request.Notifies.writes_eq (.inr h))
  subst hr
  obtain ⟨industry, hi⟩ := h
  exact JobCompleted.draft_ne_request j k industry hi

theorem announcing_quiet_of_reads {k : String} {r : Request} (h : r.Reads k) :
    (announcing j).Quiet r :=
  announcing_quiet_of_writes (by rintro rfl; exact h) h.writes_eq

theorem keeps_announce {n : Prop × Nat} {d : Deployment} (hn : n.1) (h0 : n.2 = 0) (r : Report)
    (hr : r.jobId = j) :
    (announcing j).Keeps (fun _ n _ => Settled n) (r.firing (some .announceCompletion)) n d := by
  subst hr
  refine .ask fun d₁ hv hl x d₂ hx => ⟨fun _ => ⟨hn, h0⟩, ?_⟩
  have hsaid : Settled ((announcing r.jobId).note n (announcement r.jobId) d₁ x d₂) :=
    .inr ⟨.inl hn, by simp [announcing, h0]⟩
  cases x with
  | ok => exact fun _ _ _ => hsaid
  | error cause =>
    intro d₃ hv₃ hl₃ y d₄ hy
    have hq : (announcing r.jobId).Quiet (.report (.announcementNotSent r.jobId cause)) :=
      announcing_quiet_of_solicits (k := r.jobId) trivial
    refine ⟨hq.duty hv₃ hy, ?_⟩
    rw [hq.note hv₃ hy]
    exact fun _ _ _ => hsaid

theorem announcing_course (id j t : String) :
    (announcing j).Course id j t (fun n _ => Silent n)
      (fun n d => (∃ job, d.store.job? j = some job) ∧ Silent n)
      (fun _ _ _ n d => (∃ job, d.store.job? j = some job) ∧ Silent n)
      (fun n _ => Settled n) := by
  have hjob {d d' : Deployment} (hl : d.store.Later d'.store)
      (h : ∃ job, d.store.job? j = some job) : ∃ job, d'.store.job? j = some job := by
    obtain ⟨job, hj⟩ := h
    obtain ⟨job', hj', -⟩ := hl.job hj
    exact ⟨job', hj'⟩
  have hlookUp : (announcing j).Quiet (.lookUp id) :=
    announcing_quiet_of_writes (by simp [announcement]) rfl
  have hremember : (announcing j).Quiet (.remember id) :=
    announcing_quiet_of_writes (by simp [announcement]) rfl
  refine {
    later := fun h => h
    quiet := ?_
    remember := fun hv _ hx => ⟨hremember.duty hv hx, hremember.note hv hx, hremember.rely hv hx⟩
    new_later := fun h _ => h
    recorded_later := fun h hl => ⟨hjob hl h.1, h.2⟩
    deciding_later := fun h hl => ⟨hjob hl h.1, h.2⟩
    post_later := fun h _ => h
    lookUp := ?_
    insert := ?_
    job := fun h => h.1
    unread := fun h _ => .inl h.2
    read := fun h _ => h
    deciding_job := fun h => h.1
    rest := fun h => .inl h.2
    undecided := fun h _ => .inl h.2
    stay := fun h _ _ _ _ => .inl h.2
    refire := ?_
    swap := ?_ }
  · rintro r (hr | rfl | ⟨i, rfl⟩)
    · exact announcing_quiet_of_reads hr
    all_goals exact announcing_quiet_of_writes (by simp [announcement]) rfl
  · intro n d d' x hn hv hx
    rw [hlookUp.note hv hx]
    exact ⟨hlookUp.duty hv hx, fun _ => .inl hn, fun _ => hn⟩
  · intro n d d' now x hn hv hx
    have hserves : Request.Serves id j t (.store (.insertEvent ⟨id, j, t, now⟩)) := ⟨rfl, rfl, rfl⟩
    have hq : (announcing j).Quiet (.store (.insertEvent ⟨id, j, t, now⟩)) :=
      announcing_quiet (by simp [announcement]) (by simp) fun hp hx => hx.later hp hserves
    rw [hq.note hv hx]
    refine ⟨hq.duty hv hx, fun _ => .inl hn, fun he => ⟨?_, hn⟩⟩
    have hr := hx.recorded he
    exact hjob hr.later (Option.isSome_iff_exists.1 hr.job)
  · intro first m p n d d' job view h _ _ _ _ r hr
    refine (Keeps.of_within (quietFiring_within r (by simp)) fun _ => announcing_quiet_of_solicits).mono
      fun _ n' _ _ hn' => ?_
    rw [hn'.2.1]
    exact .inl h.2
  · intro first m p q effect n d d' d'' job view x h hv hl hj hb hp hx
    have hlt := Step.lt_of_advance hp
    have hne : Request.store (.swapPhase j p q) ≠ announcement j := by simp [announcement]
    refine ⟨fun he => absurd he hne, fun hx' => .inl ⟨?_, ?_⟩, fun he r hr => ?_⟩
    · rintro (hn | ⟨p', -, hm⟩)
      · exact h.2.1 hn
      · rw [(hx.unmoved hv hx').1] at hm
        exact MemoryStore.not_moved_self hm
    · simp [announcing, hne, h.2.2]
    · have hm := hx.moved hv he
      -- Whoever completes the job owes the announcement; after any other move the notes stay as they are.
      by_cases hq : q = .completed
      · subst hq
        obtain rfl := (Step.announces_iff hp).2 rfl
        simp only [if_true]
        refine keeps_announce (Or.inr ⟨p, rfl, hm⟩) ?_ r hr
        simp [announcing, hne, h.2.2]
      · simp only [if_neg hq]
        have hsame : (announcing j).note n (.store (.swapPhase j p q)) d' x d'' = n := by
          have hnot : ¬ Completes j (.store (.swapPhase j p q)) d' d'' := by
            rintro ⟨p', hp', -⟩
            simp only [Request.store.injEq, StoreCall.swapPhase.injEq] at hp'
            exact hq hp'.2.2
          simp [announcing, hne, hnot]
        rw [hsame]
        have heffect : effect ≠ some .announceCompletion := fun he =>
          hq ((Step.announces_iff hp).1 he)
        refine (Keeps.of_within (quietFiring_within r heffect) fun _ =>
          announcing_quiet_of_solicits).mono fun _ n' _ _ hn' => ?_
        rw [hn'.2.1]
        exact ⟨hjob (hl.trans ((hm.later hlt).trans hn'.2.2)) h.1, h.2⟩

theorem announcing_quiet_of_other {id k t : String} {r : Request} (h : r.Serves id k t)
    (hk : k ≠ j) : (announcing j).Quiet r := by
  refine announcing_quiet (fun hr => ?_) (fun p hp => ?_) fun hp hx => hx.later hp h
  · subst hr
    obtain hreads | hdraft | ⟨industry, hi⟩ := h
    · exact hreads
    · exact hk (JobCompleted.draft_injective (Request.publish.inj hdraft)).symm
    · exact JobCompleted.draft_ne_request j k industry hi
  · subst hp
    exact hk h.1.symm

theorem announcing_terms (j : String) :
    Terms (fun _ => announcing j) (False, 0) (fun _ n _ => Settled n)
      (·.store.pending = []) where
  valid hv := hv
  pending hv := hv
  rely hl := hl
  starts := by
    intro e d _
    by_cases hj : e.event.jobId = j
    · subst hj
      exact (announcing_course e.event.eventId e.event.jobId e.eventType).keeps_handleAccepted
        ⟨id, rfl⟩
    · refine (Keeps.of_within e.handling_within fun r hr => announcing_quiet_of_other hr hj).mono
        fun _ n' _ _ hn' => ?_
      rw [hn'.2.1]
      exact .inl ⟨id, rfl⟩
  kept hv _ hx _ := hx.pending hv

end Pact

def Deed.Completes (j : String) (deed : Deed) : Prop :=
  PhaseKeeper.Completes j deed.request deed.before deed.after

namespace Pact
variable {j : String}

theorem announcing_notes_fst (n : Prop × Nat) (log : List Deed) :
    ((announcing j).notes n log).1 ↔ n.1 ∨ ∃ deed ∈ log, deed.Completes j := by
  induction log generalizing n with
  | nil => simp [notes]
  | cons deed log ih =>
    change ((announcing j).notes (n.1 ∨ deed.Completes j, _) log).1 ↔ _
    rw [ih]
    simp [or_assoc]

theorem announcing_notes_snd (n : Prop × Nat) (log : List Deed) :
    ((announcing j).notes n log).2 = n.2 + log.countP (·.request = announcement j) := by
  induction log generalizing n with
  | nil => simp [notes]
  | cons deed log ih =>
    change ((announcing j).notes (_, n.2 + if deed.request = announcement j then 1 else 0) log).2 = _
    rw [ih, List.countP_cons]
    simp only [decide_eq_true_eq]
    omega

end Pact

namespace Crew
variable {c : Crew} {j : String}

def attempts (c : Crew) (j : String) : Nat := c.log.countP (·.request = announcement j)

/-- As long as handlers are running: at most one of them has completed the job, and it alone has
announced that, if anyone has. -/
structure Announcing (c : Crew) (j : String) : Prop where
  phase : ∀ deed ∈ c.log, deed.Completes j → c.deployment.store.phase? j = some .completed
  unique : ∀ deed ∈ c.log, ∀ deed' ∈ c.log, deed.Completes j → deed'.Completes j →
    deed.handler = deed'.handler
  earned : ∀ before deed after, c.log = before ++ deed :: after → deed.request = announcement j →
    deed.before.store.phase? j = some .completed ∧
      ∃ win ∈ before, win.handler = deed.handler ∧ win.Completes j
  once : c.attempts j ≤ 1

theorem Announcing.fresh (d : Deployment) : (Crew.fresh d).Announcing j where
  phase := by simp [Crew.fresh]
  unique := by simp [Crew.fresh]
  earned := by simp [Crew.fresh]
  once := Nat.zero_le 1

theorem mem_deedsOf {i : Nat} {deed : Deed} : deed ∈ c.deedsOf i ↔ deed ∈ c.log ∧ deed.handler = i := by
  simp [deedsOf]

theorem Announcing.none_before (ha : c.Announcing j) {i : Nat}
    (hwin : ∃ win ∈ c.deedsOf i, win.Completes j)
    (hnone : (c.deedsOf i).countP (·.request = announcement j) = 0) : c.attempts j = 0 := by
  rw [attempts, List.countP_eq_zero]
  intro deed hd hreq
  obtain ⟨before, after, hsplit⟩ := List.append_of_mem hd
  obtain ⟨-, win', hw', hh, hc'⟩ := ha.earned before deed after hsplit (of_decide_eq_true hreq)
  obtain ⟨win, hw, hc⟩ := hwin
  have hwi := mem_deedsOf.1 hw
  have hlog : win' ∈ c.log := hsplit ▸ List.mem_append_left _ hw'
  have hi : deed.handler = i := by
    rw [← hh, ← hwi.2]
    exact ha.unique win' hlog win hwi.1 hc' hc
  exact List.countP_eq_zero.1 hnone deed (mem_deedsOf.2 ⟨hd, hi⟩) hreq

theorem Announcing.step (ha : c.Announcing j)
    (hc : c.Upholds (fun _ => Pact.announcing j) (False, 0) (fun _ n _ => Pact.Settled n)
      (·.store.pending = [])) (m : Move) : (c.step m).Announcing j := by
  have hs := c.step_cases m
  generalize c.step m = c' at hs
  cases hs with
  | disturbed =>
    refine ⟨fun deed hd hw => ?_, ha.unique, ha.earned, ha.once⟩
    exact (m.disturb_later c.deployment).completed (ha.phase deed hd hw)
  | delivered call => exact ⟨ha.phase, ha.unique, ha.earned, ha.once⟩
  | @acted i h r next x d hi hr hx =>
    obtain ⟨e, he, hserves, -⟩ := hc.proper.acts hi hr
    have hduty := (hc.acts (Pact.announcing_terms j) hi he hr hx).1
    have hl := hx.later hc.holds hserves
    -- a job that was completed before is not completed once more
    have hfirst (hw : Completes j r c.deployment d) : ∀ deed ∈ c.log, ¬ deed.Completes j := by
      rintro deed hd hw'
      obtain ⟨p, rfl, hm⟩ := hw
      have hp := hm.was
      rw [ha.phase deed hd hw'] at hp
      cases hp
      exact absurd hserves.2 (by decide)
    have hcases {deed : Deed} (hd : deed ∈ c.log ++ [⟨i, r, x, c.deployment, d⟩]) :
        deed ∈ c.log ∨ deed = ⟨i, r, x, c.deployment, d⟩ := by simpa using hd
    refine ⟨fun deed hd hw => ?_, fun deed hd deed' hd' hw hw' => ?_,
      fun before deed after hsplit hreq => ?_, ?_⟩
    · obtain hd | rfl := hcases hd
      · exact hl.completed (ha.phase deed hd hw)
      · obtain ⟨p, -, hm⟩ := hw
        exact hm.phase
    · obtain hd | rfl := hcases hd <;> obtain hd' | rfl := hcases hd'
      · exact ha.unique deed hd deed' hd' hw hw'
      · exact absurd hw (hfirst hw' deed hd)
      · exact absurd hw' (hfirst hw deed' hd')
      · rfl
    · obtain rfl | ⟨after', last, rfl⟩ := List.eq_nil_or_concat after
      · obtain ⟨rfl, hlast⟩ := List.append_inj' hsplit rfl
        obtain rfl := (List.singleton_inj.1 hlast).symm
        have hwon := (hduty hreq).1
        rw [Pact.announcing_notes_fst] at hwon
        obtain ⟨win, hwin, hw⟩ := hwon.resolve_left id
        have hwi := mem_deedsOf.1 hwin
        exact ⟨ha.phase win hwi.1 hw, win, hwi.1, hwi.2, hw⟩
      · have hsplit' : c.log ++ [⟨i, r, x, c.deployment, d⟩] = (before ++ deed :: after') ++ [last] := by
          simpa using hsplit
        obtain ⟨hlog, -⟩ := List.append_inj' hsplit' rfl
        exact ha.earned before deed after' hlog hreq
    · rw [attempts, List.countP_append]
      by_cases hreq : r = announcement j
      · obtain ⟨hwon, hnone⟩ := hduty hreq
        rw [Pact.announcing_notes_fst] at hwon
        rw [Pact.announcing_notes_snd, Nat.zero_add] at hnone
        have hzero := ha.none_before (hwon.resolve_left id) hnone
        rw [attempts] at hzero
        simp [hzero, hreq]
      · have honce := ha.once
        rw [attempts] at honce
        simpa [hreq] using honce

theorem Announcing.run (ha : c.Announcing j)
    (hc : c.Upholds (fun _ => Pact.announcing j) (False, 0) (fun _ n _ => Pact.Settled n)
      (·.store.pending = [])) (moves : List Move) : (c.run moves).Announcing j := by
  induction moves generalizing c with
  | nil => exact ha
  | cons m ms ih =>
    refine ih (ha.step hc m) (hc.step (Pact.announcing_terms j) ?_)
    exact (m.disturb_pending c.deployment).trans hc.holds

/-- The attempts to announce that a job is complete are as they should be. -/
structure Announced (c : Crew) (j : String) : Prop where
  once : c.attempts j ≤ 1
  /-- Only after the stored phase was `completed`, and only by the handler whose swap wrote that. -/
  earned : ∀ before deed after, c.log = before ++ deed :: after → deed.request = announcement j →
    deed.before.store.phase? j = some .completed ∧
      ∃ win ∈ before, win.handler = deed.handler ∧ win.Completes j
  ended : c.idle = true → (∃ win ∈ c.log, win.Completes j) → c.attempts j = 1
  spared : c.idle = true → (¬ ∃ win ∈ c.log, win.Completes j) → c.attempts j = 0

theorem Upholds.attempted
    (hc : c.Upholds (fun _ => Pact.announcing j) (False, 0) (fun _ n _ => Pact.Settled n)
      (·.store.pending = []))
    (hidle : c.idle = true) (hwin : ∃ win ∈ c.log, win.Completes j) : 1 ≤ c.attempts j := by
  obtain ⟨win, hd, hw⟩ := hwin
  obtain ⟨-, e, he, -⟩ := hc.proper.log hd
  obtain ⟨h, hi, hcall⟩ := handler_of_errand he
  have hend := hc.ends (Pact.announcing_terms j) hi hcall (finished_of_idle hidle hi)
  have hwon : ((Pact.announcing j).notes (False, 0) (c.deedsOf win.handler)).1 := by
    rw [Pact.announcing_notes_fst]
    exact .inr ⟨win, mem_deedsOf.2 ⟨hd, rfl⟩, hw⟩
  obtain hsilent | ⟨-, hone⟩ := hend
  · exact absurd hwon hsilent.1
  · rw [Pact.announcing_notes_snd, Nat.zero_add] at hone
    rw [← hone]
    exact List.filter_sublist.countP_le

theorem Upholds.announced
    (hc : c.Upholds (fun _ => Pact.announcing j) (False, 0) (fun _ n _ => Pact.Settled n)
      (·.store.pending = []))
    (ha : c.Announcing j) : c.Announced j where
  once := ha.once
  earned := ha.earned
  ended hidle hwin := Nat.le_antisymm ha.once (hc.attempted hidle hwin)
  spared _ hnone := by
    rw [attempts, List.countP_eq_zero]
    intro deed hd hreq
    obtain ⟨before, after, hsplit⟩ := List.append_of_mem hd
    obtain ⟨-, win, hw, -, hcw⟩ := ha.earned before deed after hsplit (of_decide_eq_true hreq)
    exact hnone ⟨win, hsplit ▸ List.mem_append_left _ hw, hcw⟩

end Crew

/-- Completion is announced exactly once, whatever is delivered how often, in whatever order the
requests come, and whatever fails. -/
theorem completion_announced_once (capacities : List Nat) (clock : Instant) (moves : List Move)
    (j : String) : ((Crew.fresh (.ofCapacities capacities clock)).run moves).Announced j := by
  have hstart : (Crew.fresh (.ofCapacities capacities clock)).Upholds (fun _ => Pact.announcing j)
      (False, 0) (fun _ n _ => Pact.Settled n) (·.store.pending = []) := .fresh _ rfl
  have hc : ((Crew.fresh _).run moves).Upholds _ _ _ _ := hstart.run (Pact.announcing_terms j)
    fun m _ d hd => (m.disturb_pending d).trans hd
  exact hc.announced ((Crew.Announcing.fresh _).run hstart moves)

end PhaseKeeper
