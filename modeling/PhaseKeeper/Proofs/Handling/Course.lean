import PhaseKeeper.Proofs.Handling.Plan
/-!
The course of a handling: the event is looked up and recorded, the phase is read, and then steps are
decided and taken one after the other. To show that a handling keeps a pact it is enough to go through
the turns of this course once.
-/
namespace PhaseKeeper
variable {Note : Type} {P : Pact Note}

/-- What has to be shown at each turn of handling the event `id` of type `t` for the job `j`. Before the
event is recorded `A` holds, then `B`; `I first m p` holds before a step from the phase `p` is decided
that at most `m - 1` others follow; and `post` at the end. -/
structure Pact.Course (P : Pact Note) (id j t : String) (A B : Note → Deployment → Prop)
    (I : Bool → Nat → Phase → Note → Deployment → Prop) (post : Note → Deployment → Prop) :
    Prop where
  later : ∀ {d d'}, P.rely d d' → d.store.Later d'.store
  quiet : ∀ r : Request, r.Reads j ∨ r = .now ∨ (∃ i, r = .report i) → P.Quiet r
  /-- Only recorded events are remembered. -/
  remember : ∀ {n d d'} {x : Unit}, P.valid d → d.store.recorded id = true →
    Answered (.remember id) d x d' →
    P.duty n (.remember id) d x d' ∧ P.note n (.remember id) d x d' = n ∧ P.rely d d'
  new_later : ∀ {n d d'}, A n d → P.rely d d' → A n d'
  recorded_later : ∀ {n d d'}, B n d → P.rely d d' → B n d'
  deciding_later : ∀ {first m p n d d'}, I first m p n d → P.rely d d' → I first m p n d'
  post_later : ∀ {n d d'}, post n d → P.rely d d' → post n d'
  lookUp : ∀ {n d d'} {x : Bool}, A n d → P.valid d → Answered (.lookUp id) d x d' →
    P.duty n (.lookUp id) d x d' ∧
      (x = true → post (P.note n (.lookUp id) d x d') d') ∧
      (x = false → A (P.note n (.lookUp id) d x d') d')
  insert : ∀ {n d d' now} {x : Except StoreFault Unit}, A n d → P.valid d →
    Answered (.store (.insertEvent ⟨id, j, t, now⟩)) d x d' →
    P.duty n (.store (.insertEvent ⟨id, j, t, now⟩)) d x d' ∧
      (x ≠ .ok () → post (P.note n (.store (.insertEvent ⟨id, j, t, now⟩)) d x d') d') ∧
      (x = .ok () → B (P.note n (.store (.insertEvent ⟨id, j, t, now⟩)) d x d') d')
  job : ∀ {n d}, B n d → ∃ job, d.store.job? j = some job
  /-- The phase could not be read. -/
  unread : ∀ {n d}, B n d → ¬ Steady P.valid → post n d
  read : ∀ {n d p}, B n d → d.store.phase? j = some p → I true longestChain p n d
  deciding_job : ∀ {first m p n d}, I first m p n d → ∃ job, d.store.job? j = some job
  rest : ∀ {first p n d}, I first 0 p n d → post n d
  /-- The assets could not be read. -/
  undecided : ∀ {first m p n d}, I first m p n d → ¬ Steady P.valid → post n d
  stay : ∀ {first m p n d d' job view}, I first (m + 1) p n d → P.rely d d' →
    d.store.job? j = some job → Between P.valid j d view d' →
    Step.plan job.assets view t first p = .stay → post n d'
  refire : ∀ {first m p n d d' job view}, I first (m + 1) p n d → P.rely d d' →
    d.store.job? j = some job → Between P.valid j d view d' →
    Step.plan job.assets view t first p = .refire .requestMatching →
    ∀ r : Report, r.jobId = j →
      P.Keeps (fun _ n e => post n e) (r.firing (some .requestMatching)) n d'
  swap : ∀ {first m p q effect n d d' d'' job view} {x : Except StoreFault Bool},
    I first (m + 1) p n d → P.valid d' → P.rely d d' → d.store.job? j = some job →
    Between P.valid j d view d' → Step.plan job.assets view t first p = .advance q effect →
    Answered (.store (.swapPhase j p q)) d' x d'' →
    P.duty n (.store (.swapPhase j p q)) d' x d'' ∧
      (x ≠ .ok true → post (P.note n (.store (.swapPhase j p q)) d' x d'') d'') ∧
      (x = .ok true → ∀ r : Report, r.jobId = j →
        P.Keeps (fun _ n e => if q = .completed then post n e else I false m q n e)
          (r.firing effect) (P.note n (.store (.swapPhase j p q)) d' x d'') d'')

namespace Pact

theorem keeps_firing {j : String} {S : Note → Deployment → Prop} {n : Note} {d : Deployment}
    (hq : ∀ r : Request, r.Notifies j → P.Quiet r)
    (hs : ∀ {n d d'}, S n d → P.rely d d' → S n d') (h : S n d) (r : Report) (hr : r.jobId = j)
    (effect : Option Effect) : P.Keeps (fun _ n e => S n e) (r.firing effect) n d := by
  subst hr
  refine (Keeps.of_within (firing_within r effect) hq).mono ?_
  rintro _ _ e _ ⟨-, rfl, hl⟩
  exact hs h hl

namespace Course
variable {id j t : String} {A B post : Note → Deployment → Prop}
  {I : Bool → Nat → Phase → Note → Deployment → Prop} {n : Note} {d : Deployment}

theorem keeps_pure {α : Type} (C : P.Course id j t A B I post) (h : post n d) (a : α) :
    P.Keeps (fun _ n d => post n d) (pure a) n d := fun _ _ hl => C.post_later h hl

theorem keeps_report {α : Type} (C : P.Course id j t A B I post) (h : post n d) (i : Incident)
    (a : α) : P.Keeps (fun _ n d => post n d) (do ask (.report i); return a) n d := by
  refine .ask fun d₁ hv hl x d₂ hx => ?_
  have hq := C.quiet (.report i) (.inr (.inr ⟨i, rfl⟩))
  refine ⟨hq.duty hv hx, ?_⟩
  rw [hq.note hv hx]
  exact C.keeps_pure (C.post_later (C.post_later h hl) (hq.rely hv hx)) a

theorem keeps_chain (C : P.Course id j t A B I post) (first : Bool) (m : Nat) (r : Report)
    (hj : r.jobId = j) (ht : r.eventType = t) (h : I first m r.finish n d) :
    P.Keeps (fun _ n d => post n d) (chain first m r) n d := by
  induction m generalizing first r n d with
  | zero => exact C.keeps_pure (C.rest h) _
  | succ m ih =>
    obtain ⟨job, hjob⟩ := C.deciding_job h
    have hview := nextStep_view (V := P.valid) (hj ▸ hjob) r.eventType first r.finish
    refine .bind ((hview.transfer (nextStep_within _ _ _ _)
      (fun q hq => C.quiet q (.inl (hj ▸ hq))) C.later fun hv => hv).mono ?_)
    rintro x _ d₁ _ ⟨⟨-, hx⟩, rfl, hl⟩
    obtain ⟨hs, cause, rfl⟩ | ⟨view, hb, rfl⟩ := hx
    · exact C.keeps_pure (C.undecided (C.deciding_later h hl) hs) _
    rw [hj] at hb
    simp only [ht]
    cases hp : Step.plan job.assets view t first r.finish with
    | stay => exact C.keeps_pure (C.stay h hl hjob hb hp) _
    | refire effect =>
      obtain rfl := Step.refire_eq hp
      exact C.refire h hl hjob hb hp r hj
    | advance q effect =>
      simp only [Phase.ensureForward_of_lt (Step.lt_of_advance hp)]
      refine .ask fun d₂ hv₂ hl₂ x d₃ hx => ?_
      have hs := C.swap h hv₂ (P.trans hl hl₂) hjob (hb.after (C.later hl₂)) hp (hj ▸ hx)
      rw [hj]
      refine ⟨hs.1, ?_⟩
      obtain cause | _ | _ := x
      · exact C.keeps_pure (hs.2.1 (by simp)) _
      · exact C.keeps_pure (hs.2.1 (by simp)) _
      · have hf := hs.2.2 rfl ⟨j, t, r.start, q, r.effects, r.conflict⟩ rfl
        refine .bind ((hf.within (firing_within _ _)).mono ?_)
        rintro y n' d₄ _ ⟨⟨-, hok, hy⟩, hpost⟩
        by_cases hq : q = .completed
        · rw [if_pos hq] at hpost
          cases y with
          | error cause => exact C.keeps_pure hpost _
          | ok r' =>
            simp only [Phase.isTerminal, hq, decide_true, if_true]
            exact C.keeps_pure hpost _
        · rw [if_neg hq] at hpost
          obtain ⟨r', rfl⟩ := hok fun he => hq ((Step.announces_iff hp).1 he)
          obtain ⟨hj', ht', hfin⟩ := hy r' rfl
          simp only [Phase.isTerminal, hq, decide_false]
          exact ih false r' hj' ht' (hfin ▸ hpost)

theorem keeps_advanceJob (C : P.Course id j t A B I post) (h : B n d) :
    P.Keeps (fun _ n d => post n d) (advanceJob id j t) n d := by
  have hq := C.quiet (.store (.phaseOf j)) (.inl rfl)
  refine .ask fun d₁ hv hl x d₂ hx => ⟨hq.duty hv hx, ?_⟩
  rw [hq.note hv hx]
  have h₁ := C.recorded_later h hl
  have h₂ := C.recorded_later h₁ (hq.rely hv hx)
  obtain ⟨job, hjob⟩ := C.job h₁
  obtain rfl | ⟨hf, cause, rfl⟩ := hx.phaseOf
  · rw [MemoryStore.phase_of_job hjob]
    have he : d₂.store = d₁.store := hx.store_eq rfl
    refine .bind ((C.keeps_chain true longestChain ⟨j, t, job.phase, job.phase, [], false⟩ rfl rfl
      (C.read h₂ (he ▸ MemoryStore.phase_of_job hjob))).mono ?_)
    intro y n' d₃ _ hpost
    cases y with
    | error cause => exact C.keeps_report hpost _ _
    | ok r => exact C.keeps_pure hpost _
  · exact C.keeps_report (C.unread h₂ fun hs => hf (hs d₁ hv)) _ _

theorem keeps_insertNew (C : P.Course id j t A B I post) (h : A n d) (now : Instant) :
    P.Keeps (fun x n d => if x = .recorded then B n d else post n d) (insertNew ⟨id, j, t, now⟩)
      n d := by
  refine .ask fun d₁ hv hl x d₂ hx => ?_
  have hi := C.insert (C.new_later h hl) hv hx
  refine ⟨hi.1, ?_⟩
  have hrem {post' : Recording → Note → Deployment → Prop} {n' : Note} (y : Recording)
      (hrec : d₂.store.recorded id = true)
      (hend : ∀ d₃ d₄, P.rely d₂ d₃ → P.rely d₃ d₄ → post' y n' d₄) :
      P.Keeps post' (do ask (.remember id); return y) n' d₂ := by
    refine .ask fun d₃ hv₃ hl₃ _ d₄ hy => ?_
    have hq := C.remember (n := n') hv₃ ((C.later hl₃).recorded hrec) hy
    refine ⟨hq.1, ?_⟩
    rw [hq.2.1]
    exact fun d₅ _ hl₅ => hend d₃ d₅ hl₃ (P.trans hq.2.2 hl₅)
  obtain cause | _ := x
  · have hpost := hi.2.1 (by simp)
    have hend (y : Recording) (hy : y ≠ .recorded) :
        P.Keeps (fun x n d => if x = .recorded then B n d else post n d) (pure y) _ d₂ :=
      fun d₃ _ hl₃ => by simpa only [if_neg hy] using C.post_later hpost hl₃
    cases cause with
    | alreadyRecorded =>
      refine hrem _ (hx.recorded_of_known rfl) fun d₃ d₄ hl₃ hl₄ => ?_
      rw [if_neg (by simp)]
      exact C.post_later (C.post_later hpost hl₃) hl₄
    | _ => exact hend _ (by simp)
  · refine hrem _ (hx.recorded rfl).recorded fun d₃ d₄ hl₃ hl₄ => ?_
    rw [if_pos rfl]
    exact C.recorded_later (C.recorded_later (hi.2.2 rfl) hl₃) hl₄

theorem keeps_recordEvent (C : P.Course id j t A B I post) (h : A n d) :
    P.Keeps (fun x n d => if x = .recorded then B n d else post n d) (recordEvent id j t) n d := by
  refine .ask fun d₁ hv hl hit d₂ hx => ?_
  have hk := C.lookUp (C.new_later h hl) hv hx
  refine ⟨hk.1, ?_⟩
  cases hit with
  | true =>
    intro d₃ _ hl₃
    rw [if_neg (by simp)]
    exact C.post_later (hk.2.1 rfl) hl₃
  | false =>
    have hq := C.quiet .now (.inr (.inl rfl))
    refine .ask fun d₃ hv₃ hl₃ now d₄ hnow => ⟨hq.duty hv₃ hnow, ?_⟩
    rw [hq.note hv₃ hnow]
    exact C.keeps_insertNew (C.new_later (C.new_later (hk.2.2 rfl) hl₃) (hq.rely hv₃ hnow)) now

theorem keeps_handleAccepted {e : CompletionEvent} (C : P.Course e.eventId e.jobId t A B I post)
    (h : A n d) : P.Keeps (fun _ n d => post n d) (handleAccepted t e) n d := by
  refine .bind ((C.keeps_recordEvent h).mono ?_)
  intro x n' d' _ hx
  obtain _ | _ | cause := x
  · exact C.keeps_advanceJob (by simpa using hx)
  · exact C.keeps_pure (by simpa using hx) _
  · have hpost : post n' d' := by simpa using hx
    cases cause <;> exact C.keeps_pure hpost _

end Course
end Pact
end PhaseKeeper
