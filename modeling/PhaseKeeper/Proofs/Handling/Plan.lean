import Mathlib.Logic.Function.Basic
import PhaseKeeper.Proofs.Handling.Footprint
/-!
A step is decided by several looks at the ledger, and the ledger can grow from one look to the next.
Still a decision is what someone would plan who saw all of it at once, at some view between the ledger
before the first look and the ledger after the last. Look-ups that fail only make the view smaller.
-/
namespace PhaseKeeper

theorem Assets.nodup_required (a : Assets) : a.required.Nodup := by
  obtain ⟨_ | _, _ | _⟩ := a <;> decide

theorem Assets.matchings_notMem_required (a : Assets) : Topic.matchings ∉ a.required := by
  obtain ⟨_ | _, _ | _⟩ := a <;> decide

theorem Assets.evidences_notMem_required (a : Assets) : Topic.evidences ∉ a.required := by
  obtain ⟨_ | _, _ | _⟩ := a <;> decide

theorem all_mono {ts : List String} {view view' : String → Bool}
    (hv : ∀ {t}, view t = true → view' t = true) (h : ts.all view = true) : ts.all view' = true :=
  List.all_eq_true.2 fun t ht => hv (List.all_eq_true.1 h t ht)

namespace Step

/-- The step that a phase calls for, given the recorded types of events. -/
def phasePlan (assets : Assets) (view : String → Bool) (t : String) (first : Bool) : Phase → Step
  | .collection => .advance .featureExtraction none
  | .featureExtraction => if assets.required.all view then .startMatching else .stay
  | .matching =>
    if t = Topic.matchings then .advance .evidence none
    else if first then .refire .requestMatching
    else .stay
  | .evidence => if t = Topic.evidences ∨ view Topic.evidences then .complete else .stay
  | .completed => .stay

def plan (assets : Assets) (view : String → Bool) (t : String) (first : Bool) (p : Phase) : Step :=
  if t = Topic.evidences ∧ p < .evidence ∧ view Topic.matchings then .complete
  else phasePlan assets view t first p

variable {assets : Assets} {view view' : String → Bool} {t : String} {first : Bool} {p q : Phase}
  {effect : Option Effect}

theorem phasePlan_congr (hr : assets.required.all view = assets.required.all view')
    (he : view Topic.evidences = view' Topic.evidences) :
    phasePlan assets view t first p = phasePlan assets view' t first p := by
  cases p <;> simp only [phasePlan, hr, he]

theorem advance_cases (h : plan assets view t first p = .advance q effect) :
    (t = Topic.evidences ∧ p < .evidence ∧ view Topic.matchings = true ∧
      q = .completed ∧ effect = some .announceCompletion) ∨
    (p = .collection ∧ q = .featureExtraction ∧ effect = none) ∨
    (p = .featureExtraction ∧ assets.required.all view = true ∧
      q = .matching ∧ effect = some .requestMatching) ∨
    (p = .matching ∧ t = Topic.matchings ∧ q = .evidence ∧ effect = none) ∨
    (p = .evidence ∧ (t = Topic.evidences ∨ view Topic.evidences = true) ∧
      q = .completed ∧ effect = some .announceCompletion) := by
  unfold plan at h
  split at h
  · rename_i hg
    cases h
    exact .inl ⟨hg.1, hg.2.1, hg.2.2, rfl, rfl⟩
  · cases p with
    | collection =>
      cases h
      exact .inr (.inl ⟨rfl, rfl, rfl⟩)
    | featureExtraction =>
      simp only [phasePlan] at h
      split at h
      · rename_i hr
        cases h
        exact .inr (.inr (.inl ⟨rfl, hr, rfl, rfl⟩))
      · cases h
    | matching =>
      simp only [phasePlan] at h
      split at h
      · rename_i ht
        cases h
        exact .inr (.inr (.inr (.inl ⟨rfl, ht, rfl, rfl⟩)))
      · split at h <;> cases h
    | evidence =>
      simp only [phasePlan] at h
      split at h
      · rename_i he
        cases h
        exact .inr (.inr (.inr (.inr ⟨rfl, he, rfl, rfl⟩)))
      · cases h
    | completed => cases h

theorem lt_of_advance (h : plan assets view t first p = .advance q effect) : p < q := by
  obtain ⟨-, hp, -, rfl, -⟩ | ⟨rfl, rfl, -⟩ | ⟨rfl, -, rfl, -⟩ | ⟨rfl, -, rfl, -⟩ |
      ⟨rfl, -, rfl, -⟩ := advance_cases h
  · exact Nat.lt_trans hp (by decide)
  all_goals decide

theorem announces_iff (h : plan assets view t first p = .advance q effect) :
    effect = some .announceCompletion ↔ q = .completed := by
  obtain ⟨-, -, -, rfl, rfl⟩ | ⟨-, rfl, rfl⟩ | ⟨-, -, rfl, rfl⟩ | ⟨-, -, rfl, rfl⟩ |
      ⟨-, -, rfl, rfl⟩ := advance_cases h <;> decide

theorem refire_eq {effect : Effect} (h : plan assets view t first p = .refire effect) :
    effect = .requestMatching := by
  unfold plan at h
  split at h
  · cases h
  · cases p with
    | collection | completed => cases h
    | featureExtraction | evidence =>
      simp only [phasePlan] at h
      split at h <;> cases h
    | matching =>
      simp only [phasePlan] at h
      split at h
      · cases h
      · split at h
        · cases h
          rfl
        · cases h

variable {first' : Bool}

def isAdvance : Step → Bool
  | .advance .. => true
  | _ => false

theorem exists_of_isAdvance {s : Step} (h : s.isAdvance = true) : ∃ q effect, s = .advance q effect := by
  cases s with
  | stay | refire => cases h
  | advance q effect => exact ⟨q, effect, rfl⟩

theorem isAdvance_of_phasePlan (h : (phasePlan assets view t first p).isAdvance = true) :
    (plan assets view t first p).isAdvance = true := by
  unfold plan
  split
  · rfl
  · exact h

/-- A step that is due stays due when more is seen. -/
theorem isAdvance_mono (hv : ∀ {t}, view t = true → view' t = true)
    (h : (plan assets view t first p).isAdvance = true) :
    (plan assets view' t first' p).isAdvance = true := by
  obtain ⟨q, effect, hp⟩ := exists_of_isAdvance h
  by_cases hg : t = Topic.evidences ∧ p < .evidence ∧ view' Topic.matchings = true
  · simp [plan, hg, complete, isAdvance]
  · rw [plan, if_neg hg]
    obtain ⟨ht, hlt, hm, -⟩ | ⟨rfl, -⟩ | ⟨rfl, hr, -⟩ | ⟨rfl, rfl, -⟩ |
        ⟨rfl, he, -⟩ := advance_cases hp
    · exact absurd ⟨ht, hlt, hv hm⟩ hg
    · rfl
    · have hr' : assets.required.all view' = true := all_mono hv hr
      simp [phasePlan, hr', startMatching, isAdvance]
    · simp [phasePlan, isAdvance]
    · have he' := he.imp_right fun h => hv h
      simp [phasePlan, he', complete, isAdvance]

end Step

/-- For someone who only reads: deployments are in `V`, and the store grows. -/
def Pact.watching (V : Deployment → Prop) : Pact Unit where
  valid := V
  rely d d' := d.store.Later d'.store
  duty _ _ _ _ _ := True
  note _ _ _ _ _ := ()
  refl := Deployment.later_refl
  trans := @Deployment.later_trans

def Steady (V : Deployment → Prop) : Prop := ∀ d, V d → d.store.faults = []

/-- The view holds nothing that is not recorded in the end, and, if nothing fails, all that was
recorded in the beginning. -/
structure Between (V : Deployment → Prop) (j : String) (d : Deployment) (view : String → Bool)
    (d' : Deployment) : Prop where
  upper : ∀ {t}, view t = true → d'.store.hasEvent j t = true
  lower : Steady V → ∀ {t}, d.store.hasEvent j t = true → view t = true

variable {V : Deployment → Prop} {j t : String} {d d₁ d' : Deployment} {view : String → Bool}

theorem Between.refl (V : Deployment → Prop) (j : String) (h : d.store.Later d'.store) :
    Between V j d (d.store.hasEvent j) d' := ⟨h.hasEvent, fun _ _ h => h⟩

theorem Between.after (h : Between V j d view d₁) (hl : d₁.store.Later d'.store) :
    Between V j d view d' := ⟨fun ht => hl.hasEvent (h.upper ht), h.lower⟩

theorem Between.before (h : Between V j d₁ view d') (hl : d.store.Later d₁.store) :
    Between V j d view d' := ⟨h.upper, fun hs _ ht => h.lower hs (hl.hasEvent ht)⟩

theorem Between.update {b : Bool} (h : Between V j d view d')
    (hu : b = true → d'.store.hasEvent j t = true)
    (hl : Steady V → d.store.hasEvent j t = true → b = true) :
    Between V j d (Function.update view t b) d' where
  upper := by
    intro u hv
    by_cases hut : u = t
    · subst hut
      exact hu (by simpa using hv)
    · exact h.upper (by simpa [hut] using hv)
  lower := by
    intro hs u hv
    by_cases hut : u = t
    · subst hut
      simpa using hl hs hv
    · simpa [hut] using h.lower hs hv

theorem all_update {ts : List String} (h : t ∉ ts) (view : String → Bool) (b : Bool) :
    ts.all (Function.update view t b) = ts.all view := by
  induction ts with
  | nil => rfl
  | cons u ts ih =>
    have hu : u ≠ t := fun he => h (he ▸ List.mem_cons_self)
    have hts : t ∉ ts := fun hm => h (List.mem_cons_of_mem u hm)
    rw [List.all_cons, List.all_cons, Function.update_of_ne hu, ih hts]

theorem seen_view (V : Deployment → Prop) (j t : String) (d : Deployment) :
    (Pact.watching V).Keeps (fun b _ d' => d.store.Later d'.store ∧
      (b = true → d'.store.hasEvent j t = true) ∧
      (Steady V → d.store.hasEvent j t = true → b = true)) (seen j t) () d := by
  intro d₁ hv hl x d₂ hx
  refine ⟨trivial, ?_⟩
  have he : d₂.store = d₁.store := hx.store_eq rfl
  obtain rfl | ⟨hf, cause, rfl⟩ := hx.hasEvent
  · intro d₃ _ hl₃
    exact ⟨hl.trans (he ▸ hl₃), fun h => MemoryStore.Later.hasEvent (he ▸ hl₃) h,
      fun _ h => hl.hasEvent h⟩
  · intro d₃ _ hl₃
    exact ⟨hl.trans (he ▸ hl₃), fun h => (nomatch h), fun hs => absurd (hs d₁ hv) hf⟩

theorem allSeen_view (V : Deployment → Prop) (j : String) {ts : List String} (hn : ts.Nodup)
    (d : Deployment) :
    (Pact.watching V).Keeps (fun b _ d' => d.store.Later d'.store ∧
      ∃ view, Between V j d view d' ∧ b = ts.all view) (allSeen j ts) () d := by
  induction ts generalizing d with
  | nil => exact fun d' _ hl => ⟨hl, _, .refl V j hl, rfl⟩
  | cons t ts ih =>
    have ⟨htn, hn'⟩ := List.nodup_cons.1 hn
    refine .bind ((seen_view V j t d).mono ?_)
    rintro b _ d₁ _ ⟨hl, hu, hlo⟩
    cases b with
    | false =>
      intro d₂ _ hl₂
      have hb := (Between.refl V j (hl.trans hl₂)).update (b := false) (fun h => nomatch h) hlo
      exact ⟨hl.trans hl₂, _, hb, by simp⟩
    | true =>
      refine (ih hn' d₁).mono ?_
      rintro b _ d₂ _ ⟨hl₂, view, hb, rfl⟩
      refine ⟨hl.trans hl₂, _, (hb.before hl).update (b := true) (fun h => hl₂.hasEvent (hu h))
        hlo, ?_⟩
      rw [List.all_cons, Function.update_self, Bool.true_and, all_update htn]

/-- The outcome of a decision, if the job is there: what is planned on some view, unless a look-up of
the assets failed. -/
def Decided (V : Deployment → Prop) (j : String) (d : Deployment) (d' : Deployment)
    (planned : (String → Bool) → Step) (x : Except StoreFault Step) : Prop :=
  (¬ Steady V ∧ ∃ cause, x = .error cause) ∨
    ∃ view, Between V j d view d' ∧ x = .ok (planned view)

theorem phaseStep_view {job : Job} (hj : d.store.job? j = some job) (t : String) (first : Bool)
    (p : Phase) :
    (Pact.watching V).Keeps (fun x _ d' => d.store.Later d'.store ∧
      Decided V j d d' (fun view => Step.phasePlan job.assets view t first p) x)
      (phaseStep j t first p) () d := by
  have hdone (s : Step) (hs : ∀ view, Step.phasePlan job.assets view t first p = s) :
      (Pact.watching V).Keeps (fun x _ d' => d.store.Later d'.store ∧
        Decided V j d d' (fun view => Step.phasePlan job.assets view t first p) x)
        (pure (.ok s)) () d :=
    fun d' _ hl => ⟨hl, .inr ⟨_, .refl V j hl, congrArg _ (hs _).symm⟩⟩
  cases p with
  | collection => exact hdone _ fun _ => rfl
  | completed => exact hdone _ fun _ => rfl
  | matching =>
    simp only [phaseStep]
    split
    · rename_i ht
      exact hdone _ fun _ => by simp only [Step.phasePlan, ht, if_true]
    · rename_i ht
      cases first
      · exact hdone _ fun _ => by simp [Step.phasePlan, ht]
      · exact hdone _ fun _ => by simp [Step.phasePlan, ht]
  | featureExtraction =>
    -- The assets of a job never change, so those that are read are those that the plan is about.
    refine .ask fun d₁ hv hl x d₂ hx => ⟨trivial, ?_⟩
    have he : d₂.store = d₁.store := hx.store_eq rfl
    obtain ⟨job', hj', ha, -, -⟩ := hl.job hj
    obtain ⟨job₁, hj₁, rfl⟩ | ⟨hf | hn, cause, rfl⟩ := hx.assetsOf
    · have hja : job₁.assets = job.assets := by
        rw [← ha, Option.some.inj (hj₁.symm.trans hj')]
      refine .bind ((allSeen_view V j job₁.assets.nodup_required d₂).mono ?_)
      rintro b _ d₃ _ ⟨hl₃, view, hb, rfl⟩
      have hl' : d.store.Later d₂.store := he ▸ hl
      have hplan (d₄ : Deployment) (hl₄ : d₃.store.Later d₄.store) :
          d.store.Later d₄.store ∧
            Decided V j d d₄ (fun view => Step.phasePlan job.assets view t first .featureExtraction)
              (.ok (if job.assets.required.all view then .startMatching else .stay)) :=
        ⟨hl'.trans (hl₃.trans hl₄), .inr ⟨view, (hb.before hl').after hl₄, rfl⟩⟩
      rw [hja]
      cases hall : job.assets.required.all view with
      | true => exact fun d₄ _ hl₄ => by simpa [hall] using hplan d₄ hl₄
      | false => exact fun d₄ _ hl₄ => by simpa [hall] using hplan d₄ hl₄
    · exact fun d₃ _ hl₃ => ⟨hl.trans (he ▸ hl₃), .inl ⟨fun hs => hf (hs d₁ hv), cause, rfl⟩⟩
    · rw [hj'] at hn
      cases hn
  | evidence =>
    simp only [phaseStep, evidenceStep]
    split
    · rename_i ht
      exact hdone _ fun _ => by simp only [Step.phasePlan, ht, true_or, if_true]
    · rename_i ht
      refine .bind ((seen_view V j Topic.evidences d).mono ?_)
      rintro b _ d₁ _ ⟨hl, hu, hlo⟩
      have hplan (d₂ : Deployment) (hl₂ : d₁.store.Later d₂.store) : d.store.Later d₂.store ∧
          Decided V j d d₂ (fun view => Step.phasePlan job.assets view t first .evidence)
            (.ok (if b then .complete else .stay)) := by
        refine ⟨hl.trans hl₂, .inr ⟨_, (Between.refl V j (hl.trans hl₂)).update
          (fun h => hl₂.hasEvent (hu h)) hlo, ?_⟩⟩
        simp [Step.phasePlan, ht]
      cases b with
      | true => exact fun d₂ _ hl₂ => hplan d₂ hl₂
      | false => exact fun d₂ _ hl₂ => hplan d₂ hl₂

theorem nextStep_view {job : Job} (hj : d.store.job? j = some job) (t : String) (first : Bool)
    (p : Phase) :
    (Pact.watching V).Keeps (fun x _ d' => d.store.Later d'.store ∧
      Decided V j d d' (fun view => Step.plan job.assets view t first p) x)
      (nextStep j t first p) () d := by
  unfold nextStep
  split
  · rename_i hg
    refine .bind ((seen_view V j Topic.matchings d).mono ?_)
    rintro b _ d₁ _ ⟨hl, hu, hlo⟩
    cases b with
    | true =>
      intro d₂ _ hl₂
      refine ⟨hl.trans hl₂, .inr ⟨_, (Between.refl V j (hl.trans hl₂)).update
        (fun h => hl₂.hasEvent (hu h)) hlo, ?_⟩⟩
      simp [Step.plan, hg]
    | false =>
      obtain ⟨job₁, hj₁, ha, -, -⟩ := hl.job hj
      refine (phaseStep_view hj₁ t first p).mono ?_
      rintro x _ d₂ _ ⟨hl₂, hx⟩
      refine ⟨hl.trans hl₂, ?_⟩
      obtain ⟨hs, cause, rfl⟩ | ⟨view, hb, rfl⟩ := hx
      · exact .inl ⟨hs, cause, rfl⟩
      · refine .inr ⟨_, (hb.before hl).update (b := false) (fun h => nomatch h) hlo, ?_⟩
        rw [ha]
        simp only [Step.plan, Function.update_self, Bool.false_eq_true, and_false, if_false]
        congr 1
        refine Step.phasePlan_congr ?_ ?_
        · exact (all_update job.assets.matchings_notMem_required view false).symm
        · exact (Function.update_of_ne (by decide) _ _).symm
  · rename_i hg
    refine (phaseStep_view hj t first p).mono ?_
    rintro x _ d₁ _ ⟨hl, hx⟩
    refine ⟨hl, hx.imp_right ?_⟩
    rintro ⟨view, hb, rfl⟩
    refine ⟨view, hb, ?_⟩
    simp only [Step.plan]
    rw [if_neg fun h => hg ⟨h.1, h.2.1⟩]

end PhaseKeeper
