import PhaseKeeper.Proofs.Handling.Plan
/-!
Where events bring a job when they are handled one after the other. In one order or another that can be
different phases; two orders are enough to reach whatever can be reached.
-/
namespace PhaseKeeper
variable {assets : Assets} {view view' w : String → Bool} {t u : String} {ts us : List String}
  {p q : Phase}

namespace Step

theorem rest_cases (h : (plan assets view t false p).isAdvance = false) :
    (p = .featureExtraction ∧ assets.required.all view = false ∧
      (t = Topic.evidences → view Topic.matchings = false)) ∨
    (p = .matching ∧ t ≠ Topic.matchings ∧
      (t = Topic.evidences → view Topic.matchings = false)) ∨
    (p = .evidence ∧ t ≠ Topic.evidences ∧ view Topic.evidences = false) ∨
    p = .completed := by
  have hphase : (phasePlan assets view t false p).isAdvance = false :=
    Bool.eq_false_iff.2 fun hp => Bool.eq_false_iff.1 h (isAdvance_of_phasePlan hp)
  have hguard (hlt : p < .evidence) (ht : t = Topic.evidences) : view Topic.matchings = false := by
    refine Bool.eq_false_iff.2 fun hm => ?_
    rw [plan, if_pos ⟨ht, hlt, hm⟩] at h
    cases h
  cases p with
  | collection => cases hphase
  | featureExtraction =>
    refine .inl ⟨rfl, Bool.eq_false_iff.2 fun hr => ?_, hguard (by decide)⟩
    simp [phasePlan, hr, startMatching, isAdvance] at hphase
  | matching =>
    refine .inr (.inl ⟨rfl, fun ht => ?_, hguard (by decide)⟩)
    simp [phasePlan, ht, isAdvance] at hphase
  | evidence =>
    refine .inr (.inr (.inl ⟨rfl, fun ht => ?_, Bool.eq_false_iff.2 fun he => ?_⟩))
    · simp [phasePlan, ht, complete, isAdvance] at hphase
    · simp [phasePlan, he, complete, isAdvance] at hphase
  | completed => exact .inr (.inr (.inr rfl))

theorem no_shortcut (h : t = Topic.evidences → view Topic.matchings = false) :
    ¬ (t = Topic.evidences ∧ p < .evidence ∧ view Topic.matchings = true) := by
  intro hg
  rw [h hg.1] at hg
  exact absurd hg.2.2 (by decide)

theorem rest_features (hr : assets.required.all view = false)
    (hg : t = Topic.evidences → view Topic.matchings = false) :
    (plan assets view t false .featureExtraction).isAdvance = false := by
  rw [plan, if_neg (no_shortcut hg)]
  simp [phasePlan, hr, isAdvance]

theorem rest_matching (ht : t ≠ Topic.matchings)
    (hg : t = Topic.evidences → view Topic.matchings = false) :
    (plan assets view t false .matching).isAdvance = false := by
  rw [plan, if_neg (no_shortcut hg)]
  simp [phasePlan, ht, isAdvance]

theorem rest_evidence (ht : t ≠ Topic.evidences) (he : view Topic.evidences = false) :
    (plan assets view t false .evidence).isAdvance = false := by
  rw [plan, if_neg fun h => ht h.1]
  simp [phasePlan, ht, he, isAdvance]

theorem rest_completed : (plan assets view t false .completed).isAdvance = false := by
  rw [plan, if_neg fun h => absurd h.2.1 (by decide)]
  rfl

/-- Where an event of type `t` brings a job from the phase `p` if nobody interferes. -/
def landing (assets : Assets) (view : String → Bool) (t : String) (p : Phase) : Phase :=
  let fromEvidence :=
    if t = Topic.evidences ∨ view Topic.evidences then Phase.completed else .evidence
  let fromMatching := if t = Topic.matchings then fromEvidence else .matching
  if t = Topic.evidences ∧ p < .evidence ∧ view Topic.matchings then .completed
  else match p with
    | .collection | .featureExtraction =>
      if assets.required.all view then fromMatching else .featureExtraction
    | .matching => fromMatching
    | .evidence => fromEvidence
    | .completed => .completed

theorem landing_of_rest (h : (plan assets view t false p).isAdvance = false) :
    landing assets view t p = p := by
  obtain ⟨rfl, hr, hg⟩ | ⟨rfl, ht, hg⟩ | ⟨rfl, ht, he⟩ | rfl := rest_cases h
  · simp [landing, no_shortcut hg, hr]
  · simp [landing, no_shortcut hg, ht]
  · simp [landing, ht, he]
  · simp [landing]

theorem le_landing : p ≤ landing assets view t p := by
  simp only [landing]
  split
  · cases p <;> decide
  · cases p with
    | collection | featureExtraction =>
      dsimp only
      (repeat' split) <;> decide
    | matching =>
      dsimp only
      (repeat' split) <;> decide
    | evidence =>
      dsimp only
      split <;> decide
    | completed => exact Phase.le_refl _

theorem landing_collection : landing assets view t .collection =
    landing assets view t .featureExtraction := by
  have hC : Phase.collection < .evidence := by decide
  have hF : Phase.featureExtraction < .evidence := by decide
  simp only [landing, hC, hF]

theorem landing_evidences (h : p < .evidence → view Topic.matchings = true) :
    landing assets view Topic.evidences p = .completed := by
  by_cases hp : p < .evidence
  · simp [landing, hp, h hp]
  · have hp' : p = .evidence ∨ p = .completed := by
      revert hp
      cases p <;> decide
    obtain rfl | rfl := hp' <;> simp [landing]

theorem landing_matchings (hr : p < .matching → assets.required.all view = true)
    (hp : p < .evidence) : landing assets view Topic.matchings p =
      if view Topic.evidences then .completed else .evidence := by
  have hne : Topic.matchings ≠ Topic.evidences := by decide
  cases p with
  | collection | featureExtraction => simp [landing, hne, hr (by decide)]
  | matching => simp [landing, hne]
  | evidence | completed => exact absurd hp (by decide)

/-- The types that are seen once events of the types `ts` are recorded as well. -/
def seeing (view : String → Bool) (ts : List String) : String → Bool := fun t => view t || t ∈ ts

theorem seeing_iff : seeing view ts t = true ↔ view t = true ∨ t ∈ ts := by simp [seeing]

theorem seeing_nil : seeing view [] = view := by
  funext t
  simp [seeing]

theorem seeing_append : seeing (seeing view ts) us = seeing view (ts ++ us) := by
  funext t
  simp [seeing, Bool.or_assoc]

/-- Where events of the types `ts` bring a job one after the other. -/
def landings (assets : Assets) : (String → Bool) → Phase → List String → Phase
  | _, p, [] => p
  | view, p, t :: ts =>
    landings assets (seeing view [t]) (landing assets (seeing view [t]) t p) ts

theorem landings_append : landings assets view p (ts ++ us) =
    landings assets (seeing view ts) (landings assets view p ts) us := by
  induction ts generalizing view p with
  | nil =>
    rw [seeing_nil]
    rfl
  | cons t ts ih =>
    simp only [List.cons_append, List.nil_append, landings, ih, seeing_append]

theorem landings_collection (h : ts ≠ []) : landings assets view .collection ts =
    landings assets view .featureExtraction ts := by
  cases ts with
  | nil => exact absurd rfl h
  | cons t ts => simp only [landings, landing_collection]

/-- Events that call for no step, even when all of them are seen, leave a job where it is. -/
theorem landings_of_rest (hw : ∀ u, seeing view ts u = true → w u = true)
    (h : ∀ t ∈ ts, (plan assets w t false p).isAdvance = false) :
    landings assets view p ts = p := by
  induction ts generalizing view with
  | nil => rfl
  | cons t ts ih =>
    have hsplit : seeing (seeing view [t]) ts = seeing view (t :: ts) := seeing_append
    have hnow : (plan assets (seeing view [t]) t false p).isAdvance = false := by
      refine Bool.eq_false_iff.2 fun ha => Bool.eq_false_iff.1 (h t List.mem_cons_self) ?_
      refine isAdvance_mono (fun {u} hu => hw u ?_) ha
      rw [← hsplit, seeing_iff]
      exact .inl hu
    simp only [landings, landing_of_rest hnow]
    exact ih (hsplit ▸ hw) fun t' ht' => h t' (List.mem_cons_of_mem t ht')

theorem landings_completed : landings assets view .completed ts = .completed :=
  landings_of_rest (fun _ h => h) fun _ _ => rest_completed

theorem landings_evidences (ht : Topic.evidences ∈ ts)
    (h : p < .evidence → view Topic.matchings = true) :
    landings assets view p ts = .completed := by
  induction ts generalizing view p with
  | nil => cases ht
  | cons t ts ih =>
    have hm (hp : p < .evidence) : seeing view [t] Topic.matchings = true :=
      seeing_iff.2 (.inl (h hp))
    obtain rfl | ht := List.mem_cons.1 ht
    · simp only [landings, landing_evidences hm, landings_completed]
    · exact ih ht fun hlt => hm (Nat.lt_of_le_of_lt le_landing hlt)

theorem le_landings : p ≤ landings assets view p ts := by
  induction ts generalizing view p with
  | nil => exact Phase.le_refl p
  | cons t ts ih => exact Phase.le_trans le_landing ih

theorem landings_matchings (ht : Topic.matchings ∈ ts)
    (hr : assets.required.all view = true) : .evidence ≤ landings assets view p ts := by
  induction ts generalizing view p with
  | nil => cases ht
  | cons t ts ih =>
    have hr' : assets.required.all (seeing view [t]) = true :=
      all_mono (fun hu => seeing_iff.2 (.inl hu)) hr
    obtain rfl | ht := List.mem_cons.1 ht
    · refine Phase.le_trans (q := landing assets (seeing view [Topic.matchings]) Topic.matchings p) ?_
        le_landings
      by_cases hp : p < .evidence
      · rw [landing_matchings (fun _ => hr') hp]
        split <;> decide
      · exact Phase.le_trans (Nat.le_of_not_lt hp) le_landing
    · exact ih ht hr'

theorem required_seeing (h : ∀ t ∈ ts, t = Topic.matchings ∨ t = Topic.evidences) :
    assets.required.all (seeing view ts) = assets.required.all view := by
  refine Bool.eq_iff_iff.2 ⟨fun hr => ?_, all_mono fun ht => seeing_iff.2 (.inl ht)⟩
  refine List.all_eq_true.2 fun t ht => ?_
  obtain hv | hts := seeing_iff.1 (List.all_eq_true.1 hr t ht)
  · exact hv
  · obtain rfl | rfl := h t hts
    · exact absurd ht assets.matchings_notMem_required
    · exact absurd ht assets.evidences_notMem_required

/-- Evidence and matches leave a job alone that misses features, unless it is matched before there is
evidence. -/
theorem landings_waiting {es ms : List String} (hes : ∀ t ∈ es, t = Topic.evidences)
    (hms : ∀ t ∈ ms, t = Topic.matchings) (hr : assets.required.all view = false)
    (he : es ≠ [] → view Topic.matchings = false) :
    landings assets view .featureExtraction (es ++ ms) = .featureExtraction := by
  have hr₁ : assets.required.all (seeing view es) = false :=
    (required_seeing fun t ht => .inr (hes t ht)).trans hr
  have hr₂ : assets.required.all (seeing (seeing view es) ms) = false :=
    (required_seeing fun t ht => .inl (hms t ht)).trans hr₁
  have hfirst : landings assets view .featureExtraction es = .featureExtraction := by
    refine landings_of_rest (fun _ h => h) fun t ht => rest_features hr₁ fun _ => ?_
    refine Bool.eq_false_iff.2 fun hs => ?_
    obtain hv | hts := seeing_iff.1 hs
    · rw [he (List.ne_nil_of_mem ht)] at hv
      cases hv
    · exact absurd (hes _ hts) (by decide)
  rw [landings_append, hfirst]
  refine landings_of_rest (fun _ h => h) fun t ht => rest_features hr₂ fun hte => ?_
  exact absurd ((hms t ht).symm.trans hte) (by decide)

theorem landing_lt_evidence (hm : t ≠ Topic.matchings) (he : t ≠ Topic.evidences)
    (hp : p < .evidence) : landing assets view t p < .evidence := by
  have hg : ¬ (t = Topic.evidences ∧ p < .evidence ∧ view Topic.matchings = true) := fun h => he h.1
  simp only [landing, if_neg hg, if_neg hm]
  cases p with
  | collection | featureExtraction =>
    dsimp only
    split <;> decide
  | matching => exact hp
  | evidence | completed => exact absurd hp (by decide)

theorem landings_lt_evidence (hm : Topic.matchings ∉ ts) (he : Topic.evidences ∉ ts)
    (hp : p < .evidence) : landings assets view p ts < .evidence := by
  induction ts generalizing view p with
  | nil => exact hp
  | cons t ts ih =>
    have htm : t ≠ Topic.matchings := fun h => hm (h ▸ List.mem_cons_self)
    have hte : t ≠ Topic.evidences := fun h => he (h ▸ List.mem_cons_self)
    exact ih (fun h => hm (List.mem_cons_of_mem t h)) (fun h => he (List.mem_cons_of_mem t h))
      (landing_lt_evidence htm hte hp)

theorem landings_all_matchings (hne : ts ≠ []) (hall : ∀ t ∈ ts, t = Topic.matchings)
    (hr : p < .matching → assets.required.all view = true) (hp : p < .evidence) :
    landings assets view p ts = if view Topic.evidences then .completed else .evidence := by
  cases ts with
  | nil => exact absurd rfl hne
  | cons t ts =>
    obtain rfl := hall t List.mem_cons_self
    have hview : seeing view [Topic.matchings] Topic.evidences = view Topic.evidences := by
      simp [seeing, show Topic.evidences ≠ Topic.matchings by decide]
    have hfirst : landing assets (seeing view [Topic.matchings]) Topic.matchings p =
        if view Topic.evidences then .completed else .evidence := by
      rw [landing_matchings (fun hlt => (required_seeing (by simp)).trans (hr hlt)) hp, hview]
    rw [landings, hfirst]
    cases he : view Topic.evidences with
    | true => exact landings_completed
    | false =>
      refine landings_of_rest (fun _ h => h) fun t ht => rest_evidence ?_ ?_
      · rw [hall t (List.mem_cons_of_mem _ ht)]
        decide
      · refine Bool.eq_false_iff.2 fun hs => ?_
        obtain hv | hts := seeing_iff.1 hs
        · rw [hview, he] at hv
          cases hv
        · exact absurd (hall _ (List.mem_cons_of_mem _ hts)) (by decide)

theorem landings_features (hne : ts ≠ []) (hr : assets.required.all (seeing view ts) = true)
    (hm : Topic.matchings ∉ ts) (he : Topic.evidences ∈ ts → view Topic.matchings = false) :
    landings assets view .featureExtraction ts = .matching := by
  induction ts generalizing view with
  | nil => exact absurd rfl hne
  | cons t ts ih =>
    have htm : t ≠ Topic.matchings := fun h => hm (h ▸ List.mem_cons_self)
    have hm' : Topic.matchings ∉ ts := fun h => hm (List.mem_cons_of_mem t h)
    have hsplit : seeing (seeing view [t]) ts = seeing view (t :: ts) := seeing_append
    have hview : seeing view (t :: ts) Topic.matchings = view Topic.matchings := by
      simp [seeing, hm', htm.symm]
    have hview' : seeing view [t] Topic.matchings = view Topic.matchings := by
      simp [seeing, htm.symm]
    have hg (hte : t = Topic.evidences) : seeing view [t] Topic.matchings = false :=
      hview'.trans (he (hte ▸ List.mem_cons_self))
    simp only [landings, landing, if_neg (no_shortcut hg), if_neg htm]
    split
    · refine landings_of_rest (fun _ h => h) fun u hu => rest_matching ?_ fun hue => ?_
      · rintro rfl
        exact hm' hu
      · rw [hsplit, hview]
        exact he (List.mem_cons_of_mem t (hue ▸ hu))
    · rename_i hnot
      have hne' : ts ≠ [] := by
        rintro rfl
        exact hnot hr
      refine ih hne' (hsplit ▸ hr) hm' fun h => ?_
      rw [hview']
      exact he (List.mem_cons_of_mem t h)

theorem landings_evidence (hne : ts ≠ []) (he : view Topic.evidences = true) :
    landings assets view .evidence ts = .completed := by
  cases ts with
  | nil => exact absurd rfl hne
  | cons t ts =>
    have hv : seeing view [t] Topic.evidences = true := seeing_iff.2 (.inl he)
    have hg : ¬ (t = Topic.evidences ∧ Phase.evidence < .evidence ∧
        seeing view [t] Topic.matchings = true) := fun h => absurd h.2.1 (by decide)
    simp only [landings, landing, if_neg hg, hv, or_true, if_true, landings_completed]

end Step
end PhaseKeeper
