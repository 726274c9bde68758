import PhaseKeeper.Proofs.Handling.Landing
/-!
Which orders of events complete a job. Features and evidence that come early are looked up when their
phase is reached. A match is not, so it can come too early: then only evidence after it helps.
-/
namespace PhaseKeeper.Step
variable {assets : Assets} {view : String → Bool} {t : String} {ts : List String} {p : Phase}

/-- Evidence comes when there is a match, or a match comes when all features are there. -/
def timely (assets : Assets) : (String → Bool) → List String → Bool
  | _, [] => false
  | view, t :: ts =>
    t = Topic.evidences && view Topic.matchings || t = Topic.matchings && assets.required.all view ||
      timely assets (seeing view [t]) ts

theorem timely_cons : timely assets view (t :: ts) = true ↔
    (t = Topic.evidences ∧ view Topic.matchings = true) ∨
    (t = Topic.matchings ∧ assets.required.all view = true) ∨
    timely assets (seeing view [t]) ts = true := by
  simp [timely, or_assoc]

theorem seeing_of_ne {u : String} (h : u ≠ t) : seeing view [t] u = view u := by
  simp [seeing, h]

theorem seeing_cons : seeing (seeing view [t]) ts = seeing view (t :: ts) := seeing_append

theorem landings_of_evidence_le (hp : .evidence ≤ p) (hne : ts ≠ [])
    (he : seeing view ts Topic.evidences = true) : landings assets view p ts = .completed := by
  cases p with
  | collection | featureExtraction | matching => exact absurd hp (by decide)
  | completed => exact landings_completed
  | evidence =>
    cases seeing_iff.1 he with
    | inl hview => exact landings_evidence hne hview
    | inr hts => exact landings_evidences hts fun h => absurd h (Phase.lt_irrefl _)

theorem landings_of_match (hr : assets.required.all view = true)
    (he : seeing view (Topic.matchings :: ts) Topic.evidences = true) :
    landings assets view p (Topic.matchings :: ts) = .completed := by
  by_cases hp : p < .evidence
  · have hr' : assets.required.all (seeing view [Topic.matchings]) = true :=
      (required_seeing (by simp)).trans hr
    have hview : seeing view [Topic.matchings] Topic.evidences = view Topic.evidences :=
      seeing_of_ne (by decide)
    rw [landings, landing_matchings (fun _ => hr') hp, hview]
    cases hv : view Topic.evidences with
    | true => exact landings_completed
    | false =>
      have hts : Topic.evidences ∈ ts := by
        simpa [seeing, hv, show Topic.evidences ≠ Topic.matchings by decide] using he
      exact landings_evidences hts fun h => absurd h (Phase.lt_irrefl _)
  · exact landings_of_evidence_le (Nat.le_of_not_lt hp) (List.cons_ne_nil _ _) he

theorem landings_timely (h : timely assets view ts = true)
    (he : seeing view ts Topic.evidences = true) : landings assets view p ts = .completed := by
  induction ts generalizing view p with
  | nil => cases h
  | cons t ts ih =>
    cases timely_cons.1 h with
    | inl hnow =>
      apply landings_evidences
      · rw [hnow.1]
        exact List.mem_cons_self
      · exact fun _ => hnow.2
    | inr hlater =>
      cases hlater with
      | inl hnow =>
        obtain ⟨rfl, hr⟩ := hnow
        exact landings_of_match hr he
      | inr hlater =>
        rw [← seeing_cons] at he
        exact ih hlater he

theorem required_of_matching (h : landing assets view t p = .matching) (hp : p ≠ .matching) :
    assets.required.all view = true := by
  cases hr : assets.required.all view with
  | true => rfl
  | false =>
    revert h
    cases p with
    | collection | featureExtraction => simp only [landing, hr]; split <;> simp
    | matching => exact absurd rfl hp
    | evidence => simp only [landing]; (repeat' split) <;> simp
    | completed => simp [landing]

/-- A job that is before the matching phase, or has its features and waits there. -/
def Waiting (assets : Assets) (view : String → Bool) (p : Phase) : Prop :=
  p < .evidence ∧ (p = .matching → assets.required.all view = true)

theorem Waiting.landing (h : Waiting assets view p)
    (he : t = Topic.evidences → view Topic.matchings = false)
    (hm : t = Topic.matchings → assets.required.all view = false) :
    Waiting assets (seeing view [t]) (landing assets (seeing view [t]) t p) := by
  have hmono : assets.required.all view = true → assets.required.all (seeing view [t]) = true :=
    all_mono fun hu => seeing_iff.2 (.inl hu)
  constructor
  · by_cases htm : t = Topic.matchings
    · subst htm
      have hr : assets.required.all (seeing view [Topic.matchings]) = false :=
        (required_seeing (by simp)).trans (hm rfl)
      have hstart : p ≠ .matching := fun hp => Bool.eq_false_iff.1 (hm rfl) (h.2 hp)
      have hg : ¬ (Topic.matchings = Topic.evidences ∧ p < .evidence ∧
          seeing view [Topic.matchings] Topic.matchings = true) := fun h => absurd h.1 (by decide)
      cases p with
      | collection | featureExtraction =>
        simp only [Step.landing, if_neg hg, hr, Bool.false_eq_true, if_false]
        decide
      | matching => exact absurd rfl hstart
      | evidence | completed => exact absurd h.1 (by decide)
    · by_cases hte : t = Topic.evidences
      · have hg : ¬ (t = Topic.evidences ∧ p < .evidence ∧ seeing view [t] Topic.matchings = true) :=
          no_shortcut fun ht => (seeing_of_ne (Ne.symm htm)).trans (he ht)
        simp only [Step.landing, if_neg hg, if_neg htm]
        cases p with
        | collection | featureExtraction => dsimp only; split <;> decide
        | matching => exact h.1
        | evidence | completed => exact absurd h.1 (by decide)
      · exact landing_lt_evidence htm hte h.1
  · intro hmatching
    by_cases hp : p = .matching
    · exact hmono (h.2 hp)
    · exact required_of_matching hmatching hp

theorem Waiting.landings (h : Waiting assets view p) (hlate : timely assets view ts = false) :
    Waiting assets (seeing view ts) (landings assets view p ts) := by
  induction ts generalizing view p with
  | nil =>
    rw [seeing_nil]
    exact h
  | cons t ts ih =>
    have hnot := fun hnow => Bool.eq_false_iff.1 hlate (timely_cons.2 hnow)
    rw [← seeing_cons]
    apply ih
    · apply h.landing
      · exact fun ht => Bool.eq_false_iff.2 fun hv => hnot (.inl ⟨ht, hv⟩)
      · exact fun ht => Bool.eq_false_iff.2 fun hv => hnot (.inr (.inl ⟨ht, hv⟩))
    · exact Bool.eq_false_iff.2 fun hl => hnot (.inr (.inr hl))

theorem matching_le_landing (hr : assets.required.all view = true) :
    .matching ≤ landing assets view t p := by
  simp only [landing, hr, if_true]
  cases p <;> (repeat' split) <;> decide

theorem matching_le_landings (hne : ts ≠ [])
    (hr : assets.required.all (seeing view ts) = true) : .matching ≤ landings assets view p ts := by
  induction ts generalizing view p with
  | nil => exact absurd rfl hne
  | cons t ts ih =>
    cases ts with
    | nil => exact matching_le_landing hr
    | cons u us =>
      rw [← seeing_cons] at hr
      exact ih (List.cons_ne_nil u us) hr

/-- Events that bring all features and evidence complete a job if they come in time. Otherwise it waits
for a match. -/
theorem landings_collection_eq (hr : ∀ t ∈ assets.required, t ∈ ts) (he : Topic.evidences ∈ ts) :
    landings assets view .collection ts =
      if timely assets view ts then .completed else .matching := by
  cases ht : timely assets view ts with
  | true => exact landings_timely ht (seeing_iff.2 (.inr he))
  | false =>
    have hall : assets.required.all (seeing view ts) = true :=
      List.all_eq_true.2 fun t h => seeing_iff.2 (.inr (hr t h))
    have hstart : Waiting assets view .collection := ⟨by decide, fun h => nomatch h⟩
    have hlow := (hstart.landings ht).1
    have hhigh : .matching ≤ landings assets view .collection ts :=
      matching_le_landings (List.ne_nil_of_mem he) hall
    cases hp : landings assets view .collection ts with
    | collection | featureExtraction => exact absurd (hp ▸ hhigh) (by decide)
    | matching => rfl
    | evidence | completed => exact absurd (hp ▸ hlow) (by decide)

end PhaseKeeper.Step
