import PhaseKeeper.Proofs.Handling.Timeliness
/-!
Events that overtake each other. A match does nothing for features that come after it, nor evidence for a
match that comes after it; apart from that, an event that comes late is made up for.
-/
namespace PhaseKeeper

/-- An event of type `t` is of little use before one of type `u`. -/
def Assets.Needs (assets : Assets) (t u : String) : Prop :=
  (t = Topic.matchings ∧ u ∈ assets.required) ∨ (t = Topic.evidences ∧ u = Topic.matchings)

instance {assets : Assets} {t u : String} : Decidable (assets.Needs t u) :=
  inferInstanceAs (Decidable (_ ∨ _))

namespace Step
variable {assets : Assets} {view view' : String → Bool} {t u : String} {ts us : List String}
  {p q r : Phase}

theorem rest_landing : (plan assets view t false (landing assets view t p)).isAdvance = false := by
  have hE : (plan assets view t false
      (if t = Topic.evidences ∨ view Topic.evidences then .completed else .evidence)).isAdvance =
        false := by
    split
    · exact rest_completed
    · rename_i h
      exact rest_evidence (fun ht => h (.inl ht)) (Bool.eq_false_iff.2 fun he => h (.inr he))
  have hM (hg : t = Topic.evidences → view Topic.matchings = false) : (plan assets view t false
      (if t = Topic.matchings then
        if t = Topic.evidences ∨ view Topic.evidences then .completed else .evidence
      else .matching)).isAdvance = false := by
    split
    · exact hE
    · rename_i h
      exact rest_matching h hg
  by_cases hg : t = Topic.evidences ∧ p < .evidence ∧ view Topic.matchings = true
  · simp only [landing, if_pos hg]
    exact rest_completed
  · have hguard (hp : p < .evidence) (ht : t = Topic.evidences) : view Topic.matchings = false :=
      Bool.eq_false_iff.2 fun hm => hg ⟨ht, hp, hm⟩
    simp only [landing, if_neg hg]
    cases p with
    | collection | featureExtraction =>
      cases hr : assets.required.all view with
      | true => exact hM (hguard (by decide))
      | false => exact rest_features hr (hguard (by decide))
    | matching => exact hM (hguard (by decide))
    | evidence => exact hE
    | completed => exact rest_completed

theorem landing_le_of_rest (h : (plan assets view t false r).isAdvance = false) (hp : p ≤ r) :
    landing assets view t p ≤ r := by
  obtain ⟨rfl, hr, hg⟩ | ⟨rfl, ht, hg⟩ | ⟨rfl, ht, he⟩ | rfl := rest_cases h
  · cases p with
    | collection | featureExtraction => simp [landing, no_shortcut hg, hr]; decide
    | matching | evidence | completed => exact absurd hp (by decide)
  · cases p with
    | collection | featureExtraction | matching =>
      simp only [landing, if_neg (no_shortcut hg), if_neg ht]
      (repeat' split) <;> decide
    | evidence | completed => exact absurd hp (by decide)
  · cases p with
    | collection | featureExtraction | matching | evidence =>
      simp only [landing, ht, he, false_and, false_or, Bool.false_eq_true, if_false]
      (repeat' split) <;> decide
    | completed => exact absurd hp (by decide)
  · cases landing assets view t p <;> decide

theorem landing_mono (hv : ∀ {u}, view u = true → view' u = true) (hp : p ≤ q) :
    landing assets view t p ≤ landing assets view' t q := by
  apply landing_le_of_rest
  · apply Bool.eq_false_iff.2
    intro ha
    exact Bool.eq_false_iff.1 rest_landing (isAdvance_mono hv ha)
  · exact Phase.le_trans hp le_landing

theorem landings_mono (hp : p ≤ q) : landings assets view p ts ≤ landings assets view q ts := by
  induction ts generalizing view p q with
  | nil => exact hp
  | cons t ts ih => exact ih (landing_mono (fun h => h) hp)

/-- A step on the way does not change where the way leads. -/
theorem landing_of_advance {first : Bool} {effect : Option Effect}
    (h : plan assets view t first p = .advance q effect) :
    landing assets view t q = landing assets view t p := by
  have hF : Phase.featureExtraction < .evidence := by decide
  have hM : Phase.matching < .evidence := by decide
  have hne : Topic.matchings ≠ Topic.evidences := by decide
  obtain ⟨rfl, hp, hm, rfl, -⟩ | ⟨rfl, rfl, -⟩ | ⟨rfl, hr, rfl, -⟩ | ⟨rfl, rfl, rfl, -⟩ |
      ⟨rfl, he, rfl, -⟩ := advance_cases h
  · rw [landing_evidences fun _ => hm, landing_evidences fun _ => hm]
  · exact landing_collection.symm
  · simp only [landing, hF, hM, hr, if_true]
  · simp [landing, hne]
  · simp [landing, he]

theorem landing_ne_collection : landing assets view t p ≠ .collection := by
  intro h
  have hrest : (plan assets view t false (landing assets view t p)).isAdvance = false :=
    rest_landing
  rw [h] at hrest
  obtain ⟨he, -⟩ | ⟨he, -⟩ | ⟨he, -⟩ | he := rest_cases hrest <;> cases he

theorem seeing_comm : seeing (seeing view [t]) [u] = seeing (seeing view [u]) [t] := by
  funext x
  simp [seeing, Bool.or_assoc, Bool.or_comm (decide (x = t))]

theorem required_of_notMem (h : u ∉ assets.required) :
    assets.required.all (seeing view [u]) = assets.required.all view := by
  have hsame : ∀ t ∈ assets.required, seeing view [u] t = view t :=
    fun t ht => seeing_of_ne fun he => h (he ▸ ht)
  rw [Bool.eq_iff_iff, List.all_eq_true, List.all_eq_true]
  exact forall₂_congr fun t ht => by rw [hsame t ht]

theorem landing_of_completed : landing assets view t .completed = .completed :=
  Phase.eq_completed_of_le le_landing

theorem landing_swap_match (hu : u ∉ assets.required)
    (ha : landing assets (seeing view [u]) u p = .matching) :
    landing assets (seeing (seeing view [u]) [Topic.matchings]) Topic.matchings .matching ≤
      landing assets (seeing (seeing view [u]) [Topic.matchings]) u
        (landing assets (seeing view [Topic.matchings]) Topic.matchings p) := by
  have hp : p ≤ .matching := ha ▸ le_landing
  have hlt : p < .evidence := Nat.lt_of_le_of_lt hp (by decide)
  have hr (hlow : p < .matching) : assets.required.all (seeing view [Topic.matchings]) = true := by
    have hview := required_of_matching ha fun he => Phase.lt_irrefl _ (he ▸ hlow)
    rw [required_of_notMem hu] at hview
    exact all_mono (fun h => seeing_iff.2 (.inl h)) hview
  have hsecond := landing_matchings hr hlt
  have hview : seeing view [Topic.matchings] Topic.evidences = view Topic.evidences :=
    seeing_of_ne (by decide)
  have hlast : landing assets (seeing (seeing view [u]) [Topic.matchings]) Topic.matchings
      .matching = if seeing view [u] Topic.evidences then .completed else .evidence := by
    rw [landing_matchings (fun h => absurd h (Phase.lt_irrefl _)) (by decide),
      seeing_of_ne (by decide)]
  rw [hlast, hsecond, hview]
  cases hv : view Topic.evidences with
  | true =>
    rw [if_pos rfl, landing_of_completed]
    split <;> decide
  | false =>
    by_cases hue : u = Topic.evidences
    · subst hue
      rw [landing_evidences fun _ => seeing_iff.2 (.inr List.mem_cons_self)]
      split <;> decide
    · rw [seeing_of_ne (Ne.symm hue), hv]
      exact le_landing

theorem landing_swap_required (ha : landing assets (seeing view [u]) u p = .featureExtraction)
    (hr : assets.required.all (seeing (seeing view [u]) [t]) = true) :
    landing assets (seeing (seeing view [u]) [t]) t .featureExtraction ≤
      landing assets (seeing (seeing view [u]) [t]) u (landing assets (seeing view [t]) t p) := by
  have hwait : assets.required.all (seeing view [u]) = false := by
    have hrest : (plan assets (seeing view [u]) u false
        (landing assets (seeing view [u]) u p)).isAdvance = false := rest_landing
    rw [ha] at hrest
    obtain ⟨-, h, -⟩ | ⟨h, -⟩ | ⟨h, -⟩ | h := rest_cases hrest
    · exact h
    all_goals cases h
  have ht : t ∈ assets.required := by
    apply Classical.byContradiction
    intro ht
    rw [required_of_notMem ht, hwait] at hr
    cases hr
  have htm : t ≠ Topic.matchings := fun h => assets.matchings_notMem_required (h ▸ ht)
  have hte : t ≠ Topic.evidences := fun h => assets.evidences_notMem_required (h ▸ ht)
  have hlast : landing assets (seeing (seeing view [u]) [t]) t .featureExtraction = .matching := by
    simp [landing, hte, htm, hr]
  rw [hlast]
  exact matching_le_landing hr

theorem evidences_of_landing (ha : landing assets (seeing view [u]) u p = .evidence)
    (he : t = Topic.evidences ∨ seeing (seeing view [u]) [t] Topic.evidences = true) :
    t = Topic.evidences ∧ u ≠ Topic.evidences := by
  have hrest : (plan assets (seeing view [u]) u false
      (landing assets (seeing view [u]) u p)).isAdvance = false := rest_landing
  rw [ha] at hrest
  obtain ⟨h, -⟩ | ⟨h, -⟩ | ⟨-, hue, hv⟩ | h := rest_cases hrest
  · cases h
  · cases h
  · refine ⟨?_, hue⟩
    cases he with
    | inl h => exact h
    | inr h =>
      rw [seeing_iff, hv] at h
      simpa [eq_comm] using h
  · cases h

/-- One event after the other brings a job at least as far the other way round, unless the later one needs
the earlier. -/
theorem landing_swap (hn : ¬ assets.Needs t u) :
    landing assets (seeing (seeing view [u]) [t]) t (landing assets (seeing view [u]) u p) ≤
      landing assets (seeing (seeing view [u]) [t]) u (landing assets (seeing view [t]) t p) := by
  have hle : landing assets (seeing view [u]) u p ≤
      landing assets (seeing (seeing view [u]) [t]) u (landing assets (seeing view [t]) t p) :=
    landing_mono (fun h => seeing_iff.2 (.inl h)) le_landing
  have hcomplete (h : landing assets (seeing view [t]) t p = .completed) (q : Phase) :
      q ≤ landing assets (seeing (seeing view [u]) [t]) u (landing assets (seeing view [t]) t p) := by
    rw [h, landing_of_completed]
    cases q <;> decide
  cases hmove : (plan assets (seeing (seeing view [u]) [t]) t false
      (landing assets (seeing view [u]) u p)).isAdvance with
  | false => rwa [landing_of_rest hmove]
  | true =>
    -- The later event moves the job on; what it does then, it does in the other order as well.
    obtain ⟨q, effect, hq⟩ := exists_of_isAdvance hmove
    obtain ⟨rfl, -, hm, -⟩ | ⟨ha, -⟩ | ⟨ha, hr, -⟩ | ⟨ha, rfl, -⟩ | ⟨ha, he, -⟩ := advance_cases hq
    · have hum : Topic.matchings ≠ u := fun h => hn (.inr ⟨rfl, h.symm⟩)
      apply hcomplete
      apply landing_evidences
      intro _
      rw [seeing_of_ne (by decide), seeing_of_ne hum] at hm
      exact seeing_iff.2 (.inl hm)
    · exact absurd ha landing_ne_collection
    · rw [ha]
      exact landing_swap_required ha hr
    · rw [ha]
      exact landing_swap_match (fun h => hn (.inl ⟨rfl, h⟩)) ha
    · obtain ⟨rfl, hue⟩ := evidences_of_landing ha he
      have hum : u ≠ Topic.matchings := fun h => hn (.inr ⟨rfl, h⟩)
      apply hcomplete
      apply landing_evidences
      intro hp
      have hlow : landing assets (seeing view [u]) u p < .evidence := landing_lt_evidence hum hue hp
      rw [ha] at hlow
      exact absurd hlow (Phase.lt_irrefl _)

theorem landings_swap (hn : ¬ assets.Needs t u) :
    landings assets view p (u :: t :: ts) ≤ landings assets view p (t :: u :: ts) := by
  simp only [landings]
  rw [seeing_comm (t := t)]
  exact landings_mono (landing_swap hn)

end Step

section Overtaken
variable {α β : Type} {ok : α → α → Prop} {l m a b : List α} {x y : α}

/-- Some elements of the first list come earlier in the second; `ok y x` if `y` overtook `x`. -/
inductive Overtaken (ok : α → α → Prop) : List α → List α → Prop
  | nil : Overtaken ok [] []
  | cons {x : α} {l a b : List α} (h : Overtaken ok l (a ++ b)) (ha : ∀ y ∈ a, ok y x) :
      Overtaken ok (x :: l) (a ++ x :: b)

theorem Overtaken.refl (l : List α) : Overtaken ok l l := by
  induction l with
  | nil => exact .nil
  | cons x l ih => exact .cons (a := []) ih fun _ h => nomatch h

theorem Overtaken.front (h : Overtaken ok (a ++ b) m) (hy : ∀ x ∈ a, ok y x) :
    Overtaken ok (a ++ y :: b) (y :: m) := by
  induction a generalizing m with
  | nil => exact .cons (a := []) h fun _ h => nomatch h
  | cons x a ih =>
    cases h with
    | @cons _ _ c d hrest hc =>
      have hmore := ih hrest fun z hz => hy z (List.mem_cons_of_mem x hz)
      apply Overtaken.cons (a := y :: c) hmore
      intro z hz
      cases List.mem_cons.1 hz with
      | inl he => exact he ▸ hy x List.mem_cons_self
      | inr hz => exact hc z hz

theorem Overtaken.map {ok' : β → β → Prop} (h : Overtaken ok l m) (f : α → β)
    (hf : ∀ y x, ok y x → ok' (f y) (f x)) : Overtaken ok' (l.map f) (m.map f) := by
  induction h with
  | nil => exact .nil
  | cons h ha ih =>
    rw [List.map_append] at ih ⊢
    apply Overtaken.cons ih
    intro z hz
    obtain ⟨y, hy, rfl⟩ := List.mem_map.1 hz
    exact hf _ _ (ha y hy)

end Overtaken

namespace Step
variable {assets : Assets} {view : String → Bool} {t : String} {ts us : List String} {p : Phase}

theorem landings_overtaken_one (h : ∀ u ∈ us, ¬ assets.Needs u t) :
    landings assets view p (t :: (us ++ ts)) ≤ landings assets view p (us ++ t :: ts) := by
  induction us generalizing view p with
  | nil => exact Phase.le_refl _
  | cons u us ih =>
    apply Phase.le_trans (landings_swap (h u List.mem_cons_self))
    exact ih fun v hv => h v (List.mem_cons_of_mem u hv)

/-- A job gets at least as far if no event overtakes one that it needs. -/
theorem landings_overtaken (h : Overtaken (fun u t => ¬ assets.Needs u t) ts us) :
    landings assets view p ts ≤ landings assets view p us := by
  induction h generalizing view p with
  | nil => exact Phase.le_refl _
  | cons _ ha ih =>
    apply Phase.le_trans _ (landings_overtaken_one ha)
    exact ih

end Step
end PhaseKeeper
