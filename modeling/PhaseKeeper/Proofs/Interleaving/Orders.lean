import PhaseKeeper.Proofs.Interleaving.Succession
/-!
Two orders in which to handle events in turn. One holds a job back and one drives it on: evidence first
and features last, or features first and evidence last. Wherever events bring a job that are handled at
once, one of the two brings it there as well, unless the job is left behind.
-/
namespace PhaseKeeper

structure Sorted (types es ms os : List String) : Prop where
  mem : ∀ t, t ∈ types ↔ t ∈ es ∨ t ∈ ms ∨ t ∈ os
  evidences : ∀ t ∈ es, t = Topic.evidences
  matchings : ∀ t ∈ ms, t = Topic.matchings
  others : ∀ t ∈ os, t ≠ Topic.matchings ∧ t ≠ Topic.evidences

namespace Sorted
variable {types es ms os : List String}

theorem near (h : Sorted types es ms os) (t : String) : t ∈ es ++ ms ++ os ↔ t ∈ types := by
  simp [h.mem t]

theorem far (h : Sorted types es ms os) (t : String) : t ∈ os ++ ms ++ es ↔ t ∈ types := by
  simp [h.mem t]
  tauto

theorem evidences_mem (h : Sorted types es ms os) : Topic.evidences ∈ types ↔ es ≠ [] := by
  constructor
  · intro ht
    obtain he | hm | ho := (h.mem _).1 ht
    · exact List.ne_nil_of_mem he
    · exact absurd (h.matchings _ hm) (by decide)
    · exact absurd rfl (h.others _ ho).2
  · intro hne
    obtain ⟨t, ht⟩ := List.exists_mem_of_ne_nil _ hne
    exact (h.mem _).2 (.inl (h.evidences t ht ▸ ht))

theorem matchings_mem (h : Sorted types es ms os) : Topic.matchings ∈ types ↔ ms ≠ [] := by
  constructor
  · intro ht
    obtain he | hm | ho := (h.mem _).1 ht
    · exact absurd (h.evidences _ he) (by decide)
    · exact List.ne_nil_of_mem hm
    · exact absurd rfl (h.others _ ho).1
  · intro hne
    obtain ⟨t, ht⟩ := List.exists_mem_of_ne_nil _ hne
    exact (h.mem _).2 (.inr (.inl (h.matchings t ht ▸ ht)))

theorem waiting {assets : Assets} {before : String → Bool} (h : Sorted types es ms os)
    (he : Topic.evidences ∈ types → before Topic.matchings = false)
    (hr : assets.required.all before = false) :
    Step.landings assets before .featureExtraction (es ++ ms ++ os) =
      Step.landings assets (Step.seeing before (es ++ ms)) .featureExtraction os := by
  rw [Step.landings_append, Step.landings_waiting h.evidences h.matchings hr fun hes =>
    he (h.evidences_mem.2 hes)]

end Sorted

namespace Arrival
variable {assets : Assets} {origin p : Phase} {before after : String → Bool}
  {types es ms os ts : List String}

open Step

theorem seen_iff (h : Arrival assets origin p before after types) (hts : ∀ t, t ∈ ts ↔ t ∈ types)
    (t : String) : after t = true ↔ seeing before ts t = true := by
  rw [h.seen, seeing_iff, hts]

theorem landings_of_nil (h : Arrival assets origin p before after types)
    (hts : ∀ t, t ∈ ts ↔ t ∈ types) (hnil : types = []) : landings assets before origin ts = p := by
  subst hnil
  obtain rfl : ts = [] := List.eq_nil_iff_forall_not_mem.2 fun t ht => nomatch (hts t).1 ht
  exact h.of_nil.symm

theorem near_features (h : Arrival assets origin .featureExtraction before after types)
    (hs : Sorted types es ms os) (he : Topic.evidences ∈ types → before Topic.matchings = false)
    (hr : assets.required.all after = false) :
    landings assets before .featureExtraction (es ++ ms ++ os) = .featureExtraction := by
  have hbefore : assets.required.all before = false := Bool.eq_false_iff.2 fun hb =>
    Bool.eq_false_iff.1 hr (all_mono (fun ht => (h.seen _).2 (.inl ht)) hb)
  rw [hs.waiting he hbefore]
  refine landings_of_rest (w := after) (fun u hu => ?_) fun t ht => rest_features hr fun hte => ?_
  · rw [seeing_append] at hu
    exact (h.seen_iff hs.near u).2 hu
  · exact absurd hte (hs.others t ht).2

theorem near_matching_of_stayed (h : Arrival assets .matching .matching before after types)
    (hs : Sorted types es ms os)
    (he : Topic.evidences ∈ types → before Topic.matchings = false) :
    landings assets before .matching (es ++ ms ++ os) = .matching := by
  have hms : Topic.matchings ∉ types := fun ht => by
    have hnone := h.stayed rfl _ ht
    rw [plan, if_neg fun hg => absurd hg.1 (by decide)] at hnone
    cases hnone
  refine landings_of_rest (w := after) (fun u hu => (h.seen_iff hs.near u).2 hu) fun t ht => ?_
  have htypes := (hs.near t).1 ht
  refine rest_matching (fun htm => hms (htm ▸ htypes)) fun hte => Bool.eq_false_iff.2 fun hv => ?_
  obtain hb | hnew := (h.seen _).1 hv
  · rw [he (hte ▸ htypes)] at hb
    cases hb
  · exact hms hnew

theorem near_matching_of_moved (h : Arrival assets origin .matching before after types)
    (hs : Sorted types es ms os) (hne : types ≠ []) (ho : origin < .matching)
    (he : Topic.evidences ∈ types → before Topic.matchings = false)
    (hm : Topic.matchings ∈ types → assets.required.all before = false) :
    landings assets before .featureExtraction (es ++ ms ++ os) = .matching := by
  have hr : assets.required.all (seeing before (es ++ ms ++ os)) = true :=
    all_mono (fun ht => (h.seen_iff hs.near _).1 ht) (h.justified.required ho (.inl rfl))
  cases hb : assets.required.all before with
  | true =>
    obtain ⟨t, ht⟩ := List.exists_mem_of_ne_nil _ hne
    have hne' : es ++ ms ++ os ≠ [] := List.ne_nil_of_mem ((hs.near t).2 ht)
    refine landings_features hne' hr (fun ht => ?_) fun ht => he ((hs.near _).1 ht)
    rw [hm ((hs.near _).1 ht)] at hb
    cases hb
  | false =>
    have hearly : assets.required.all (seeing before (es ++ ms)) = false := by
      rw [required_seeing, hb]
      intro t ht
      exact (List.mem_append.1 ht).symm.imp (hs.matchings t) (hs.evidences t)
    rw [hs.waiting he hb]
    refine landings_features ?_ ?_ (fun ht => (hs.others _ ht).1 rfl)
      fun ht => absurd rfl (hs.others _ ht).2
    · rintro rfl
      rw [List.append_nil, hearly] at hr
      cases hr
    · rw [seeing_append]
      exact hr

/-- A job that stays in front of the evidence phase gets there with evidence first and features last. -/
theorem landings_near (h : Arrival assets origin p before after types)
    (hs : Sorted types es ms os) (hp : p < .evidence)
    (he : Topic.evidences ∈ types → before Topic.matchings = false)
    (hm : Topic.matchings ∈ types → assets.required.all before = false) :
    landings assets before origin (es ++ ms ++ os) = p := by
  by_cases hne : types = []
  · exact h.landings_of_nil hs.near hne
  have hstart (ho : origin < .matching) : landings assets before origin (es ++ ms ++ os) =
      landings assets before .featureExtraction (es ++ ms ++ os) := by
    obtain ⟨t, ht⟩ := List.exists_mem_of_ne_nil _ hne
    cases origin with
    | collection => exact landings_collection (List.ne_nil_of_mem ((hs.near t).2 ht))
    | featureExtraction => rfl
    | matching | evidence | completed => exact absurd ho (by decide)
  have hle := h.justified.le
  obtain ⟨t, -, hrest⟩ := h.rested hne
  obtain ⟨rfl, hr, -⟩ | ⟨rfl, -, -⟩ | ⟨rfl, -, -⟩ | rfl := rest_cases hrest
  · rw [hstart (Nat.lt_of_le_of_lt hle (by decide)), h.near_features hs he hr]
  · by_cases ho : origin = .matching
    · subst ho
      exact h.near_matching_of_stayed hs he
    · have hlt := Phase.lt_of_le_of_ne hle ho
      rw [hstart hlt, h.near_matching_of_moved hs hne hlt he hm]
  · exact absurd hp (by decide)
  · exact absurd hp (by decide)

theorem far_matched (h : Arrival assets origin p before after types) (hs : Sorted types es ms os)
    (ho : origin < .evidence) (hm : Topic.matchings ∈ types) (he : Topic.evidences ∉ types)
    (hr : origin < .matching → assets.required.all after = true) :
    landings assets before origin (os ++ ms ++ es) =
      if before Topic.evidences then .completed else .evidence := by
  have hes : es = [] := Classical.byContradiction fun hne => he (hs.evidences_mem.2 hne)
  have hview : seeing before os Topic.evidences = before Topic.evidences := by
    have hos : Topic.evidences ∉ os := fun h => (hs.others _ h).2 rfl
    simp [seeing, hos]
  have hlt : landings assets before origin os < .evidence :=
    landings_lt_evidence (fun h => (hs.others _ h).1 rfl) (fun h => (hs.others _ h).2 rfl) ho
  rw [hes, List.append_nil, landings_append,
    landings_all_matchings (hs.matchings_mem.1 hm) hs.matchings (fun hl => ?_) hlt, hview]
  have hsame : assets.required.all (seeing (seeing before os) ms) =
      assets.required.all (seeing before os) := required_seeing fun t ht => .inl (hs.matchings t ht)
  rw [← hsame, seeing_append]
  refine all_mono (fun {t} ht => ?_) (hr (Nat.lt_of_le_of_lt le_landings hl))
  have hseen := (h.seen_iff hs.far t).1 ht
  rwa [hes, List.append_nil] at hseen

theorem far_completed (h : Arrival assets origin p before after types) (hs : Sorted types es ms os)
    (he : Topic.evidences ∈ types) (hm : origin < .evidence → after Topic.matchings = true) :
    landings assets before origin (os ++ ms ++ es) = .completed := by
  obtain ⟨t, ht⟩ := List.exists_mem_of_ne_nil _ (hs.evidences_mem.1 he)
  rw [landings_append]
  refine landings_evidences (hs.evidences t ht ▸ ht) fun hlt => ?_
  have hseen := (h.seen_iff hs.far _).1 (hm (Nat.lt_of_le_of_lt le_landings hlt))
  rw [← seeing_append] at hseen
  refine (seeing_iff.1 hseen).resolve_right fun hin => ?_
  exact absurd (hs.evidences _ hin) (by decide)

/-- A job that gets to the evidence phase or further gets there with features first and evidence last. -/
theorem landings_far (h : Arrival assets origin p before after types)
    (hs : Sorted types es ms os) (hp : .evidence ≤ p) :
    landings assets before origin (os ++ ms ++ es) = p := by
  by_cases hne : types = []
  · exact h.landings_of_nil hs.far hne
  have hle := h.justified.le
  obtain ⟨t, -, hrest⟩ := h.rested hne
  -- The last event called for no step, so the job rests: in the evidence phase or at its end.
  obtain ⟨rfl, -⟩ | ⟨rfl, -⟩ | ⟨rfl, ht, hev⟩ | rfl := rest_cases hrest
  · exact absurd hp (by decide)
  · exact absurd hp (by decide)
  · have hbefore : before Topic.evidences = false := Bool.eq_false_iff.2 fun hb =>
      Bool.eq_false_iff.1 hev ((h.seen _).2 (.inl hb))
    have hnone : Topic.evidences ∉ types := fun ht =>
      Bool.eq_false_iff.1 hev ((h.seen _).2 (.inr ht))
    by_cases ho : origin = .evidence
    · rw [ho]
      refine landings_of_rest (w := after) (fun u hu => (h.seen_iff hs.far u).2 hu)
        fun t ht => rest_evidence (fun hte => ?_) hev
      exact hnone (hte ▸ (hs.far t).1 ht)
    · have hlt := Phase.lt_of_le_of_ne hle ho
      rw [h.far_matched hs hlt (h.justified.matched hlt rfl) hnone fun hl =>
        h.justified.required hl (.inr rfl), hbefore]
      rfl
  · by_cases ho : origin = .completed
    · rw [ho, landings_completed]
    have hlt := Phase.lt_of_le_of_ne hle ho
    by_cases he : Topic.evidences ∈ types
    · refine h.far_completed hs he fun hlo => ?_
      obtain ⟨-, hm⟩ | ⟨rfl, -⟩ | ⟨hm, -⟩ := h.justified.completed hlt rfl
      · exact hm
      · exact absurd hlo (by decide)
      · exact (h.seen _).2 (.inr hm)
    · have hbefore (hev : after Topic.evidences = true) : before Topic.evidences = true :=
        ((h.seen _).1 hev).resolve_right he
      obtain ⟨hin, -⟩ | ⟨rfl, hev⟩ | ⟨hm, hev, hr⟩ := h.justified.completed hlt rfl
      · exact absurd hin he
      · obtain ⟨t, ht⟩ := List.exists_mem_of_ne_nil _ hne
        exact landings_evidence (List.ne_nil_of_mem ((hs.far t).2 ht)) (hbefore hev)
      · by_cases hE : origin = .evidence
        · obtain ⟨t, ht⟩ := List.exists_mem_of_ne_nil _ hne
          rw [hE]
          exact landings_evidence (List.ne_nil_of_mem ((hs.far t).2 ht)) (hbefore hev)
        · have hlo := Phase.lt_evidence hlt hE
          rw [h.far_matched hs hlo hm he fun hl => hr.resolve_left fun hM => ?_, hbefore hev]
          · rfl
          · exact absurd (hM ▸ hl) (by decide)

end Arrival
end PhaseKeeper
