import PhaseKeeper.Proofs.Handling.Timeliness
import PhaseKeeper.Proofs.Interleaving.Arrival
/-!
Calls that are handled one after the other. Each of them is a crew of one, so what is true of all
interleavings is true here too; and a job goes from landing to landing.
-/
namespace PhaseKeeper

namespace Deployment

theorem serve_unrefused (member : Nat) (r : Request) (d : Deployment) :
    d.serve member none r = d.answer member r := by cases r <;> rfl

/-- Each call is handled to its end before the next one comes. -/
def inTurn (d : Deployment) (calls : List Call) : Deployment :=
  calls.foldl (fun d call => (d.perform call.member call.handling).2) d

end Deployment

namespace Crew

theorem run_alone (call : Call) (p : Handling Outcome) (d : Deployment) (log : List Deed) :
    ∃ k : Nat, ((Crew.mk d [⟨call, p⟩] log).run (List.replicate k (.act 0 none))).deployment =
        (d.perform call.member p).2 ∧
      ((Crew.mk d [⟨call, p⟩] log).run (List.replicate k (.act 0 none))).idle = true := by
  induction p generalizing d log with
  | done o => exact ⟨0, rfl, rfl⟩
  | ask r next ih =>
    obtain ⟨k, hd, hidle⟩ := ih (d.serve call.member none r).1 (d.serve call.member none r).2
      (log ++ [⟨0, r, (d.serve call.member none r).1, d, (d.serve call.member none r).2⟩])
    refine ⟨k + 1, ?_, hidle⟩
    have hperform : (d.perform call.member (.ask r next)).2 =
        ((d.serve call.member none r).2.perform call.member
          (next (d.serve call.member none r).1)).2 := by
      rw [Deployment.serve_unrefused]
      rfl
    rw [hperform, ← hd]
    rfl

theorem worked_alone (d : Deployment) (call : Call) :
    ∃ order, (worked d [call] order).deployment = (d.perform call.member call.handling).2 ∧
      (worked d [call] order).idle = true := by
  obtain ⟨k, hd, hidle⟩ := run_alone call call.handling d []
  refine ⟨List.replicate k 0, ?_⟩
  rw [worked, List.map_replicate]
  exact ⟨hd, hidle⟩

end Crew

theorem Phase.Justified.le_landing {assets : Assets} {origin p : Phase} {view : String → Bool}
    {t : String} (h : Phase.Justified assets origin p [t] view) :
    p ≤ Step.landing assets view t origin := by
  by_cases ho : origin = p
  · rw [← ho]
    exact Step.le_landing
  have hlt := lt_of_le_of_ne h.le ho
  cases p with
  | collection => exact absurd hlt (by cases origin <;> decide)
  | featureExtraction =>
    obtain rfl : origin = .collection := by
      revert hlt
      cases origin <;> decide
    simp only [Step.landing]
    (repeat' split) <;> decide
  | matching => exact Step.matching_le_landing (h.required hlt (.inl rfl))
  | evidence =>
    obtain rfl := List.mem_singleton.1 (h.matched hlt rfl)
    rw [Step.landing_matchings (fun hl => h.required hl (.inr rfl)) hlt]
    split <;> decide
  | completed =>
    obtain ⟨ht, hm⟩ | ⟨rfl, he⟩ | ⟨ht, he, hr⟩ := h.completed hlt rfl
    · obtain rfl := List.mem_singleton.1 ht
      rw [Step.landing_evidences fun _ => hm]
      exact le_refl _
    · simp [Step.landing, he, le_refl]
    · obtain rfl := List.mem_singleton.1 ht
      by_cases hE : origin = .evidence
      · simp [Step.landing, hE, he, le_refl]
      · have hr' (hl : origin < .matching) : assets.required.all view = true :=
          hr.resolve_left fun hM => lt_irrefl _ (hM ▸ hl)
        rw [Step.landing_matchings hr' (lt_evidence hlt hE), he]
        exact le_refl _

namespace Arrival
variable {assets : Assets} {origin p : Phase} {before after : String → Bool} {types : List String}
  {t : String}

theorem view_eq (h : Arrival assets origin p before after types) :
    after = Step.seeing before types := by
  funext t
  exact Bool.eq_iff_iff.2 ((h.seen t).trans Step.seeing_iff.symm)

theorem of_nil (h : Arrival assets origin p before after []) : p = origin := by
  refine Classical.byContradiction fun hp => ?_
  exact h.justified.moved (Phase.lt_of_le_of_ne h.justified.le fun he => hp he.symm) rfl

theorem evidence_of_singleton (h : Arrival assets origin .evidence before after [t])
    (ht : t ≠ Topic.evidences) (he : after Topic.evidences = false) :
    Step.landing assets after t origin = .evidence := by
  by_cases ho : origin = .evidence
  · simp [Step.landing, ho, ht, he]
  · have hlt := Phase.lt_of_le_of_ne h.justified.le ho
    obtain rfl := List.mem_singleton.1 (h.justified.matched hlt rfl)
    rw [Step.landing_matchings (fun hl => h.justified.required hl (.inr rfl)) hlt, he]
    rfl

theorem completed_of_singleton (h : Arrival assets origin .completed before after [t]) :
    Step.landing assets after t origin = .completed :=
  Phase.eq_completed_of_le h.justified.le_landing

theorem of_singleton (h : Arrival assets origin p before after [t]) :
    Step.landing assets after t origin = p := by
  obtain ⟨t', ht', hrest⟩ := h.rested (by simp)
  obtain rfl := List.mem_singleton.1 ht'
  have hle := h.justified.le
  obtain ⟨rfl, hr, hg⟩ | ⟨rfl, ht, hg⟩ | ⟨rfl, ht, he⟩ | rfl := Step.rest_cases hrest
  · cases origin with
    | collection | featureExtraction => simp [Step.landing, Step.no_shortcut hg, hr]
    | matching | evidence | completed => exact absurd hle (by decide)
  · cases origin with
    | collection | featureExtraction =>
      have hr := h.justified.required (by decide) (.inl rfl)
      simp [Step.landing, Step.no_shortcut hg, hr, ht]
    | matching => simp [Step.landing, Step.no_shortcut hg, ht]
    | evidence | completed => exact absurd hle (by decide)
  · exact h.evidence_of_singleton ht he
  · exact h.completed_of_singleton

theorem of_length_le (h : Arrival assets origin p before after types) (hone : types.length ≤ 1) :
    Step.landings assets before origin types = p := by
  cases types with
  | nil => exact h.of_nil.symm
  | cons t ts =>
    obtain rfl : ts = [] := List.length_eq_zero_iff.1 (by simpa using hone)
    rw [← h.of_singleton, h.view_eq]
    rfl

end Arrival

theorem typesFor_append (calls calls' : List Call) (j : String) :
    typesFor (calls ++ calls') j = typesFor calls j ++ typesFor calls' j := by
  simp [typesFor, errandsOf_append]

theorem length_typesFor_le (calls : List Call) (j : String) :
    (typesFor calls j).length ≤ calls.length := by
  rw [typesFor, List.length_map]
  exact Nat.le_trans (List.length_filter_le _ _) (List.length_filterMap_le _ _)

namespace Deployment.Awaits
variable {d : Deployment} {call : Call} {calls : List Call} {j : String}

theorem head (ha : d.Awaits (call :: calls)) : d.Awaits [call] := by
  have hmem {e} (he : e ∈ errandsOf [call]) : e ∈ errandsOf (call :: calls) :=
    errandsOf_cons call calls ▸ List.mem_append_left _ he
  refine ⟨ha.calm, ?_, fun e he => ha.unrecorded e (hmem he), fun e he => ha.unseen e (hmem he)⟩
  have hd := ha.distinct
  rw [errandsOf_cons, List.map_append] at hd
  exact (List.nodup_append.1 hd).1

theorem tail (ha : d.Awaits (call :: calls)) (order : List Nat) :
    (Crew.worked d [call] order).deployment.Awaits calls := by
  have hbook := (Pact.recording_terms d).worked (Pact.recording_valid ha.calm) [call] order
  have hd := ha.distinct
  rw [errandsOf_cons, List.map_append] at hd
  have hmem {e} (he : e ∈ errandsOf calls) : e ∈ errandsOf (call :: calls) :=
    errandsOf_cons call calls ▸ List.mem_append_right _ he
  have hnew {e} (he : e ∈ errandsOf calls) :
      (Crew.worked d [call] order).deployment.store.recorded e.event.eventId = false := by
    refine Bool.eq_false_iff.2 fun hr => ?_
    obtain hold | ⟨e', he', hid⟩ := Crew.recorded_worked ha.head hr
    · rw [ha.unrecorded e (hmem he)] at hold
      cases hold
    · exact (List.nodup_append.1 hd).2.2 _ (List.mem_map_of_mem he') _ (List.mem_map_of_mem he) hid
  refine ⟨hbook.holds.1, (List.nodup_append.1 hd).2.1, fun e he => hnew he, fun e he hc => ?_⟩
  obtain hc | hr := hbook.holds.2.2 _ hc
  · exact ha.unseen e (hmem he) hc
  · rw [hnew he] at hr
    cases hr

/-- What a crew of one brings about, calls that are handled in turn bring about. -/
theorem inTurn_induction {R : Deployment → Deployment → Prop} (hrefl : ∀ d, R d d)
    (htrans : ∀ {d d' d''}, R d d' → R d' d'' → R d d'')
    (hone : ∀ {d : Deployment} {call order}, d.Awaits [call] →
      (Crew.worked d [call] order).idle = true → R d (Crew.worked d [call] order).deployment)
    (ha : d.Awaits calls) : R d (d.inTurn calls) := by
  induction calls generalizing d with
  | nil => exact hrefl d
  | cons call calls ih =>
    obtain ⟨order, hd, hidle⟩ := Crew.worked_alone d call
    have hlast := ih (ha.tail order)
    rw [hd] at hlast
    exact htrans (hd ▸ hone ha.head hidle) hlast

/-- Calls that are handled in turn bring a job from landing to landing. -/
theorem job_inTurn (ha : d.Awaits calls) {job : Job} (hj : d.store.job? j = some job) :
    ∃ job', (d.inTurn calls).store.job? j = some job' ∧
      job'.phase = Step.landings job.assets (d.store.hasEvent j) job.phase (typesFor calls j) := by
  induction calls generalizing d job with
  | nil => exact ⟨job, hj, rfl⟩
  | cons call calls ih =>
    obtain ⟨order, hd, hidle⟩ := Crew.worked_alone d call
    obtain ⟨job₁, hj₁, hassets, harrival⟩ := Crew.arrival_worked ha.head hidle hj
    obtain ⟨job', hj', hphase⟩ := ih (ha.tail order) hj₁
    rw [hd] at hj'
    refine ⟨job', hj', ?_⟩
    have hsplit : typesFor (call :: calls) j = typesFor [call] j ++ typesFor calls j :=
      typesFor_append [call] calls j
    have hfirst := harrival.of_length_le (length_typesFor_le [call] j)
    rw [hphase, hassets, harrival.view_eq, ← hfirst, hsplit, Step.landings_append]

theorem job_inTurn_none (ha : d.Awaits calls) (hj : d.store.job? j = none) :
    (d.inTurn calls).store.job? j = none := by
  have hnone := ha.inTurn_induction
    (R := fun d d' => d.store.job? j = none → d'.store.job? j = none) (fun _ h => h)
    (fun h k hj => k (h hj)) fun {d call order} ha _ hj => ?_
  · exact hnone hj
  · exact Crew.job_worked_none ha.calm.pending hj

end Deployment.Awaits
end PhaseKeeper
