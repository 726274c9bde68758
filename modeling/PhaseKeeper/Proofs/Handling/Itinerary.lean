import PhaseKeeper.Proofs.Handling.Plan
/-!
Which way an event takes its job, and what is fired on the way. The steps of a handling lead there one
after the other, each from where the last one ended; a table over the phases says at once where that is.
-/
namespace PhaseKeeper

/-- The phases that are written one after the other, and all that is fired. -/
structure Itinerary where
  stops : List Phase
  effects : List Effect
deriving DecidableEq, Repr

namespace Itinerary

def stay : Itinerary := ⟨[], []⟩

def complete : Itinerary := ⟨[.completed], [.announceCompletion]⟩

def via (q : Phase) (effects : List Effect) (rest : Itinerary) : Itinerary :=
  ⟨q :: rest.stops, effects ++ rest.effects⟩

def finish (start : Phase) (way : Itinerary) : Phase := way.stops.getLast?.getD start

theorem finish_via (p q : Phase) (effects : List Effect) (rest : Itinerary) :
    (via q effects rest).finish p = rest.finish q := by
  simp [finish, via, List.getLast?_cons]

def fromEvidence (recorded : List String) : Itinerary :=
  if Topic.evidences ∈ recorded then complete else stay

def afterMatching (recorded : List String) (t : String) : Itinerary :=
  if t = Topic.matchings then via .evidence [] (fromEvidence recorded) else stay

def fromFeatures (assets : Assets) (recorded : List String) (t : String) : Itinerary :=
  if assets.required ⊆ recorded then via .matching [.requestMatching] (afterMatching recorded t)
  else stay

def timetable (assets : Assets) (recorded : List String) (t : String) (p : Phase) : Itinerary :=
  if p < .evidence ∧ t = Topic.evidences ∧ Topic.matchings ∈ recorded then complete
  else match p with
    | .collection => via .featureExtraction [] (fromFeatures assets recorded t)
    | .featureExtraction => fromFeatures assets recorded t
    | .matching =>
      if t = Topic.matchings then afterMatching recorded t else ⟨[], [.requestMatching]⟩
    | .evidence => fromEvidence recorded
    | .completed => stay

/-- The way that at most `n` steps lead. -/
def walk (assets : Assets) (recorded : List String) (t : String) :
    (first : Bool) → (n : Nat) → Phase → Itinerary
  | _, 0, _ => stay
  | first, n + 1, p =>
    match Step.plan assets (· ∈ recorded) t first p with
    | .stay => stay
    | .refire effect => ⟨[], [effect]⟩
    | .advance q effect => via q effect.toList (walk assets recorded t false n q)

variable {assets : Assets} {recorded : List String} {t : String} {first : Bool} {n : Nat}
  {p q : Phase} {effect : Option Effect}

theorem walk_stay (h : Step.plan assets (· ∈ recorded) t first p = .stay) :
    walk assets recorded t first (n + 1) p = stay := by
  rw [walk, h]

theorem walk_refire {effect : Effect}
    (h : Step.plan assets (· ∈ recorded) t first p = .refire effect) :
    walk assets recorded t first (n + 1) p = ⟨[], [effect]⟩ := by
  rw [walk, h]

theorem walk_advance (h : Step.plan assets (· ∈ recorded) t first p = .advance q effect) :
    walk assets recorded t first (n + 1) p =
      via q effect.toList (walk assets recorded t false n q) := by
  rw [walk, h]

theorem walk_completed : walk assets recorded t first n .completed = stay := by
  cases n with
  | zero => rfl
  | succ n => exact walk_stay (if_neg fun h => absurd h.2.1 (by decide))

theorem walk_complete (h : Step.plan assets (· ∈ recorded) t first p = .complete) :
    walk assets recorded t first (n + 1) p = complete := by
  rw [walk_advance h, walk_completed]
  rfl

theorem walk_evidence (ht : t ∈ recorded) :
    walk assets recorded t first (n + 1) .evidence = fromEvidence recorded := by
  have hown : (t = Topic.evidences ∨ Topic.evidences ∈ recorded) ↔ Topic.evidences ∈ recorded :=
    or_iff_right_of_imp fun h => h ▸ ht
  have hplan : Step.plan assets (· ∈ recorded) t first .evidence =
      if Topic.evidences ∈ recorded then .complete else .stay := by
    rw [Step.plan, if_neg fun h => absurd h.2.1 (by decide), Step.phasePlan]
    simp only [decide_eq_true_eq, hown]
  by_cases he : Topic.evidences ∈ recorded
  · rw [fromEvidence, if_pos he, walk_complete (hplan.trans (if_pos he))]
  · rw [fromEvidence, if_neg he, walk_stay (hplan.trans (if_neg he))]

/-- Unless evidence completes the job at once, each phase calls for its own step. -/
theorem plan_eq (assets : Assets) (first : Bool) (p : Phase)
    (hg : t = Topic.evidences → Topic.matchings ∉ recorded) :
    Step.plan assets (· ∈ recorded) t first p = Step.phasePlan assets (· ∈ recorded) t first p :=
  if_neg fun h => hg h.1 (of_decide_eq_true h.2.2)

theorem walk_matching (ht : t ∈ recorded) (hg : t = Topic.evidences → Topic.matchings ∉ recorded) :
    walk assets recorded t first (n + 2) .matching =
      if t ≠ Topic.matchings ∧ first then ⟨[], [.requestMatching]⟩ else afterMatching recorded t := by
  have hplan := plan_eq assets first .matching hg
  by_cases hm : t = Topic.matchings
  · rw [if_neg fun h => h.1 hm, walk_advance (hplan.trans (if_pos hm)), walk_evidence ht,
      afterMatching, if_pos hm]
    rfl
  · rw [Step.phasePlan, if_neg hm] at hplan
    cases first with
    | true => rw [if_pos ⟨hm, rfl⟩, walk_refire hplan]
    | false => rw [if_neg fun h => absurd h.2 Bool.false_ne_true, walk_stay hplan, afterMatching, if_neg hm]

theorem walk_features (ht : t ∈ recorded) (hg : t = Topic.evidences → Topic.matchings ∉ recorded) :
    walk assets recorded t first (n + 3) .featureExtraction = fromFeatures assets recorded t := by
  have hplan := plan_eq assets first .featureExtraction hg
  have hrequired : assets.required.all (· ∈ recorded) = true ↔ assets.required ⊆ recorded := by
    simp [List.subset_def]
  by_cases hr : assets.required ⊆ recorded
  · rw [walk_advance (hplan.trans (if_pos (hrequired.2 hr))), walk_matching ht hg,
      if_neg fun h => absurd h.2 Bool.false_ne_true, fromFeatures, if_pos hr]
    rfl
  · rw [walk_stay (hplan.trans (if_neg fun h => hr (hrequired.1 h))), fromFeatures, if_neg hr]

/-- The steps lead where the table says, and four of them are always enough. -/
theorem walk_eq_timetable (ht : t ∈ recorded) :
    walk assets recorded t true (n + 4) p = timetable assets recorded t p := by
  by_cases hg : p < .evidence ∧ t = Topic.evidences ∧ Topic.matchings ∈ recorded
  · have hplan : Step.plan assets (· ∈ recorded) t true p = .complete :=
      if_pos ⟨hg.2.1, hg.1, decide_eq_true hg.2.2⟩
    unfold timetable
    rw [walk_complete hplan, if_pos hg]
  · have hlate (hp : p < .evidence) (he : t = Topic.evidences) : Topic.matchings ∉ recorded :=
      fun hm => hg ⟨hp, he, hm⟩
    unfold timetable
    rw [if_neg hg]
    cases p with
    | collection =>
      rw [walk_advance (plan_eq _ _ _ (hlate (by decide))), walk_features ht (hlate (by decide))]
      rfl
    | featureExtraction => exact walk_features ht (hlate (by decide))
    | matching =>
      rw [walk_matching ht (hlate (by decide))]
      by_cases hm : t = Topic.matchings <;> simp [hm]
    | evidence => exact walk_evidence ht
    | completed => exact walk_completed

end Itinerary
end PhaseKeeper
