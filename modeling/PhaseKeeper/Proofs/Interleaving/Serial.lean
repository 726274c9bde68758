import PhaseKeeper.Proofs.Interleaving.Orders
import PhaseKeeper.Proofs.Interleaving.Tally
/-!
When handling new events at once comes to the same as handling them in turn, in some order. A handler
whose swap is lost gives up, although whoever won may have done less than it meant to do; so a job can
be left behind the phase that every order would bring it to. That happens in two ways only.
-/
namespace PhaseKeeper

section Rounds
variable {α : Type} (f : α → Nat) (l : List α)

/-- First what is due in round 0, then in round 1, then in round 2. -/
def inRounds : List α := l.filter (f · = 0) ++ l.filter (f · = 1) ++ l.filter (f · = 2)

theorem inRounds_perm (hf : ∀ a, f a ≤ 2) : (inRounds f l).Perm l := by
  have hfirst := List.filter_append_perm (f · = 0) l
  have hlater := List.filter_append_perm (f · = 1) (l.filter fun a => !decide (f a = 0))
  have hone : (l.filter fun a => !decide (f a = 0)).filter (f · = 1) = l.filter (f · = 1) := by
    rw [List.filter_filter]
    refine List.filter_congr fun a _ => ?_
    by_cases ha : f a = 1 <;> simp [ha]
  have htwo : (l.filter fun a => !decide (f a = 0)).filter (fun a => !decide (f a = 1)) =
      l.filter (f · = 2) := by
    rw [List.filter_filter]
    refine List.filter_congr fun a _ => ?_
    have ha := hf a
    rw [← decide_not, ← decide_not, ← Bool.decide_and, decide_eq_decide]
    omega
  rw [hone, htwo] at hlater
  rw [inRounds, List.append_assoc]
  exact (hlater.append_left _).trans hfirst

end Rounds

/-- The round of an event. For a job that gets far evidence comes last, for others it comes first. -/
def roundOf (far : Bool) (t : String) : Nat :=
  if t = Topic.matchings then 1 else if decide (t = Topic.evidences) = far then 2 else 0

theorem roundOf_cases (far : Bool) (t : String) :
    (t = Topic.matchings ∧ roundOf far t = 1) ∨
      (t = Topic.evidences ∧ roundOf far t = if far then 2 else 0) ∨
      (t ≠ Topic.matchings ∧ t ≠ Topic.evidences ∧ roundOf far t = if far then 0 else 2) := by
  by_cases hm : t = Topic.matchings
  · exact .inl ⟨hm, if_pos hm⟩
  · by_cases he : t = Topic.evidences
    · refine .inr (.inl ⟨he, ?_⟩)
      rw [roundOf, if_neg hm, decide_eq_true he]
      cases far <;> rfl
    · refine .inr (.inr ⟨hm, he, ?_⟩)
      rw [roundOf, if_neg hm, decide_eq_false he]
      cases far <;> rfl

theorem roundOf_le (far : Bool) (t : String) : roundOf far t ≤ 2 := by
  obtain ⟨-, hr⟩ | ⟨-, hr⟩ | ⟨-, -, hr⟩ := roundOf_cases far t <;> rw [hr]
  · decide
  · split <;> decide
  · split <;> decide

theorem sorted_rounds (far : Bool) (types : List String) :
    Sorted types (types.filter (roundOf far · = if far then 2 else 0))
      (types.filter (roundOf far · = 1)) (types.filter (roundOf far · = if far then 0 else 2)) := by
  refine ⟨fun t => ?_, fun t ht => ?_, fun t ht => ?_, fun t ht => ?_⟩
  · have hround : (roundOf far t = if far then 2 else 0) ∨ roundOf far t = 1 ∨
        (roundOf far t = if far then 0 else 2) := by
      obtain ⟨-, hr⟩ | ⟨-, hr⟩ | ⟨-, -, hr⟩ := roundOf_cases far t
      · exact .inr (.inl hr)
      · exact .inl hr
      · exact .inr (.inr hr)
    simp only [List.mem_filter, decide_eq_true_eq, ← and_or_left, hround, and_true]
  all_goals
    have hround := of_decide_eq_true (List.mem_filter.1 ht).2
    obtain ⟨hm, hr⟩ | ⟨he, hr⟩ | ⟨hm, he, hr⟩ := roundOf_cases far t <;> cases far <;> simp_all

theorem Arrival.landings_inRounds {assets : Assets} {origin p : Phase}
    {before after : String → Bool} {types : List String}
    (h : Arrival assets origin p before after types)
    (he : Topic.evidences ∈ types → before Topic.matchings = true → p = .completed)
    (hm : Topic.matchings ∈ types → assets.required.all before = true → .evidence ≤ p) :
    Step.landings assets before origin (inRounds (roundOf (decide (.evidence ≤ p))) types) = p := by
  by_cases hp : .evidence ≤ p
  · rw [decide_eq_true hp]
    exact h.landings_far (sorted_rounds true types) hp
  · have hlt : p < .evidence := Nat.lt_of_not_le hp
    rw [decide_eq_false hp]
    refine h.landings_near (sorted_rounds false types) hlt (fun ht => ?_) fun ht => ?_
    · refine Bool.eq_false_iff.2 fun hb => ?_
      rw [he ht hb] at hlt
      exact absurd hlt (by decide)
    · exact Bool.eq_false_iff.2 fun hb => hp (hm ht hb)

def Call.round (s : MemoryStore) (call : Call) : Nat :=
  match call.errand? with
  | some e => roundOf ((s.phase? e.event.jobId).any fun p => .evidence ≤ p) e.eventType
  | none => 0

theorem Call.round_le (s : MemoryStore) (call : Call) : call.round s ≤ 2 := by
  unfold round
  split
  · exact roundOf_le _ _
  · decide

theorem typesFor_filter {calls : List Call} {j : String} {keep : Call → Bool}
    {keepType : String → Bool} (h : ∀ call e, call.errand? = some e → e.event.jobId = j →
      keep call = keepType e.eventType) :
    typesFor (calls.filter keep) j = (typesFor calls j).filter keepType := by
  induction calls with
  | nil => rfl
  | cons call calls ih =>
    have hsplit : typesFor (call :: calls) j = typesFor [call] j ++ typesFor calls j :=
      typesFor_append [call] calls j
    have hone : typesFor ([call].filter keep) j = (typesFor [call] j).filter keepType := by
      cases he : call.errand? with
      | none => by_cases hk : keep call <;> simp [typesFor, errandsOf, hk, he]
      | some e =>
        by_cases hj : e.event.jobId = j
        · by_cases hk : keep call
          · have hk' := (h call e he hj).symm.trans hk
            simp [typesFor, errandsOf, hk, he, hj, hk']
          · have hk' : keepType e.eventType = false := by
              rw [← h call e he hj, Bool.eq_false_iff]
              exact hk
            simp [typesFor, errandsOf, hk, he, hj, hk']
        · by_cases hk : keep call <;> simp [typesFor, errandsOf, hk, he, hj]
    have hfilter : (call :: calls).filter keep = [call].filter keep ++ calls.filter keep :=
      List.filter_append [call] calls
    rw [hfilter, typesFor_append, hone, ih, hsplit, List.filter_append]

theorem typesFor_inRounds {s : MemoryStore} {j : String} {p : Phase} (hp : s.phase? j = some p)
    (calls : List Call) : typesFor (inRounds (Call.round s) calls) j =
      inRounds (roundOf (decide (.evidence ≤ p))) (typesFor calls j) := by
  have hround (n : Nat) : typesFor (calls.filter (Call.round s · = n)) j =
      (typesFor calls j).filter (roundOf (decide (.evidence ≤ p)) · = n) := by
    refine typesFor_filter fun call e he hj => ?_
    simp [Call.round, he, hj, hp]
  simp only [inRounds, typesFor_append, hround]

namespace Deployment.Awaits
variable {d : Deployment} {calls calls' : List Call} {j : String}

theorem perm (ha : d.Awaits calls) (h : calls'.Perm calls) : d.Awaits calls' := by
  have hperm : (errandsOf calls').Perm (errandsOf calls) := h.filterMap _
  exact ⟨ha.calm, (hperm.map _).nodup_iff.2 ha.distinct,
    fun e he => ha.unrecorded e (hperm.mem_iff.1 he), fun e he => ha.unseen e (hperm.mem_iff.1 he)⟩

theorem phase_inTurn (ha : d.Awaits calls) {job : Job} (hj : d.store.job? j = some job) :
    (d.inTurn calls).store.phase? j =
      some (Step.landings job.assets (d.store.hasEvent j) job.phase (typesFor calls j)) := by
  obtain ⟨job', hj', hp⟩ := ha.job_inTurn hj
  rw [MemoryStore.phase_of_job hj', hp]

end Deployment.Awaits

theorem mem_typesFor_of_perm {calls calls' : List Call} {j t : String} (h : calls'.Perm calls) :
    t ∈ typesFor calls' j ↔ t ∈ typesFor calls j := by
  have hperm : (errandsOf calls').Perm (errandsOf calls) := h.filterMap _
  simp only [mem_typesFor, hperm.mem_iff]

/-- The calls can be handled in turn so that each job has the same phase at the end, and the same number
of messages that tell that it is complete. -/
def Deployment.Serializes (d : Deployment) (calls : List Call) (d' : Deployment) : Prop :=
  ∃ calls', calls'.Perm calls ∧ ∀ j,
    (d.inTurn calls').store.phase? j = d'.store.phase? j ∧
      (d.inTurn calls').bus.completions j = d'.bus.completions j

/-- The job is not left behind. If it was matched before, evidence has completed it; and if all its
features were there before, a match has brought it to the evidence phase at least. -/
structure Deployment.Follows (d : Deployment) (calls : List Call) (d' : Deployment) (job : Job) :
    Prop where
  evidences : Topic.evidences ∈ typesFor calls job.id →
    d.store.hasEvent job.id Topic.matchings = true → d'.store.phase? job.id = some .completed
  matchings : Topic.matchings ∈ typesFor calls job.id →
    job.assets.required.all (d.store.hasEvent job.id) = true →
      ∃ p, d'.store.phase? job.id = some p ∧ .evidence ≤ p

theorem Deployment.Awaits.follows_inTurn {d : Deployment} {calls calls' : List Call}
    (ha : d.Awaits calls) (h : calls'.Perm calls) {j : String} {job : Job}
    (hj : d.store.job? j = some job) : d.Follows calls (d.inTurn calls') job := by
  obtain rfl := MemoryStore.job_id hj
  have hphase := (ha.perm h).phase_inTurn hj
  refine ⟨fun ht hm => ?_, fun ht hr => ⟨_, hphase, ?_⟩⟩
  · rw [hphase, Step.landings_evidences ((mem_typesFor_of_perm h).2 ht) fun _ => hm]
  · exact Step.landings_matchings ((mem_typesFor_of_perm h).2 ht) hr

theorem Deployment.Follows.congr {d d' d'' : Deployment} {calls : List Call} {job : Job}
    (h : d.Follows calls d' job) (hp : d'.store.phase? job.id = d''.store.phase? job.id) :
    d.Follows calls d'' job := ⟨fun ht hm => hp ▸ h.evidences ht hm, fun ht hr => hp ▸ h.matchings ht hr⟩

theorem Deployment.Awaits.phase_inRounds {d : Deployment} {calls : List Call} {order : List Nat}
    {s : MemoryStore} (hs : (Crew.worked d calls order).deployment.store = s) (ha : d.Awaits calls)
    (hidle : (Crew.worked d calls order).idle = true)
    (hfollows : ∀ j job, d.store.job? j = some job →
      d.Follows calls (Crew.worked d calls order).deployment job) (j : String) :
    (d.inTurn (inRounds (Call.round s) calls)).store.phase? j = s.phase? j := by
  have hrounds := ha.perm (inRounds_perm (Call.round s) calls (Call.round_le s))
  subst hs
  cases hj : d.store.job? j with
  | none =>
    rw [MemoryStore.phase?, hrounds.job_inTurn_none hj, MemoryStore.phase?,
      Crew.job_worked_none ha.calm.pending hj]
  | some job =>
    obtain ⟨job', hj', -, harrival⟩ := Crew.arrival_worked ha hidle hj
    have hp := MemoryStore.phase_of_job hj'
    obtain ⟨hev, hmatch⟩ := hfollows j job hj
    obtain rfl := MemoryStore.job_id hj
    rw [hrounds.phase_inTurn hj, typesFor_inRounds hp, hp, harrival.landings_inRounds]
    · intro ht hm
      exact Option.some.inj (hp.symm.trans (hev ht hm))
    · intro ht hr
      obtain ⟨p, hp', hle⟩ := hmatch ht hr
      obtain rfl := Option.some.inj (hp.symm.trans hp')
      exact hle

/-- Handled at once, new events come to the same as in some order if and only if no job is left behind
that every order would bring further. -/
theorem serializes_iff {d : Deployment} {calls : List Call} {order : List Nat}
    (ha : d.Awaits calls) (hidle : (Crew.worked d calls order).idle = true) :
    d.Serializes calls (Crew.worked d calls order).deployment ↔ ∀ j job,
      d.store.job? j = some job →
        d.Follows calls (Crew.worked d calls order).deployment job := by
  constructor
  · rintro ⟨calls', hperm, hsame⟩ j job hj
    exact (ha.follows_inTurn hperm hj).congr (hsame job.id).1
  · intro hfollows
    have hperm := inRounds_perm (Call.round (Crew.worked d calls order).deployment.store) calls
      (Call.round_le _)
    refine ⟨_, hperm, fun j => ?_⟩
    have hphase := ha.phase_inRounds rfl hidle hfollows j
    exact ⟨hphase, ((ha.perm hperm).told_inTurn j).completions_eq
      (Crew.told_worked ha.calm.pending hidle j) hphase⟩

/-- A job with images that was matched before any of its features came. -/
def Deployment.matchedEarly : Deployment :=
  { Deployment.ofCapacities [1] .epoch with
    store := { MemoryStore.empty.insertJob ⟨"job", "retail", .collection, ⟨true, false⟩, .epoch⟩ with
      ledger := [⟨"match", "job", Topic.matchings, .epoch⟩] } }

/-- Evidence for it, and the features of its images. -/
def Call.lateComers : List Call :=
  [.ofEvent 0 Topic.evidences ⟨"evidence", "job", none⟩,
    .ofEvent 0 Topic.imageEmbeddings ⟨"images", "job", none⟩]

/-- The handler of the evidence makes `n` requests, then that of the features all of its own. -/
def overtaken (n : Nat) : List Nat := List.replicate n 0 ++ List.replicate 20 1 ++ List.replicate 20 0

theorem awaits_lateComers : Deployment.matchedEarly.Awaits Call.lateComers where
  calm := ⟨rfl, rfl⟩
  distinct := by decide +kernel
  unrecorded := by
    have hall : (errandsOf Call.lateComers).all fun e =>
        Deployment.matchedEarly.store.recorded e.event.eventId = false := by decide +kernel
    exact fun e he => of_decide_eq_true (List.all_eq_true.1 hall e he)
  unseen := by
    rintro e - ⟨r, hr, hm⟩
    rw [show Deployment.matchedEarly.recent = [⟨1, []⟩] from rfl, List.mem_singleton] at hr
    rw [hr] at hm
    cases hm

/-- If the features overtake the evidence just before its swap, that swap is lost, and the job stays
behind. -/
theorem not_serializes_overtaken :
    Deployment.matchedEarly.Awaits Call.lateComers ∧
      (Crew.worked .matchedEarly Call.lateComers (overtaken 6)).idle = true ∧
      ¬ Deployment.matchedEarly.Serializes Call.lateComers
        (Crew.worked .matchedEarly Call.lateComers (overtaken 6)).deployment := by
  refine ⟨awaits_lateComers, by decide +kernel, ?_⟩
  rintro ⟨calls', hperm, hsame⟩
  have hj : Deployment.matchedEarly.store.job? "job" =
      some ⟨"job", "retail", .collection, ⟨true, false⟩, .epoch⟩ := by decide +kernel
  have hfollows := awaits_lateComers.follows_inTurn hperm hj
  have hcompleted := hfollows.evidences (by decide +kernel) (by decide +kernel)
  rw [(hsame "job").1] at hcompleted
  have hphase : (Crew.worked .matchedEarly Call.lateComers (overtaken 6)).deployment.store.phase?
      "job" = some .featureExtraction := by decide +kernel
  rw [hphase] at hcompleted
  cases hcompleted

/-- If they overtake it earlier, nothing is lost. -/
theorem serializes_overtaken_early :
    Deployment.matchedEarly.Awaits Call.lateComers ∧
      (Crew.worked .matchedEarly Call.lateComers (overtaken 4)).idle = true ∧
      Deployment.matchedEarly.Serializes Call.lateComers
        (Crew.worked .matchedEarly Call.lateComers (overtaken 4)).deployment := by
  have hidle : (Crew.worked .matchedEarly Call.lateComers (overtaken 4)).idle = true := by
    decide +kernel
  refine ⟨awaits_lateComers, hidle, (serializes_iff awaits_lateComers hidle).2 fun j job hj => ?_⟩
  have hid : job.id = "job" := by
    obtain ⟨r, hr, rfl⟩ := Option.map_eq_some_iff.1 hj
    obtain rfl := List.mem_singleton.1 (List.mem_of_find?_eq_some hr)
    rfl
  have hnone : Topic.matchings ∉ typesFor Call.lateComers "job" := by decide +kernel
  refine ⟨fun _ _ => ?_, fun ht => absurd (hid ▸ ht) hnone⟩
  rw [hid]
  decide +kernel

end PhaseKeeper
