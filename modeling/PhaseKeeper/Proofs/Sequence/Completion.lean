import PhaseKeeper.Proofs.Handling.Timeliness
import PhaseKeeper.Proofs.Interleaving.Serial
/-!
Jobs whose events come in any order. Whether a job is complete once all of its events were handled hangs
on where the matches and the evidence stand among them.
-/
namespace PhaseKeeper

/-- Meanwhile the job was completed, and that was told once. -/
structure Deployment.Finishes (d d' : Deployment) (j : String) : Prop where
  phase : d'.store.phase? j = some .completed
  told : d'.bus.completions j = d.bus.completions j + 1

/-- The events of the calls are all that the job needs. -/
structure Call.Suffice (calls : List Call) (job : Job) : Prop where
  required : ∀ t ∈ job.assets.required, t ∈ typesFor calls job.id
  matchings : Topic.matchings ∈ typesFor calls job.id
  evidences : Topic.evidences ∈ typesFor calls job.id

/-- A job finishes if its events come in time. Otherwise a match came too early, and it waits for one
more. -/
theorem finishes_iff_timely {d : Deployment} {calls : List Call} {job : Job}
    (ha : d.Awaits calls) (hj : d.store.job? job.id = some job) (hp : job.phase = .collection)
    (ho : d.bus.Open) (hs : Call.Suffice calls job) :
    (d.Finishes (d.inTurn calls) job.id ↔
      Step.timely job.assets (d.store.hasEvent job.id) (typesFor calls job.id) = true) ∧
    (Step.timely job.assets (d.store.hasEvent job.id) (typesFor calls job.id) = false →
      (d.inTurn calls).store.phase? job.id = some .matching ∧
        (d.inTurn calls).bus.completions job.id = d.bus.completions job.id) := by
  have hstart : d.store.phase? job.id = some .collection := by
    rw [MemoryStore.phase_of_job hj, hp]
  have hend := ha.phase_inTurn hj
  have htold := (ha.told_inTurn job.id).count
  rw [hp, Step.landings_collection_eq hs.required hs.evidences] at hend
  rw [hend, hstart] at htold
  cases ht : Step.timely job.assets (d.store.hasEvent job.id) (typesFor calls job.id) with
  | true =>
    simp only [ht, if_true] at hend htold
    refine ⟨⟨fun _ => rfl, fun _ => ⟨hend, ?_⟩⟩, fun h => nomatch h⟩
    simpa [ho] using htold
  | false =>
    simp only [ht] at hend htold
    refine ⟨⟨fun h => ?_, fun h => nomatch h⟩, fun _ => ⟨hend, ?_⟩⟩
    · rw [h.phase] at hend
      cases hend
    · simpa using htold

def Job.withImages : Job := ⟨"job", "retail", .collection, ⟨true, false⟩, .epoch⟩

def Deployment.imagesOnly : Deployment :=
  { Deployment.ofCapacities [8] .epoch with store := MemoryStore.empty.insertJob .withImages }

def Call.eventsIn (order : List String) : List Call :=
  order.map fun t => .ofEvent 0 t ⟨t, "job", none⟩

theorem awaits_eventsIn {order : List String}
    (hd : ((errandsOf (Call.eventsIn order)).map (·.event.eventId)).Nodup) :
    Deployment.imagesOnly.Awaits (Call.eventsIn order) where
  calm := ⟨rfl, rfl⟩
  distinct := hd
  unrecorded := fun _ _ => rfl
  unseen := by
    intro e _ hc
    obtain ⟨r, hr, hm⟩ := hc
    rw [show Deployment.imagesOnly.recent = [⟨8, []⟩] from rfl, List.mem_singleton] at hr
    rw [hr] at hm
    cases hm

/-- Evidence comes first and the match last: the job finishes. -/
theorem finishes_matched_last :
    Deployment.imagesOnly.Finishes (Deployment.imagesOnly.inTurn (Call.eventsIn
      [Topic.evidences, Topic.imageKeypoints, Topic.imageEmbeddings, Topic.matchings])) "job" := by
  have ha : Deployment.imagesOnly.Awaits (Call.eventsIn
      [Topic.evidences, Topic.imageKeypoints, Topic.imageEmbeddings, Topic.matchings]) :=
    awaits_eventsIn (by decide +kernel)
  have hj : Deployment.imagesOnly.store.job? Job.withImages.id = some .withImages := by
    decide +kernel
  have hfinish := finishes_iff_timely ha hj rfl rfl
    ⟨by decide +kernel, by decide +kernel, by decide +kernel⟩
  exact hfinish.1.2 (by decide +kernel)

/-- The match comes after the evidence and before the features: the job does not finish. -/
theorem not_finishes_matched_early :
    let calls := Call.eventsIn
      [Topic.evidences, Topic.matchings, Topic.imageEmbeddings, Topic.imageKeypoints]
    Deployment.imagesOnly.Awaits calls ∧
      Deployment.imagesOnly.store.job? Job.withImages.id = some .withImages ∧
      Job.withImages.phase = .collection ∧ Deployment.imagesOnly.bus.Open ∧
      Call.Suffice calls .withImages ∧
      ¬ Deployment.imagesOnly.Finishes (Deployment.imagesOnly.inTurn calls) Job.withImages.id := by
  refine ⟨awaits_eventsIn (by decide +kernel), by decide +kernel, rfl, rfl,
    ⟨by decide +kernel, by decide +kernel, by decide +kernel⟩, fun h => ?_⟩
  exact absurd h.phase (by decide +kernel)

end PhaseKeeper
