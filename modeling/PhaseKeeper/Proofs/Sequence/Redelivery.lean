import PhaseKeeper.Proofs.Sequence.Completion
import PhaseKeeper.Proofs.Sequence.Intake
/-!
Deliveries that are made once more after the store has failed. Events that were not recorded are recorded
then, behind those that were; but what is recorded is not handled again, even if its handling failed.
-/
namespace PhaseKeeper

def deliveries (script : List Command) : List Command := (callsOf script).map .deliver

namespace Deployment
variable {d : Deployment} {job : Job} {script : List Command} {earlier : List Stamp}

/-- If faults are cleared after the script and all is delivered once more, the job gets as far as it would
have without the faults. -/
def Mends (d : Deployment) (script : List Command) (j : String) : Prop :=
  ∀ p, (d.follow (deliveries script)).store.phase? j = some p →
    ∃ q, (d.follow (script ++ .recover :: deliveries script)).store.phase? j = some q ∧ p ≤ q

/-- No event of the job is recorded before one that it needs, although that one was delivered before. -/
def KeepsOrder (d : Deployment) (earlier : List Stamp) (script : List Command) (job : Job) : Prop :=
  ∀ pre call e, d.Records script job.id pre call e →
    ∀ x ∈ earlier ++ stampsFor (callsOf pre) job.id,
      (d.follow pre).store.recorded x.eventId = false → ¬ job.assets.Needs e.eventType x.eventType

theorem callsOf_cons (c : Command) (script : List Command) :
    callsOf (c :: script) = c.call?.toList ++ callsOf script := by
  cases h : c.call? <;> simp [callsOf, h]

theorem stampsFor_callsOf_cons (c : Command) (script : List Command) (j : String) :
    stampsFor (callsOf (c :: script)) j =
      stampsFor c.call?.toList j ++ stampsFor (callsOf script) j := by
  rw [callsOf_cons]
  cases c.call? with
  | none => rfl
  | some call => exact stampsFor_cons call (callsOf script) j

theorem KeepsOrder.tail {c : Command} (h : d.KeepsOrder earlier (c :: script) job) :
    (d.obey c).2.KeepsOrder (earlier ++ stampsFor c.call?.toList job.id) script job := by
  intro pre call e hr x hx
  apply h _ _ _ hr.cons
  rwa [stampsFor_callsOf_cons, ← List.append_assoc]

theorem keepsOrder_nil : d.KeepsOrder earlier [] job :=
  fun _ _ _ hr => absurd hr not_records_nil

theorem KeepsOrder.cons {c : Command}
    (hnow : ∀ y ∈ d.takesNow c job.id, ∀ x ∈ earlier, d.store.recorded x.eventId = false →
      ¬ job.assets.Needs y.eventType x.eventType)
    (hrest : (d.obey c).2.KeepsOrder (earlier ++ stampsFor c.call?.toList job.id) script job) :
    d.KeepsOrder earlier (c :: script) job := by
  intro pre call e hr x hx hnew
  cases hr.uncons with
  | inl hhead =>
    obtain ⟨rfl, -, htakes⟩ := hhead
    have hearlier : x ∈ earlier := by simpa [callsOf, stampsFor, errandsOf] using hx
    exact hnow e.stamp (by simp [htakes]) x hearlier hnew
  | inr hlater =>
    obtain ⟨pre', rfl, hr'⟩ := hlater
    rw [stampsFor_callsOf_cons, ← List.append_assoc] at hx
    exact hrest _ _ _ hr' x hx hnew

/-- What a script and the deliveries after it record is what the deliveries record in the first place, in
an order in which no event has overtaken one that it needs. -/
theorem overtaken_takes (hs : d.Sound) (ht : ∀ c ∈ script, c.transient = true)
    (ho : d.KeepsOrder earlier script job)
    (hu : Unmistaken (callsOf script) job.id (earlier ++ stampsFor (callsOf script) job.id)) :
    Overtaken (fun y x => ¬ job.assets.Needs y.eventType x.eventType)
      (unheard d.store.recorded (earlier ++ stampsFor (callsOf script) job.id))
      (d.takes script job.id ++ unheard (d.follow script).store.recorded
        (earlier ++ stampsFor (callsOf script) job.id)) := by
  -- By induction on the script; `earlier` are the events that were delivered before what is left of it.
  induction script generalizing d earlier with
  | nil => exact .refl _
  | cons c cs ih =>
    have htc := ht c List.mem_cons_self
    rw [stampsFor_callsOf_cons, ← List.append_assoc] at hu ⊢
    have hcalls : callsOf cs ⊆ callsOf (c :: cs) := by
      rw [callsOf_cons]
      exact List.subset_append_right _ _
    have hrest := ih (hs.obey c) (fun c' hc' => ht c' (List.mem_cons_of_mem c hc')) ho.tail
      (hu.mono hcalls (List.Subset.refl _))
    have hmem {call : Call} {e : Errand} (hc : c = .deliver call) (he : call.errand? = some e) :
        e ∈ errandsOf (callsOf (c :: cs)) := by
      apply List.mem_filterMap.2
      refine ⟨call, ?_, he⟩
      rw [callsOf_cons, hc]
      exact List.mem_cons_self
    have hknown := unheard_congr fun x hx => recorded_obey hs htc fun call e hc he hname =>
      (hu e (hmem hc he) x hx hname).1
    rw [hknown] at hrest
    cases touched hs htc job.id with
    | spared htakes =>
      rw [takes, htakes]
      rw [htakes, List.map_nil, Step.seeing_nil] at hrest
      exact hrest
    | @taken call e hc he hj ha htaken =>
      subst hc
      have hhead : stampsFor (Command.deliver call).call?.toList job.id = [e.stamp] :=
        stampsFor_own he hj
      have htakes := takesNow_of_taken he hj htaken
      rw [hhead, List.append_assoc, List.singleton_append] at hu hrest ⊢
      rw [takes, htakes, List.singleton_append, List.cons_append]
      rw [htakes] at hrest
      have hsame (y : Stamp) (hy : y ∈ earlier) (hname : y.eventId = e.stamp.eventId) :
          y = e.stamp := (hu e (hmem rfl he) y (List.mem_append_left _ hy) hname.symm).2.symm
      have hinsert : ∃ a b,
          unheard d.store.recorded (earlier ++ e.stamp :: stampsFor (callsOf cs) job.id) =
            a ++ e.stamp :: b ∧
          unheard (Step.seeing d.store.recorded ([e.stamp].map Stamp.eventId))
            (earlier ++ e.stamp :: stampsFor (callsOf cs) job.id) = a ++ b ∧
          ∀ y ∈ a, y ∈ earlier ∧ d.store.recorded y.eventId = false :=
        unheard_insert ha.new hsame
      obtain ⟨a, b, hold, hnew, hmissed⟩ := hinsert
      rw [hold]
      rw [hnew] at hrest
      -- What the event overtakes was delivered earlier and not recorded, so none of it is needed here.
      apply hrest.front
      intro y hy
      have hrecords : d.Records (.deliver call :: cs) job.id [] call e :=
        ⟨⟨cs, rfl⟩, he, hj, htaken⟩
      exact ho _ _ _ hrecords y (List.mem_append_left _ (hmissed y hy).1) (hmissed y hy).2

end Deployment

/-- Delivering all once more makes up for a store that has failed, if every event that was recorded
meanwhile was carried through and overtook none that it needs, and if events with one name are one
event. -/
theorem redelivery_mends {d : Deployment} {script : List Command} {job : Job} (hs : d.Sound)
    (hc : d.store.Calm) (hj : d.store.job? job.id = some job)
    (ht : ∀ c ∈ script, c.transient = true) (hcarries : d.Carries script job.id)
    (horder : d.KeepsOrder [] script job)
    (hnames : Unmistaken (callsOf script) job.id (stampsFor (callsOf script) job.id)) :
    d.Mends script job.id := by
  intro p hp
  have hdeliver : ∀ c ∈ deliveries script, c.transient = true := by
    intro c hmem
    obtain ⟨call, -, rfl⟩ := List.mem_map.1 hmem
    rfl
  -- Without faults.
  have hplain : d.Reached job ((unheard d.store.recorded
      (stampsFor (callsOf script) job.id)).map Stamp.eventType) (d.follow (deliveries script)) := by
    rw [← Deployment.takes_deliveries hs hc hj hnames]
    exact Deployment.reached_follow hs hc.pending hj hdeliver
      (Deployment.carries_deliveries hs hc.faults _ job.id)
  -- With faults, and once more without.
  have hfirst := Deployment.reached_follow hs hc.pending hj ht hcarries
  have hagain : d.Reached job ((d.takes script job.id ++ unheard (d.follow script).store.recorded
      (stampsFor (callsOf script) job.id)).map Stamp.eventType)
      (d.follow (script ++ .recover :: deliveries script)) := by
    rw [List.map_append, d.follow_append]
    apply hfirst.trans
    intro job' hj'
    have hid := MemoryStore.job_id hj'
    have hs' := (hs.follow script).obey .recover
    have hc' : ((d.follow script).obey .recover).2.store.Calm := ⟨rfl, hfirst.pending⟩
    rw [← hid] at hj' hnames ⊢
    have hrest := Deployment.reached_follow hs' hc'.pending hj' hdeliver
      (Deployment.carries_deliveries hs' hc'.faults _ job'.id)
    rw [deliveries, Deployment.takes_deliveries hs' hc' hj' hnames] at hrest
    exact ⟨hrest.pending, hrest.view, hrest.job⟩
  have hover : Overtaken (fun t u => ¬ job.assets.Needs t u) _ _ :=
    (Deployment.overtaken_takes hs ht horder hnames).map Stamp.eventType fun _ _ h => h
  obtain ⟨job₁, hj₁, -, hphase₁⟩ := hplain.job
  obtain ⟨job₂, hj₂, -, hphase₂⟩ := hagain.job
  rw [MemoryStore.phase_of_job hj₁] at hp
  cases hp
  refine ⟨job₂.phase, MemoryStore.phase_of_job hj₂, ?_⟩
  rw [hphase₁, hphase₂]
  exact Step.landings_overtaken hover

def Command.comes (t id : String) : Command := .deliver (.ofEvent 0 t ⟨id, "job", none⟩)

/-- An event is not recorded at first; it is overtaken by one that does not need it. -/
theorem redelivery_mends_unrecorded : Deployment.imagesOnly.Mends
    [.fail .insertEvent none, .comes Topic.imageEmbeddings "a", .recover,
      .comes Topic.imageKeypoints "b"] Job.withImages.id := by
  have hs : Deployment.imagesOnly.Sound :=
    .congr (Deployment.sound_ofCapacities [8] .epoch) rfl rfl
  have hj : Deployment.imagesOnly.store.job? Job.withImages.id = some .withImages := by
    decide +kernel
  apply redelivery_mends hs ⟨rfl, rfl⟩ hj
  · decide
  · apply Deployment.Carries.cons (by decide +kernel)
    apply Deployment.Carries.cons (by decide +kernel)
    apply Deployment.Carries.cons (by decide +kernel)
    apply Deployment.Carries.cons (by decide +kernel)
    exact Deployment.carries_nil
  · apply Deployment.KeepsOrder.cons (by decide +kernel)
    apply Deployment.KeepsOrder.cons (by decide +kernel)
    apply Deployment.KeepsOrder.cons (by decide +kernel)
    apply Deployment.KeepsOrder.cons (by decide +kernel)
    exact Deployment.keepsOrder_nil
  · unfold Unmistaken
    decide +kernel

theorem not_mends_of {d : Deployment} {script : List Command} {j : String} {p q : Phase}
    (hp : (d.follow (deliveries script)).store.phase? j = some p)
    (hq : (d.follow (script ++ .recover :: deliveries script)).store.phase? j = some q)
    (hlt : q < p) : ¬ d.Mends script j := by
  intro h
  obtain ⟨q', hq', hle⟩ := h p hp
  cases hq.symm.trans hq'
  exact Phase.not_lt_of_le hle hlt

/-- Not made up for are a phase that cannot be read, a look-up that fails, evidence recorded before a match
that was lost, a match recorded before a required event that was lost, and an event that bears the name of
a match that was lost. -/
theorem not_mends :
    ¬ Deployment.imagesOnly.Mends
      [.fail .phaseOf none, .comes Topic.imageEmbeddings "a"] "job" ∧
    ¬ Deployment.imagesOnly.Mends
      [.fail .hasEvent none, .comes Topic.imageEmbeddings "a", .comes Topic.imageKeypoints "b"]
      "job" ∧
    ¬ Deployment.imagesOnly.Mends
      [.fail .insertEvent none, .comes Topic.matchings "a", .recover, .comes Topic.evidences "b"]
      "job" ∧
    ¬ Deployment.imagesOnly.Mends
      [.comes Topic.imageEmbeddings "a", .fail .insertEvent none, .comes Topic.imageKeypoints "b",
        .recover, .comes Topic.matchings "c"] "job" ∧
    ¬ Deployment.imagesOnly.Mends
      [.comes Topic.imageEmbeddings "a", .comes Topic.imageKeypoints "b", .fail .insertEvent none,
        .comes Topic.matchings "c", .recover, .comes Topic.imageEmbeddings "c"] "job" := by
  refine ⟨?phase, ?lookUp, ?evidence, ?matchings, ?name⟩
  case phase =>
    apply not_mends_of (p := .featureExtraction) (q := .collection) <;> decide +kernel
  case lookUp =>
    apply not_mends_of (p := .matching) (q := .featureExtraction) <;> decide +kernel
  case evidence =>
    apply not_mends_of (p := .completed) (q := .featureExtraction) <;> decide +kernel
  case matchings =>
    apply not_mends_of (p := .evidence) (q := .matching) <;> decide +kernel
  case name =>
    apply not_mends_of (p := .evidence) (q := .matching) <;> decide +kernel

end PhaseKeeper
