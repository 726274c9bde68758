import Mathlib.Data.List.Induction
import PhaseKeeper.Proofs.Handling.Footprint
/-!
The marks that a handling leaves, in the order in which it leaves them, whatever replies it gets.
What may come next depends on those before: the phase is read once, a swap that is lost is the end,
and a request to match the job has to be earned.
-/
namespace PhaseKeeper

inductive Footmark where
  /-- The event is in the ledger now. -/
  | recorded
  /-- The phase of the job was read, which is `none` if the job is not there or cannot be read. -/
  | found (p : Option Phase)
  /-- A swap was tried; it took place or did not. -/
  | swapped (p q : Phase) (won : Bool)
  /-- It was looked up what a request to match the job has to contain. -/
  | prepared
  /-- It was tried to send a request to match the job. -/
  | requested
  /-- It was tried to send something else. -/
  | announced
deriving DecidableEq, Repr

namespace Footmark

def of : (r : Request) → r.Reply → Option Footmark
  | .store (.insertEvent _), .ok () => some .recorded
  | .store (.phaseOf _), x => some (.found (x.toOption.getD none))
  | .store (.swapPhase _ p q), x => some (.swapped p q (x.toOption.getD false))
  | .store (.industryOf _), _ => some .prepared
  | .publish draft, _ => some (if draft.topic = Topic.matchRequest then .requested else .announced)
  | _, _ => none

/-- What entitles the handling of an event of type `t` to ask for its job to be matched: it has
moved the job there, or it has found it there and left it alone. -/
def Entitled (t : String) (trail : List Footmark) : Prop :=
  .swapped .featureExtraction .matching true ∈ trail ∨
    .found (some .matching) ∈ trail ∧ t ≠ Topic.matchings ∧ ∀ p q won, .swapped p q won ∉ trail

def Unbeaten (trail : List Footmark) : Prop := ∀ p q, .swapped p q false ∉ trail

def Permitted (t : String) (trail : List Footmark) : Footmark → Prop
  | .recorded => trail = []
  | .found _ => trail = [.recorded]
  | .swapped .. =>
    Unbeaten trail ∧ (.prepared ∈ trail → .swapped .featureExtraction .matching true ∈ trail)
  | .prepared => Unbeaten trail ∧ .prepared ∉ trail ∧ Entitled t trail
  | .requested => Unbeaten trail ∧ .requested ∉ trail ∧ .prepared ∈ trail ∧ Entitled t trail
  | .announced => Unbeaten trail

def Sound (t : String) (trail : List Footmark) : Prop :=
  ∀ before mark after, trail = before ++ mark :: after → Permitted t before mark

variable {t : String} {trail rest : List Footmark} {mark : Footmark} {first : Bool} {p q : Phase}

theorem sound_nil : Sound t [] := by simp [Sound]

theorem Sound.snoc (h : Sound t trail) (ht : Permitted t trail mark) : Sound t (trail ++ [mark]) := by
  intro before mark' after hs
  obtain rfl | ⟨after', last, rfl⟩ := List.eq_nil_or_concat after
  · obtain ⟨rfl, hlast⟩ := List.append_inj' hs rfl
    rwa [← List.singleton_inj.1 hlast]
  · have hs' : trail ++ [mark] = (before ++ mark' :: after') ++ [last] := by simpa using hs
    exact h before mark' after' (List.append_inj' hs' rfl).1

theorem Sound.count_requested (h : Sound t trail) : trail.count .requested ≤ 1 := by
  induction trail using List.reverseRecOn with
  | nil => simp
  | append_singleton trail mark ih =>
    have hs : Sound t trail := fun before mark' after he =>
      h before mark' (after ++ [mark]) (by simp [he])
    have hp := h trail mark [] rfl
    by_cases ht : mark = .requested
    · subst ht
      simp [List.count_eq_zero.2 hp.2.1]
    · simpa [List.count_append, List.count_singleton, ht] using ih hs

/-- A lost swap is the last mark. -/
theorem Sound.lost_last (h : Sound t (trail ++ .swapped p q false :: rest)) : rest = [] := by
  cases rest with
  | nil => rfl
  | cons mark rest =>
    have hp := h (trail ++ [.swapped p q false]) mark rest (by simp)
    have hlost : ¬ Unbeaten (trail ++ [.swapped p q false]) := fun hu => hu p q (by simp)
    cases mark with
    | recorded => simp [Permitted] at hp
    | found => simp [Permitted, List.append_eq_cons_iff] at hp
    | swapped | prepared | requested => exact absurd hp.1 hlost
    | announced => exact absurd hp hlost

theorem Sound.no_swap (h : Sound t (trail ++ rest)) (hp : .prepared ∈ trail)
    (hn : ∀ p q won, .swapped p q won ∉ trail) : ∀ p q won, .swapped p q won ∉ trail ++ rest := by
  induction rest generalizing trail with
  | nil => simpa using hn
  | cons mark rest ih =>
    have hmark : ∀ p q won, .swapped p q won ≠ mark := by
      rintro p q won rfl
      exact hn _ _ _ ((h trail _ rest rfl).2 hp)
    have hn' : ∀ p q won, .swapped p q won ∉ trail ++ [mark] := by
      intro p q won hm
      simp only [List.mem_append, List.mem_singleton] at hm
      exact hm.elim (hn p q won) (hmark p q won)
    simpa using ih (by simpa using h) (by simp [hp]) hn'

theorem Sound.recorded (h : Sound t trail) {p : Option Phase} (hf : .found p ∈ trail) :
    .recorded ∈ trail := by
  obtain ⟨before, after, rfl⟩ := List.append_of_mem hf
  have hp : before = [.recorded] := h before _ after rfl
  simp [hp]

end Footmark

/-- The request is no mark, whatever the reply. -/
def Request.Uneventful (r : Request) : Prop := ∀ x, Footmark.of r x = none

/-- What is fired when a job moves from `p` to `q`. -/
inductive Occasion (p q : Phase) : Option Effect → Prop
  | nothing : Occasion p q none
  | matching (hp : p = .featureExtraction) (hq : q = .matching) : Occasion p q (some .requestMatching)
  | completed (hq : q = .completed) : Occasion p q (some .announceCompletion)

/-- What the next step from the phase `p` can be: to ask for matching once more is only for those
who have found the job there. -/
inductive Sensible (t : String) (first : Bool) (p : Phase) : Except StoreFault Step → Prop
  | failed (cause : StoreFault) : Sensible t first p (.error cause)
  | stay : Sensible t first p (.ok .stay)
  | refire (hf : first = true) (hp : p = .matching) (ht : t ≠ Topic.matchings) :
    Sensible t first p (.ok (.refire .requestMatching))
  | advance {q : Phase} {effect : Option Effect} (hlt : p < q) (he : Occasion p q effect) :
    Sensible t first p (.ok (.advance q effect))

theorem seen_uneventful (j t : String) : (seen j t).Within Request.Uneventful fun _ => True :=
  ⟨fun _ => rfl, fun x => by cases x <;> trivial⟩

theorem allSeen_uneventful (j : String) (ts : List String) :
    (allSeen j ts).Within Request.Uneventful fun _ => True := by
  induction ts with
  | nil => trivial
  | cons t ts ih =>
    refine (seen_uneventful j t).bind fun b _ => ?_
    cases b
    · trivial
    · exact ih

theorem phaseStep_sensible (j t : String) (first : Bool) (p : Phase) :
    (phaseStep j t first p).Within Request.Uneventful (Sensible t first p) := by
  cases p with
  | collection => exact .advance (by decide) .nothing
  | completed => exact .stay
  | featureExtraction =>
    refine ⟨fun _ => rfl, fun x => ?_⟩
    cases x with
    | error cause => exact .failed cause
    | ok assets =>
      refine (allSeen_uneventful j assets.required).bind fun b _ => ?_
      cases b
      · exact .stay
      · exact .advance (by decide) (.matching rfl rfl)
  | matching =>
    simp only [phaseStep]
    split
    · exact .advance (by decide) .nothing
    · rename_i ht
      cases first
      · exact .stay
      · exact .refire rfl rfl ht
  | evidence =>
    simp only [phaseStep, evidenceStep]
    split
    · exact .advance (by decide) (.completed rfl)
    · refine (seen_uneventful j _).bind fun b _ => ?_
      cases b
      · exact .stay
      · exact .advance (by decide) (.completed rfl)

theorem nextStep_sensible (j t : String) (first : Bool) (p : Phase) :
    (nextStep j t first p).Within Request.Uneventful (Sensible t first p) := by
  unfold nextStep
  split
  · rename_i hg
    refine (seen_uneventful j _).bind fun b _ => ?_
    cases b
    · exact phaseStep_sensible j t first p
    · exact .advance (Nat.lt_trans hg.2 (by decide)) (.completed rfl)
  · exact phaseStep_sensible j t first p

namespace Pact
open Footmark

/-- To leave only marks that are permitted. One notes the marks that one has left. -/
def treading (t : String) : Pact (List Footmark) where
  valid _ := True
  rely _ _ := True
  duty trail r _ x _ := ∀ mark, Footmark.of r x = some mark → Permitted t trail mark
  note trail r _ x _ := trail ++ (Footmark.of r x).toList
  refl _ := trivial
  trans _ _ := trivial

variable {t : String} {trail : List Footmark} {d : Deployment}

theorem treading_quiet {r : Request} (hr : r.Uneventful) : (treading t).Quiet r where
  duty {_ _ x _} _ _ mark ht := by
    rw [hr x] at ht
    cases ht
  note {_ _ x _} _ _ := by simp [treading, hr x]
  rely _ _ := trivial

theorem Quiet.keeps_ask {Note α : Type} {P : Pact Note} {post : α → Note → Deployment → Prop}
    {n : Note} {r : Request} {f : r.Reply → Handling α} (hr : P.Quiet r)
    (h : ∀ x d', P.Keeps post (f x) n d') : P.Keeps post (PhaseKeeper.ask r >>= f) n d :=
  .ask fun d₁ hv _ x d₂ hx => ⟨hr.duty hv hx, by
    rw [hr.note hv hx]
    exact h x d₂⟩

theorem treading_ask {α : Type} {r : Request} {f : r.Reply → Handling α}
    {post : α → List Footmark → Deployment → Prop} (mark : r.Reply → Footmark)
    (hr : ∀ x, Footmark.of r x = some (mark x)) (hp : ∀ x, Permitted t trail (mark x))
    (h : ∀ x d', (treading t).Keeps post (f x) (trail ++ [mark x]) d') :
    (treading t).Keeps post (PhaseKeeper.ask r >>= f) trail d := by
  refine .ask fun d₁ _ _ x d₂ _ => ⟨fun mark' ht => ?_, ?_⟩
  · rw [hr x] at ht
    cases ht
    exact hp x
  · simpa [treading, hr x] using h x d₂

theorem treading_report (i : Incident) : (treading t).Quiet (.report i) :=
  treading_quiet fun _ => rfl

/-- Whoever is entitled to ask for matching, and has not done so, may. -/
theorem treads_request (hu : Unbeaten trail) (hp : .prepared ∉ trail) (hr : .requested ∉ trail)
    (he : Entitled t trail) (r : Report) :
    (treading t).Keeps (fun _ trail' _ => ∃ extra, trail' = trail ++ extra ∧
      ∀ mark ∈ extra, mark = .prepared ∨ mark = .requested)
      (r.firing (some .requestMatching)) trail d := by
  have hquiet (i : Incident) (a : Except HandlingFault Report) (extra : List Footmark)
      (hextra : ∀ mark ∈ extra, mark = .prepared ∨ mark = .requested) (d' : Deployment) :
      (treading t).Keeps (fun _ trail' _ => ∃ extra, trail' = trail ++ extra ∧
        ∀ mark ∈ extra, mark = .prepared ∨ mark = .requested)
        (do ask (.report i); return a) (trail ++ extra) d' :=
    (treading_report i).keeps_ask fun _ _ _ _ _ => ⟨extra, rfl, hextra⟩
  have hu' : Unbeaten (trail ++ [.prepared]) := fun p q hm => hu p q (by simpa using hm)
  have he' : Entitled t (trail ++ [.prepared]) :=
    he.imp (fun h => by simp [h]) fun ⟨hf, ht, hn⟩ => ⟨by simp [hf], ht, by simpa using hn⟩
  refine treading_ask (fun _ => .prepared) (fun _ => rfl) (fun _ => ⟨hu, hp, he⟩)
    fun x d₁ => ?_
  cases x with
  | error cause => exact hquiet _ _ [.prepared] (by simp) d₁
  | ok industry =>
    refine treading_ask (fun _ => .requested) (fun _ => rfl)
      (fun _ => ⟨hu', by simpa using hr, by simp, he'⟩) fun y d₂ => ?_
    rw [List.append_assoc]
    cases y with
    | error cause => exact hquiet _ _ [.prepared, .requested] (by simp) d₂
    | ok => exact fun _ _ _ => ⟨[.prepared, .requested], rfl, by simp⟩

theorem treads_announce (hu : Unbeaten trail) (r : Report) :
    (treading t).Keeps (fun _ _ _ => True) (r.firing (some .announceCompletion)) trail d := by
  refine treading_ask (fun _ => .announced) (fun _ => rfl) (fun _ => hu) fun x d₁ => ?_
  cases x with
  | error cause => exact (treading_report _).keeps_ask fun _ _ _ _ _ => trivial
  | ok => exact fun _ _ _ => trivial

/-- How a handling stands when it is about to decide a step from the phase `p`. -/
structure Poised (t : String) (first : Bool) (p : Phase) (trail : List Footmark) : Prop where
  unbeaten : Unbeaten trail
  start : first = true → .found (some p) ∈ trail ∧ ∀ p q won, .swapped p q won ∉ trail
  moved : .prepared ∈ trail → .swapped .featureExtraction .matching true ∈ trail
  silent : p < .matching ∨ first = true → .prepared ∉ trail ∧ .requested ∉ trail

variable {first : Bool} {p q : Phase}

theorem Poised.swapped (h : Poised t first p trail) (hlt : p < q) :
    Poised t false q (trail ++ [.swapped p q true]) where
  unbeaten p' q' hm := h.unbeaten p' q' (by simpa using hm)
  start hf := nomatch hf
  moved hm := List.mem_append_left _ (h.moved (by simpa using hm))
  silent hq := by
    have hp : p < .matching := Nat.lt_trans hlt (hq.resolve_right (by simp))
    simpa using h.silent (.inl hp)

theorem Poised.requested {extra : List Footmark} (h : Poised t first .matching trail)
    (hm : .swapped .featureExtraction .matching true ∈ trail) (hf : first = false)
    (he : ∀ mark ∈ extra, mark = .prepared ∨ mark = .requested) :
    Poised t first .matching (trail ++ extra) where
  unbeaten p' q' hm' := by
    obtain hm' | hm' := List.mem_append.1 hm'
    · exact h.unbeaten p' q' hm'
    · exact absurd (he _ hm') (by simp)
  start hf' := by simp [hf] at hf'
  moved _ := List.mem_append_left _ hm
  silent hp := by simp [hf] at hp; exact absurd hp (by decide)

theorem treads_firing (h : Poised t first p trail) (hlt : p < q) {effect : Option Effect}
    (he : Occasion p q effect) (r : Report) :
    (treading t).Keeps (fun _ trail' _ => q = .completed ∨ Poised t false q trail')
      (r.firing effect) (trail ++ [.swapped p q true]) d := by
  have hs := h.swapped hlt
  cases he with
  | nothing => exact fun _ _ _ => .inr hs
  | completed hq => exact (treads_announce hs.unbeaten r).mono fun _ _ _ _ _ => .inl hq
  | matching hp hq =>
    subst hp hq
    obtain ⟨hp, hr⟩ := h.silent (.inl (by decide))
    refine (treads_request hs.unbeaten (by simpa using hp) (by simpa using hr) (.inl (by simp))
      r).mono ?_
    rintro _ _ _ _ ⟨extra, rfl, hextra⟩
    exact .inr (hs.requested (by simp) rfl hextra)

theorem treads_chain (n : Nat) (r : Report) (ht : r.eventType = t)
    (h : Poised t first r.finish trail) :
    (treading t).Keeps (fun _ _ _ => True) (chain first n r) trail d := by
  induction n generalizing first r trail d with
  | zero => exact fun _ _ _ => trivial
  | succ n ih =>
    refine .bind ((Keeps.of_within (nextStep_sensible _ _ _ _) fun _ hr => treading_quiet hr).mono ?_)
    rintro x trail' d₁ _ ⟨hx, rfl, -⟩
    cases hx with
    | failed | stay => exact fun _ _ _ => trivial
    | refire hf hp hm =>
      obtain ⟨hfound, hn⟩ := h.start hf
      obtain ⟨hp', hr'⟩ := h.silent (.inr hf)
      rw [hp] at hfound
      exact (treads_request h.unbeaten hp' hr' (.inr ⟨hfound, ht ▸ hm, hn⟩) r).mono
        fun _ _ _ _ _ => trivial
    | @advance q effect hlt he =>
      simp only [Phase.ensureForward_of_lt hlt]
      refine treading_ask (fun x => .swapped r.finish q (x.toOption.getD false))
        (fun _ => rfl) (fun _ => ⟨h.unbeaten, h.moved⟩) fun y d₂ => ?_
      obtain cause | _ | _ := y
      · exact fun _ _ _ => trivial
      · exact fun _ _ _ => trivial
      · refine .bind (((treads_firing h hlt he _).within (firing_within _ effect)).mono ?_)
        rintro z trail'' d₃ _ ⟨⟨-, -, hz⟩, hq⟩
        cases z with
        | error cause => exact fun _ _ _ => trivial
        | ok r' =>
          obtain ⟨-, ht', hfin⟩ := hz r' rfl
          by_cases hc : q.isTerminal = true
          · simp only [hc, if_true]
            exact fun _ _ _ => trivial
          · simp only [hc]
            have hne : q ≠ .completed := by simpa [Phase.isTerminal] using hc
            exact ih r' (ht'.trans ht) (hfin ▸ hq.resolve_left hne)

theorem treads_advanceJob (id j : String) :
    (treading t).Keeps (fun _ _ _ => True) (advanceJob id j t) [.recorded] d := by
  refine treading_ask (fun x => .found (x.toOption.getD none)) (fun _ => rfl)
    (fun _ => rfl) fun x d₁ => ?_
  have hreport (i : Incident) (o : Outcome) (trail : List Footmark) (d : Deployment) :
      (treading t).Keeps (fun _ _ _ => True) (do ask (.report i); return o) trail d :=
    (treading_report i).keeps_ask fun _ _ _ _ _ => trivial
  obtain cause | _ | phase := x
  · exact hreport _ _ _ _
  · exact fun _ _ _ => trivial
  · have hstart : Poised t true phase [.recorded, .found (some phase)] :=
      ⟨by simp [Unbeaten], by simp, by simp, by simp⟩
    refine .bind ((treads_chain longestChain ⟨j, t, phase, phase, [], false⟩ rfl hstart).mono ?_)
    intro y trail' d₂ _ _
    cases y with
    | error cause => exact hreport _ _ _ _
    | ok => exact fun _ _ _ => trivial

theorem treads_recordEvent (id j : String) :
    (treading t).Keeps (fun x trail _ => x = .recorded → trail = [.recorded])
      (recordEvent id j t) [] d := by
  refine (treading_quiet fun _ => rfl).keeps_ask fun hit d₁ => ?_
  cases hit
  · refine (treading_quiet fun _ => rfl).keeps_ask fun now d₂ => .ask fun d₃ _ _ x d₄ _ => ?_
    obtain cause | _ := x
    · have hnone : Footmark.of (.store (.insertEvent ⟨id, j, t, now⟩)) (.error cause) = none := rfl
      refine ⟨fun mark ht => (nomatch hnone.symm.trans ht), ?_⟩
      cases cause with
      | alreadyRecorded =>
        exact (treading_quiet fun _ => rfl).keeps_ask fun _ _ _ _ _ h => nomatch h
      | database | jobNotFound | corrupt | unavailable => exact fun _ _ _ h => nomatch h
    · refine ⟨fun mark ht => by cases ht; exact rfl, ?_⟩
      exact (treading_quiet fun _ => rfl).keeps_ask fun _ _ _ _ _ _ => rfl
  · exact fun _ _ _ h => nomatch h

theorem treads_handleAccepted (e : CompletionEvent) :
    (treading t).Keeps (fun _ _ _ => True) (handleAccepted t e) [] d := by
  refine .bind ((treads_recordEvent e.eventId e.jobId).mono ?_)
  intro x trail d₁ _ hx
  obtain _ | _ | cause := x
  · rw [hx rfl]
    exact treads_advanceJob e.eventId e.jobId
  · exact fun _ _ _ => trivial
  · cases cause <;> exact fun _ _ _ => trivial

end Pact
end PhaseKeeper
