import PhaseKeeper.Handling.Delivery
import PhaseKeeper.Proofs.Interleaving.Pact
/-!
What the handling of an event asks for, whatever replies it gets: everything is about the job of the
event, only the event itself is recorded, and a swap never aims at an earlier phase.
-/
namespace PhaseKeeper

namespace Request

def Reads (j : String) : Request → Prop
  | .store (.phaseOf k) | .store (.assetsOf k) | .store (.hasEvent k _) => k = j
  | _ => False

def Solicits (j : String) : Request → Prop
  | .store (.industryOf k) => k = j
  | .publish draft => ∃ industry, draft = (MatchRequest.ofJob j industry).draft
  | .report _ => True
  | _ => False

def Notifies (j : String) (r : Request) : Prop :=
  r = .publish (JobCompleted.mk j).draft ∨ r.Solicits j

/-- Belongs to moving a job on, once the event is recorded. -/
def Moves (j : String) : Request → Prop
  | .store (.swapPhase k p q) => k = j ∧ p < q
  | r => r.Reads j ∨ r.Notifies j

/-- Everything that the handling of the event `id` of type `t` for the job `j` can ask for. -/
def Serves (id j t : String) : Request → Prop
  | .store (.insertEvent e) => e.eventId = id ∧ e.jobId = j ∧ e.eventType = t
  | .store (.swapPhase k p q) => k = j ∧ p < q
  | .lookUp i | .remember i => i = id
  | .now => True
  | r => r.Reads j ∨ r.Notifies j

variable {r : Request} {id j t : String}

theorem Reads.moves (h : r.Reads j) : r.Moves j := by
  unfold Reads at h
  split at h <;> first | exact .inl h | exact h.elim

theorem Solicits.moves (h : r.Solicits j) : r.Moves j := by
  have hn : r.Notifies j := .inr h
  unfold Solicits at h
  split at h <;> first | exact .inr hn | exact h.elim

theorem Notifies.moves (h : r.Notifies j) : r.Moves j := by
  obtain rfl | h := h
  · exact .inr (.inl rfl)
  · exact h.moves

theorem Moves.serves (h : r.Moves j) : r.Serves id j t := by
  cases r with
  | store c => cases c <;> first | exact h | simp [Moves, Reads, Notifies, Solicits] at h
  | publish | report => exact h
  | lookUp | remember | now => simp [Moves, Reads, Notifies, Solicits] at h

theorem Moves.store {c : StoreCall} (h : (Request.store c).Moves j) :
    c.jobId = j ∧ ∀ e, c ≠ .insertEvent e := by
  cases c with
  | phaseOf | assetsOf | hasEvent | industryOf =>
    simpa [Moves, Reads, Notifies, Solicits, StoreCall.jobId] using h
  | swapPhase => simpa [StoreCall.jobId] using h.1
  | insertEvent => simp [Moves, Reads, Notifies, Solicits] at h

theorem Serves.store {c : StoreCall} (h : (Request.store c).Serves id j t) :
    c.jobId = j ∧ ∀ e, c = .insertEvent e → e.eventId = id := by
  cases c with
  | phaseOf | assetsOf | hasEvent | industryOf =>
    simpa [Serves, Reads, Notifies, Solicits, StoreCall.jobId] using h
  | swapPhase => simpa [StoreCall.jobId] using h.1
  | insertEvent e =>
    refine ⟨h.2.1, fun e' he => ?_⟩
    cases he
    exact h.1

theorem Reads.writes_eq (h : r.Reads j) : r.writes = false := by
  unfold Reads at h
  split at h <;> first | rfl | exact h.elim

theorem Notifies.writes_eq (h : r.Notifies j) : r.writes = false := by
  obtain rfl | h := h
  · rfl
  · unfold Solicits at h
    split at h <;> first | rfl | exact h.elim

end Request

variable {id j t : String} {p q : Phase}

/-- If it is decided to advance from the phase `p`, then to a later one. -/
def Ahead (p : Phase) (x : Except StoreFault Step) : Prop :=
  ∀ q effect, x = .ok (.advance q effect) → p < q

theorem ahead_advance {effect : Option Effect} (h : p < q) : Ahead p (.ok (.advance q effect)) := by
  intro q' effect' he
  cases he
  exact h

theorem ahead_stay : Ahead p (.ok .stay) := fun _ _ he => nomatch he

theorem ahead_refire {effect : Effect} : Ahead p (.ok (.refire effect)) := fun _ _ he => nomatch he

theorem ahead_error {cause : StoreFault} : Ahead p (.error cause) := fun _ _ he => nomatch he

theorem seen_within (j t : String) : (seen j t).Within (·.Reads j) fun _ => True :=
  ⟨rfl, fun x => by cases x <;> trivial⟩

theorem allSeen_within (j : String) (ts : List String) :
    (allSeen j ts).Within (·.Reads j) fun _ => True := by
  induction ts with
  | nil => trivial
  | cons t ts ih =>
    refine (seen_within j t).bind fun b _ => ?_
    cases b
    · trivial
    · exact ih

theorem featureStep_within (j : String) :
    (featureStep j).Within (·.Reads j) (Ahead .featureExtraction) := by
  refine ⟨rfl, fun x => ?_⟩
  cases x with
  | error cause => exact ahead_error
  | ok assets =>
    refine (allSeen_within j assets.required).bind fun b _ => ?_
    cases b
    · exact ahead_stay
    · exact ahead_advance (by decide)

theorem evidenceStep_within (j t : String) :
    (evidenceStep j t).Within (·.Reads j) (Ahead .evidence) := by
  unfold evidenceStep
  split
  · exact ahead_advance (by decide)
  · refine (seen_within j _).bind fun b _ => ?_
    cases b
    · exact ahead_stay
    · exact ahead_advance (by decide)

theorem phaseStep_within (j t : String) (first : Bool) (p : Phase) :
    (phaseStep j t first p).Within (·.Reads j) (Ahead p) := by
  cases p with
  | collection => exact ahead_advance (by decide)
  | completed => exact ahead_stay
  | featureExtraction => exact featureStep_within j
  | matching =>
    simp only [phaseStep]
    split
    · exact ahead_advance (by decide)
    · cases first
      · exact ahead_stay
      · exact ahead_refire
  | evidence => exact evidenceStep_within j t

theorem nextStep_within (j t : String) (first : Bool) (p : Phase) :
    (nextStep j t first p).Within (·.Reads j) (Ahead p) := by
  unfold nextStep
  split
  · rename_i hg
    refine (seen_within j _).bind fun b _ => ?_
    cases b
    · exact phaseStep_within j t first p
    · exact ahead_advance (Nat.lt_trans hg.2 (by decide))
  · exact phaseStep_within j t first p

theorem sendRequest_within (j : String) : (sendRequest j).Within (·.Solicits j) fun _ => True := by
  refine ⟨rfl, fun x => ?_⟩
  cases x with
  | error cause => exact ⟨trivial, fun _ => trivial⟩
  | ok industry =>
    refine ⟨⟨industry, rfl⟩, fun y => ?_⟩
    cases y with
    | error cause => exact ⟨trivial, fun _ => trivial⟩
    | ok => trivial

/-- The handling of an event was not told to move the job back. -/
def Onward {α : Type} (x : Except HandlingFault α) : Prop := ∀ cause, x ≠ .error (.phase cause)

theorem onward_ok {α : Type} {a : α} : Onward (.ok a) := fun _ he => nomatch he

theorem onward_store {α : Type} {cause : StoreFault} : Onward (α := α) (.error (.store cause)) :=
  fun _ he => nomatch he

theorem announce_within (j : String) : (announce j).Within (·.Notifies j) Onward := by
  refine ⟨.inl rfl, fun x => ?_⟩
  cases x with
  | error cause => exact ⟨.inr trivial, fun _ cause he => nomatch he⟩
  | ok => exact onward_ok

theorem quietFiring_within (r : Report) {effect : Option Effect}
    (h : effect ≠ some .announceCompletion) :
    (r.firing effect).Within (·.Solicits r.jobId) fun y =>
      ∃ r', y = .ok r' ∧ r'.jobId = r.jobId ∧ r'.eventType = r.eventType ∧ r'.finish = r.finish := by
  obtain _ | _ | _ := effect
  · exact ⟨r, rfl, rfl, rfl, rfl⟩
  · have hfire : (Effect.requestMatching.fire r.jobId).Within (·.Solicits r.jobId) (· = .ok ()) :=
      (sendRequest_within r.jobId).bind fun _ _ => rfl
    refine hfire.bind fun y hy => ?_
    subst hy
    exact ⟨_, rfl, rfl, rfl, rfl⟩
  · exact absurd rfl h

theorem firing_within (r : Report) (effect : Option Effect) :
    (r.firing effect).Within (·.Notifies r.jobId) fun y => Onward y ∧
      (effect ≠ some .announceCompletion → ∃ r', y = .ok r') ∧
        ∀ r', y = .ok r' → r'.jobId = r.jobId ∧ r'.eventType = r.eventType ∧ r'.finish = r.finish := by
  by_cases h : effect = some .announceCompletion
  · subst h
    refine (announce_within r.jobId).bind fun y hy => ?_
    cases y with
    | error cause =>
      refine ⟨fun cause' he => hy cause' ?_, fun hn => absurd rfl hn, fun r' h => nomatch h⟩
      cases he
      rfl
    | ok =>
      refine ⟨onward_ok, fun hn => absurd rfl hn, fun r' h => ?_⟩
      cases h
      exact ⟨rfl, rfl, rfl⟩
  · refine (quietFiring_within r h).mono (fun _ hr => .inr hr) ?_
    rintro _ ⟨r', rfl, hr'⟩
    refine ⟨onward_ok, fun _ => ⟨r', rfl⟩, fun r'' he => ?_⟩
    cases he
    exact hr'

namespace Report

def arrive (n : Nat) (r : Report) (target : Phase) (effect : Option Effect) :
    Handling (Except HandlingFault Report) := do
  match ← { r with finish := target }.firing effect with
  | .error cause => return .error cause
  | .ok r => if target.isTerminal then return .ok r else chain false n r

def pursue (n : Nat) (r : Report) : Except StoreFault Step → Handling (Except HandlingFault Report)
  | .error cause => return .error (.store cause)
  | .ok .stay => return .ok r
  | .ok (.refire effect) => r.firing (some effect)
  | .ok (.advance target effect) =>
    match r.finish.ensureForward target with
    | .error cause => return .error (.phase cause)
    | .ok () => do
      match ← askStore (.swapPhase r.jobId r.finish target) with
      | .error cause => return .error (.store cause)
      | .ok false => return .ok { r with conflict := true }
      | .ok true => r.arrive n target effect

end Report

theorem chain_succ (first : Bool) (n : Nat) (r : Report) :
    chain first (n + 1) r = nextStep r.jobId r.eventType first r.finish >>= r.pursue n := rfl

def conclude (id j t : String) (phase : Phase) : Except HandlingFault Report → Handling Outcome
  | .ok report => return .applied report
  | .error cause => do
    ask (.report (.transitionFailed j id t phase cause))
    return .failed cause

theorem chain_within (first : Bool) (n : Nat) (r : Report) (hj : r.jobId = j) :
    (chain first n r).Within (·.Moves j) Onward := by
  induction n generalizing first r with
  | zero => exact onward_ok
  | succ n ih =>
    have hfire (r' : Report) (hr' : r'.jobId = j) (effect : Option Effect) :
        (r'.firing effect).Within (·.Moves j) fun y =>
          Onward y ∧ ∀ r'', y = .ok r'' → r''.jobId = j :=
      (firing_within r' effect).mono (fun _ h => (hr' ▸ h).moves)
        fun _ h => ⟨h.1, fun r'' hy => (h.2.2 r'' hy).1.trans hr'⟩
    refine ((nextStep_within r.jobId r.eventType first r.finish).mono
      (fun _ h => (hj ▸ h).moves) fun _ h => h).bind fun x hx => ?_
    obtain cause | _ | effect | ⟨target, effect⟩ := x
    · exact onward_store
    · exact onward_ok
    · exact (hfire r hj _).mono (fun _ h => h) fun _ h => h.1
    · have hlt : r.finish < target := hx target effect rfl
      simp only [Phase.ensureForward_of_lt hlt]
      refine .ask (r := Request.store _) ⟨hj, hlt⟩ fun y => ?_
      obtain cause | _ | _ := y
      · exact onward_store
      · exact onward_ok
      · refine (hfire { r with finish := target } hj effect).bind fun z hz => ?_
        cases z with
        | error cause => exact hz.1
        | ok r' =>
          simp only []
          split
          · exact onward_ok
          · exact ih false r' (hz.2 r' rfl)

def Outcome.Onward (o : Outcome) : Prop := ∀ cause, o ≠ .failed (.phase cause)

theorem advanceJob_within (id j t : String) :
    (advanceJob id j t).Within (·.Moves j) Outcome.Onward := by
  refine .ask (r := Request.store _) (.inl rfl) fun x => ?_
  obtain cause | _ | phase := x
  · exact ⟨.inr (.inr trivial), fun _ cause he => nomatch he⟩
  · exact fun cause he => nomatch he
  · refine (chain_within true longestChain ⟨j, t, phase, phase, [], false⟩ rfl).bind fun y hy => ?_
    cases y with
    | error cause =>
      refine ⟨.inr (.inr trivial), fun _ cause' he => hy cause' ?_⟩
      cases he
      rfl
    | ok => exact fun cause he => nomatch he

theorem insertNew_within (e : LedgerEntry) :
    (insertNew e).Within (·.Serves e.eventId e.jobId e.eventType) fun _ => True := by
  refine ⟨⟨rfl, rfl, rfl⟩, fun x => ?_⟩
  obtain cause | _ := x
  · cases cause <;> first | trivial | exact ⟨rfl, fun _ => trivial⟩
  · exact ⟨rfl, fun _ => trivial⟩

theorem recordEvent_within (id j t : String) :
    (recordEvent id j t).Within (·.Serves id j t) fun _ => True := by
  refine ⟨rfl, fun hit => ?_⟩
  cases hit
  · exact ⟨trivial, fun now => insertNew_within ⟨id, j, t, now⟩⟩
  · trivial

theorem handleAccepted_within (t : String) (e : CompletionEvent) :
    (handleAccepted t e).Within (·.Serves e.eventId e.jobId t) Outcome.Onward := by
  refine (recordEvent_within e.eventId e.jobId t).bind fun x _ => ?_
  obtain _ | _ | cause := x
  · exact (advanceJob_within e.eventId e.jobId t).mono (fun _ h => h.serves) fun _ h => h
  · exact fun cause he => nomatch he
  · cases cause <;> exact fun cause he => nomatch he

theorem handleEvent_cases (registry : EventRegistry) (t : String) (payload : Json) :
    (∃ cause, acceptEvent registry t payload = .error cause ∧
      handleEvent registry t payload = .done (.rejected cause)) ∨
    ∃ e, acceptEvent registry t payload = .ok e ∧
      handleEvent registry t payload = handleAccepted t e := by
  unfold handleEvent
  cases acceptEvent registry t payload with
  | error cause => exact .inl ⟨cause, rfl, rfl⟩
  | ok e => exact .inr ⟨e, rfl, rfl⟩

end PhaseKeeper
