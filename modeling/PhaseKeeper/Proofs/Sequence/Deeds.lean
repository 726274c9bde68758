import PhaseKeeper.Proofs.Handling.Trail
import PhaseKeeper.Proofs.Sequence.Journey
/-!
What a handling did: all its requests with their replies, in the order in which it made them, and what
each of them comes to. A request for matching begins with a look-up, and is tried once if that succeeds.
-/
namespace PhaseKeeper

namespace Deed

def read? : Deed → Option Phase
  | ⟨_, .store (.phaseOf _), .ok p, _, _⟩ => p
  | _ => none

def write? : Deed → Option (Phase × Phase)
  | ⟨_, .store (.swapPhase _ p q), .ok true, _, _⟩ => some (p, q)
  | _ => none

def lost : Deed → Bool
  | ⟨_, .store (.swapPhase ..), .ok false, _, _⟩ => true
  | _ => false

/-- What was fired. A request for matching begins with the industry of the job, and counts whatever becomes
of it; an announcement counts if the bus has taken it. -/
def effect? : Deed → Option Effect
  | ⟨_, .store (.industryOf _), _, _, _⟩ => some .requestMatching
  | ⟨_, .publish draft, .ok (), _, _⟩ =>
    if draft.topic = Topic.jobCompleted then some .announceCompletion else none
  | _ => none

/-- The request for matching that is to follow a look-up of the industry. -/
def due? : Deed → Option Draft
  | ⟨_, .store (.industryOf j), .ok industry, _, _⟩ => some (MatchRequest.ofJob j industry).draft
  | _ => none

def tried? : Deed → Option Draft
  | ⟨_, .publish draft, _, _, _⟩ => if draft.topic = Topic.matchRequest then some draft else none
  | _ => none

structure Silent (y : Deed) : Prop where
  read : y.read? = none
  write : y.write? = none
  lost : y.lost = false
  effect : y.effect? = none

end Deed

def Request.Silent (r : Request) : Prop :=
  ∀ (i : Nat) (x : r.Reply) (d d' : Deployment), Deed.Silent ⟨i, r, x, d, d'⟩

namespace Request
variable {r : Request}

theorem Uneventful.silent (h : r.Uneventful) : r.Silent := by
  intro i x d d'
  cases r with
  | store c =>
    cases c with
    | phaseOf j => exact absurd (h (.ok none)) (by simp [Footmark.of])
    | swapPhase j p q => exact absurd (h (.ok true)) (by simp [Footmark.of])
    | industryOf j => exact absurd (h (.ok "")) (by simp [Footmark.of])
    | assetsOf | hasEvent | insertEvent => exact ⟨rfl, rfl, rfl, rfl⟩
  | publish draft => exact absurd (h (.ok ())) (by simp [Footmark.of])
  | lookUp | remember | now | report => exact ⟨rfl, rfl, rfl, rfl⟩

theorem Uneventful.writes_eq (h : r.Uneventful) : r.writes = false := by
  cases r with
  | store c =>
    cases c with
    | swapPhase j p q => exact absurd (h (.ok true)) (by simp [Footmark.of])
    | insertEvent e => exact absurd (h (.ok ())) (by simp [Footmark.of])
    | phaseOf | assetsOf | hasEvent | industryOf => rfl
  | publish | lookUp | remember | now | report => rfl

theorem silent_report (i : Incident) : (report i).Silent := fun _ _ _ _ => ⟨rfl, rfl, rfl, rfl⟩

theorem silent_request (j industry : String) :
    (publish (MatchRequest.ofJob j industry).draft).Silent := by
  intro i x d d'
  refine ⟨rfl, rfl, rfl, ?_⟩
  have htopic : (MatchRequest.ofJob j industry).draft.topic ≠ Topic.jobCompleted := by
    change Topic.matchRequest ≠ Topic.jobCompleted
    decide
  obtain cause | _ := x
  · rfl
  · simp [Deed.effect?, htopic]

end Request

namespace Deployment
variable {α β : Type} {member : Nat} {d : Deployment} {j : String}

def deeds (member : Nat) : Handling α → Deployment → List Deed
  | .done _, _ => []
  | .ask r next, d =>
    ⟨member, r, (d.answer member r).1, d, (d.answer member r).2⟩ ::
      deeds member (next (d.answer member r).1) (d.answer member r).2

theorem deeds_bind (member : Nat) (p : Handling α) (f : α → Handling β) (d : Deployment) :
    d.deeds member (p >>= f) = d.deeds member p ++
      (d.perform member p).2.deeds member (f (d.perform member p).1) := by
  induction p generalizing d with
  | done => rfl
  | ask r next ih => exact congrArg (_ :: ·) (ih _ _)

theorem deeds_ask (member : Nat) (r : Request) (f : r.Reply → Handling α) (d : Deployment) :
    d.deeds member (ask r >>= f) =
      ⟨member, r, (d.answer member r).1, d, (d.answer member r).2⟩ ::
        (d.answer member r).2.deeds member (f (d.answer member r).1) := rfl

theorem silent_deeds {p : Handling α} {R : α → Prop} (h : p.Within Request.Silent R) (member : Nat)
    (d : Deployment) : ∀ y ∈ d.deeds member p, y.Silent := by
  induction p generalizing d with
  | done => exact fun y hy => nomatch hy
  | ask r next ih =>
    intro y hy
    obtain rfl | hy := List.mem_cons.1 hy
    · exact h.1 member _ _ _
    · exact ih _ (h.2 _) _ y hy

end Deployment

theorem reads_silent {deeds : List Deed} (h : ∀ y ∈ deeds, y.Silent) :
    deeds.filterMap Deed.read? = [] := List.filterMap_eq_nil_iff.2 fun y hy => (h y hy).read

theorem writes_silent {deeds : List Deed} (h : ∀ y ∈ deeds, y.Silent) :
    deeds.filterMap Deed.write? = [] := List.filterMap_eq_nil_iff.2 fun y hy => (h y hy).write

theorem effects_silent {deeds : List Deed} (h : ∀ y ∈ deeds, y.Silent) :
    deeds.filterMap Deed.effect? = [] := List.filterMap_eq_nil_iff.2 fun y hy => (h y hy).effect

/-- A look-up of the industry that succeeds is followed at once by one attempt to publish the request with
this industry, and nothing else is an attempt. -/
inductive Requested : List Deed → Prop
  | nil : Requested []
  | other {y : Deed} {deeds : List Deed} (hd : y.due? = none) (ht : y.tried? = none)
      (h : Requested deeds) : Requested (y :: deeds)
  | attempt {y z : Deed} {deeds : List Deed} {draft : Draft} (hd : y.due? = some draft)
      (ht : z.tried? = some draft) (h : Requested deeds) : Requested (y :: z :: deeds)

theorem Requested.append {deeds more : List Deed} (h : Requested deeds) (hm : Requested more) :
    Requested (deeds ++ more) := by
  induction h with
  | nil => exact hm
  | other hd ht _ ih => exact .other hd ht ih
  | attempt hd ht _ ih => exact .attempt hd ht ih

def Request.Plain (r : Request) : Prop :=
  ∀ (i : Nat) (x : r.Reply) (d d' : Deployment),
    Deed.due? ⟨i, r, x, d, d'⟩ = none ∧ Deed.tried? ⟨i, r, x, d, d'⟩ = none

theorem Request.Uneventful.plain {r : Request} (h : r.Uneventful) : r.Plain := by
  intro i x d d'
  cases r with
  | store c =>
    cases c with
    | industryOf j => exact absurd (h (.ok "")) (by simp [Footmark.of])
    | phaseOf | swapPhase | assetsOf | hasEvent | insertEvent => exact ⟨rfl, rfl⟩
  | publish draft => exact absurd (h (.ok ())) (by simp [Footmark.of])
  | lookUp | remember | now | report => exact ⟨rfl, rfl⟩

theorem Request.plain_report (i : Incident) : (report i).Plain := fun _ _ _ _ => ⟨rfl, rfl⟩

theorem recordEvent_asks {Q : Request → Prop} {id j t : String} (hlook : Q (.lookUp id))
    (hnow : Q .now) (hinsert : ∀ now, Q (.store (.insertEvent ⟨id, j, t, now⟩)))
    (hremember : Q (.remember id)) : (recordEvent id j t).Within Q fun _ => True := by
  refine ⟨hlook, fun hit => ?_⟩
  cases hit
  · refine ⟨hnow, fun now => ⟨hinsert now, fun x => ?_⟩⟩
    obtain cause | _ := x
    · cases cause <;> first | trivial | exact ⟨hremember, fun _ => trivial⟩
    · exact ⟨hremember, fun _ => trivial⟩
  · trivial

/-- Whoever carries it out, and wherever, attempts follow look-ups. -/
def Paired {α : Type} (p : Handling α) : Prop :=
  ∀ (member : Nat) (d : Deployment), Requested (d.deeds member p)

namespace Paired
variable {α β : Type}

theorem done (a : α) : Paired (.done a) := fun _ _ => .nil

theorem bind {p : Handling α} {f : α → Handling β} (hp : Paired p) (hf : ∀ a, Paired (f a)) :
    Paired (p >>= f) := by
  intro member d
  rw [Deployment.deeds_bind]
  exact (hp member d).append (hf _ member _)

theorem ask {r : Request} {f : r.Reply → Handling α} (hr : r.Plain) (hf : ∀ x, Paired (f x)) :
    Paired (ask r >>= f) := fun member _ => .other (hr ..).1 (hr ..).2 (hf _ member _)

theorem of_within {p : Handling α} {R : α → Prop} (h : p.Within Request.Plain R) : Paired p := by
  induction p with
  | done a => exact done a
  | ask r next ih => exact ask h.1 fun x => ih x (h.2 x)

theorem sendRequest (j : String) : Paired (sendRequest j) := by
  intro member d
  unfold PhaseKeeper.sendRequest askStore
  rw [Deployment.deeds_ask]
  generalize d.answer member (.store (.industryOf j)) = y
  obtain ⟨cause | industry, d'⟩ := y
  · exact .other rfl rfl (ask (Request.plain_report _) done member d')
  · have htopic : (MatchRequest.ofJob j industry).draft.topic = Topic.matchRequest := rfl
    refine .attempt rfl (by simp [Deed.tried?, htopic]) ?_
    generalize d'.answer member (.publish (MatchRequest.ofJob j industry).draft) = z
    obtain ⟨cause | _, d''⟩ := z
    · exact ask (Request.plain_report _) done member d''
    · exact .nil

theorem announce (j : String) : Paired (announce j) := by
  have htopic : (JobCompleted.mk j).draft.topic ≠ Topic.matchRequest := by
    change Topic.jobCompleted ≠ Topic.matchRequest
    decide
  refine ask (fun _ _ _ _ => ⟨rfl, by simp [Deed.tried?, htopic]⟩) fun x => ?_
  cases x with
  | error cause => exact ask (Request.plain_report _) fun _ => done _
  | ok => exact done _

theorem firing (r : Report) (effect : Option Effect) : Paired (r.firing effect) := by
  cases effect with
  | none => exact done _
  | some effect =>
    refine bind (p := effect.fire r.jobId) ?_ fun x => ?_
    · cases effect with
      | requestMatching => exact bind (sendRequest r.jobId) fun _ => done _
      | announceCompletion => exact announce r.jobId
    · cases x <;> exact done _

theorem chain (first : Bool) (n : Nat) (r : Report) : Paired (chain first n r) := by
  -- Nothing that decides a step has to do with a request, and firing one comes after the swap.
  induction n generalizing first r with
  | zero => exact done _
  | succ n ih =>
    have hdecides := nextStep_sensible r.jobId r.eventType first r.finish
    refine bind (of_within (hdecides.mono (fun _ h => h.plain) fun _ h => h)) fun decision => ?_
    obtain cause | _ | effect | ⟨target, effect⟩ := decision
    · exact done _
    · exact done _
    · exact firing r (some effect)
    · dsimp only
      cases r.finish.ensureForward target with
      | error cause => exact done _
      | ok =>
        refine ask (fun _ _ _ _ => ⟨rfl, rfl⟩) fun x => ?_
        obtain cause | _ | _ := x
        · exact done _
        · exact done _
        · refine bind (firing _ effect) fun y => ?_
          obtain cause | r' := y
          · exact done _
          · dsimp only
            split
            · exact done _
            · exact ih false r'

theorem advanceJob (id j t : String) : Paired (advanceJob id j t) := by
  refine ask (fun _ _ _ _ => ⟨rfl, rfl⟩) fun x => ?_
  obtain cause | _ | phase := x
  · exact ask (Request.plain_report _) fun _ => done _
  · exact done _
  · refine bind (chain true longestChain _) fun y => ?_
    cases y with
    | ok report => exact done _
    | error cause => exact ask (Request.plain_report _) fun _ => done _

theorem errand (e : Errand) : Paired e.handling := by
  have hrecord : (recordEvent e.event.eventId e.event.jobId e.eventType).Within Request.Plain
      fun _ => True :=
    recordEvent_asks (fun _ _ _ _ => ⟨rfl, rfl⟩) (fun _ _ _ _ => ⟨rfl, rfl⟩)
      (fun _ _ _ _ _ => ⟨rfl, rfl⟩) fun _ _ _ _ => ⟨rfl, rfl⟩
  refine bind (of_within hrecord) fun x => ?_
  obtain _ | _ | cause := x
  · exact advanceJob e.event.eventId e.event.jobId e.eventType
  · exact done _
  · cases cause <;> exact done _

end Paired

end PhaseKeeper
