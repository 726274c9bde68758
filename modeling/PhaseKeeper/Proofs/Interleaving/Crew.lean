import PhaseKeeper.Proofs.Handling.Footprint
/-!
Many handlings at work on one deployment, one request at a time and in any order. Meanwhile jobs are
created, each only once, and the store begins and ceases to fail. A log keeps who asked what, and the
deployment before and after.
-/
namespace PhaseKeeper

inductive Delivery where
  | event (eventType : String) (payload : Json)
  | message (m : Message)

structure Call where
  member : Nat
  registry : EventRegistry
  delivery : Delivery

/-- An event that was accepted. -/
structure Errand where
  eventType : String
  event : CompletionEvent

namespace Errand

def handling (e : Errand) : Handling Outcome := handleAccepted e.eventType e.event

def Serves (e : Errand) (r : Request) : Prop := r.Serves e.event.eventId e.event.jobId e.eventType

theorem handling_within (e : Errand) : e.handling.Within e.Serves Outcome.Onward :=
  handleAccepted_within e.eventType e.event

/-- What comes after the attempt to record the event. -/
def resume (e : Errand) : Recording → Handling Outcome
  | .recorded => advanceJob e.event.eventId e.event.jobId e.eventType
  | .alreadyProcessed => return .duplicate
  | .failed (.jobNotFound _) => return .unknownJob
  | .failed cause => return .storageFailed cause

theorem handling_eq (e : Errand) : e.handling =
    recordEvent e.event.eventId e.event.jobId e.eventType >>= e.resume := by
  unfold handling handleAccepted
  congr 1

theorem resume_within (e : Errand) (x : Recording) :
    (e.resume x).Within (·.Moves e.event.jobId) fun _ => True := by
  obtain _ | _ | cause := x
  · exact (advanceJob_within _ _ _).mono (fun _ h => h) fun _ _ => trivial
  · trivial
  · cases cause <;> trivial

end Errand

namespace Call

def ofEvent (member : Nat) (eventType : String) (e : CompletionEvent) : Call :=
  ⟨member, .standard, .event eventType e.toJson⟩

def handling (c : Call) : Handling Outcome :=
  match c.delivery with
  | .event t payload => handleEvent c.registry t payload
  | .message m => handleMessage c.registry m

def errand? (c : Call) : Option Errand :=
  match c.delivery with
  | .event t payload => (acceptEvent c.registry t payload).toOption.map (.mk t)
  | .message m => m.decodeValue.toOption.bind fun payload =>
      (acceptEvent c.registry m.topic payload).toOption.map (.mk m.topic)

theorem handling_cases (c : Call) :
    (c.errand? = none ∧ ∃ cause, c.handling = .done (.rejected cause)) ∨
      ∃ e, c.errand? = some e ∧ c.handling = e.handling := by
  have hevent (t : String) (payload : Json) :
      ((acceptEvent c.registry t payload).toOption.map (Errand.mk t) = none ∧
        ∃ cause, handleEvent c.registry t payload = .done (.rejected cause)) ∨
      ∃ e, (acceptEvent c.registry t payload).toOption.map (Errand.mk t) = some e ∧
        handleEvent c.registry t payload = e.handling := by
    obtain ⟨cause, ha, hh⟩ | ⟨e, ha, hh⟩ := handleEvent_cases c.registry t payload
    · exact .inl ⟨by rw [ha]; rfl, _, hh⟩
    · exact .inr ⟨⟨t, e⟩, by rw [ha]; rfl, hh⟩
  unfold errand? handling
  cases c.delivery with
  | event t payload => exact hevent t payload
  | message m =>
    simp only [handleMessage]
    cases m.decodeValue with
    | error cause => exact .inl ⟨rfl, _, rfl⟩
    | ok payload => exact hevent m.topic payload

theorem handling_of_errand {c : Call} {e : Errand} (he : c.errand? = some e) :
    c.handling = e.handling := by
  obtain ⟨hnone, -⟩ | ⟨e', he', hh⟩ := c.handling_cases
  · rw [he] at hnone
    cases hnone
  · rw [hh, Option.some.inj (he.symm.trans he')]

end Call

/-- A call that is being handled, with what is left of the handling. -/
structure Handler where
  call : Call
  rest : Handling Outcome

def Handler.finished (h : Handler) : Bool :=
  match h.rest with
  | .done _ => true
  | .ask .. => false

theorem Handler.rest_of_finished {h : Handler} (hf : h.finished = true) : ∃ o, h.rest = .done o := by
  unfold finished at hf
  split at hf
  · exact ⟨_, ‹_›⟩
  · cases hf

structure Deed where
  handler : Nat
  request : Request
  reply : request.Reply
  before : Deployment
  after : Deployment

structure Crew where
  deployment : Deployment
  handlers : List Handler
  log : List Deed

inductive Move where
  | create (job : Job)
  | fail (op : StoreOp) (jobId : Option String)
  | recover
  | deliver (call : Call)
  /-- A handler makes its next request. If it publishes, the bus may refuse. -/
  | act (handler : Nat) (refusal : Option BusFault)

def Move.opening (eventTypes : List String) : List Move :=
  .create ⟨"job", "retail", .collection, ⟨false, false⟩, .epoch⟩ ::
    eventTypes.mapIdx fun i t => .deliver (.ofEvent i t ⟨t, "job", none⟩)

namespace Deployment

def onStore (f : MemoryStore → MemoryStore) (d : Deployment) : Deployment :=
  { d with store := f d.store }

/-- A job is not created again. -/
def create (job : Job) (d : Deployment) : Deployment :=
  if (d.store.job? job.id).isSome then d else d.onStore (·.insertJob job)

def serve (member : Nat) (refusal : Option BusFault) :
    (r : Request) → Deployment → r.Reply × Deployment
  | .publish draft, d =>
    match refusal with
    | some cause => (.error cause, d)
    | none => d.send draft
  | r, d => d.answer member r

theorem serve_answered (member : Nat) (refusal : Option BusFault) (r : Request) (d : Deployment) :
    Answered r d (d.serve member refusal r).1 (d.serve member refusal r).2 := by
  cases r with
  | publish draft =>
    cases refusal with
    | some cause => exact .refused draft cause d
    | none => exact .served member (.publish draft) d
  | _ => exact .served member _ d

end Deployment

def Move.call? : Move → Option Call
  | .deliver call => some call
  | _ => none

def Move.disturb : Move → Deployment → Deployment
  | .create job, d => d.create job
  | .fail op jobId, d => d.onStore (·.fail op jobId)
  | .recover, d => d.onStore (·.recover)
  | .deliver _, d | .act _ _, d => d

/-- Someone is called or makes a request, and the bus refuses only what it always refuses. -/
def Move.orderly : Move → Bool
  | .deliver _ | .act _ none => true
  | _ => false

theorem Move.disturb_of_orderly {m : Move} (hm : m.orderly = true) (d : Deployment) :
    m.disturb d = d := by
  cases m with
  | create | fail | recover => cases hm
  | deliver | act => rfl

namespace Crew

def fresh (d : Deployment) : Crew := ⟨d, [], []⟩

def act (c : Crew) (i : Nat) (refusal : Option BusFault) : Crew :=
  match c.handlers[i]? with
  | none => c
  | some h =>
    match h.rest with
    | .done _ => c
    | .ask r next =>
      let (x, d) := c.deployment.serve h.call.member refusal r
      ⟨d, c.handlers.set i { h with rest := next x }, c.log ++ [⟨i, r, x, c.deployment, d⟩]⟩

def step (c : Crew) : Move → Crew
  | .act i refusal => c.act i refusal
  | .deliver call => { c with handlers := c.handlers ++ [⟨call, call.handling⟩] }
  | m => { c with deployment := m.disturb c.deployment }

def run (c : Crew) (moves : List Move) : Crew := moves.foldl step c

/-- All calls come at once; then the handlers act in the given order, and nobody disturbs them. -/
def worked (d : Deployment) (calls : List Call) (order : List Nat) : Crew :=
  (fresh d).run (calls.map .deliver ++ order.map fun i => .act i none)

def idle (c : Crew) : Bool := c.handlers.all Handler.finished

def deedsOf (c : Crew) (i : Nat) : List Deed := c.log.filter (·.handler = i)

def errand? (c : Crew) (i : Nat) : Option Errand := c.handlers[i]?.bind (·.call.errand?)

/-- All that a move can come to. -/
inductive Stepped (c : Crew) (m : Move) : Crew → Prop
  | disturbed : Stepped c m { c with deployment := m.disturb c.deployment }
  | delivered (call : Call) (hm : m = .deliver call) :
      Stepped c m { c with handlers := c.handlers ++ [⟨call, call.handling⟩] }
  | acted {i : Nat} {h : Handler} {r : Request} {next : r.Reply → Handling Outcome} {x : r.Reply}
      {d : Deployment} (hi : c.handlers[i]? = some h) (hr : h.rest = .ask r next)
      (hx : Answered r c.deployment x d) :
      Stepped c m
        ⟨d, c.handlers.set i { h with rest := next x }, c.log ++ [⟨i, r, x, c.deployment, d⟩]⟩

theorem step_cases (c : Crew) (m : Move) : c.Stepped m (c.step m) := by
  cases m with
  | create | fail | recover => exact .disturbed
  | deliver call => exact .delivered call rfl
  | act i refusal =>
    change c.Stepped _ (c.act i refusal)
    unfold act
    split
    · exact .disturbed
    · rename_i h hi
      split
      · exact .disturbed
      · rename_i r next hr
        exact .acted hi hr (Deployment.serve_answered _ _ _ _)

theorem calls_run (c : Crew) (moves : List Move) :
    (c.run moves).handlers.map Handler.call =
      c.handlers.map Handler.call ++ moves.filterMap Move.call? := by
  induction moves generalizing c with
  | nil => simp [run]
  | cons m ms ih =>
    have hstep : (c.step m).handlers.map Handler.call =
        c.handlers.map Handler.call ++ m.call?.toList := by
      cases m with
      | create | fail | recover => simp [step, Move.call?]
      | deliver call => simp [step, Move.call?]
      | act i refusal =>
        change (c.act i refusal).handlers.map Handler.call = _
        unfold act
        split
        · simp [Move.call?]
        · rename_i h hi
          split
          · simp [Move.call?]
          · obtain ⟨hlt, hget⟩ := List.getElem?_eq_some_iff.1 hi
            have hlt' : i < (c.handlers.map Handler.call).length := by simpa using hlt
            have hself : h.call = (c.handlers.map Handler.call)[i] := by simp [hget]
            simp only [List.map_set, Move.call?, Option.toList_none, List.append_nil]
            rw [hself, List.set_getElem_self]
    change ((c.step m).run ms).handlers.map Handler.call = _
    rw [ih, hstep]
    cases hm : m.call? <;> simp [hm]

end Crew
end PhaseKeeper
