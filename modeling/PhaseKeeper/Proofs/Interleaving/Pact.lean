import PhaseKeeper.Proofs.Store.Growth
import PhaseKeeper.Deployment
/-!
Reasoning about one handler that works beside others. A pact says what the others may do between two
of its requests and what it has to do itself; a program keeps a pact if it does so whatever replies it
gets. What a program may ask at all, whatever the replies, is simpler and comes first.
-/
namespace PhaseKeeper

namespace Program
variable {Request : Type} {Reply : Request → Type} {α β : Type}

/-- All requests of the program are in `Q`, and all its results in `R`. -/
def Within (Q : Request → Prop) (R : α → Prop) : Program Request Reply α → Prop
  | .done a => R a
  | .ask r next => Q r ∧ ∀ x, (next x).Within Q R

variable {Q Q' : Request → Prop} {R : α → Prop} {S : β → Prop} {p : Program Request Reply α}

theorem Within.bind {f : α → Program Request Reply β} (hp : p.Within Q R)
    (hf : ∀ a, R a → (f a).Within Q S) : (p >>= f).Within Q S := by
  induction p with
  | done a => exact hf a hp
  | ask r next ih => exact ⟨hp.1, fun x => ih x (hp.2 x)⟩

theorem Within.ask {r : Request} {f : Reply r → Program Request Reply α} (hr : Q r)
    (hf : ∀ x, (f x).Within Q R) : (call r >>= f).Within Q R := ⟨hr, hf⟩

theorem Within.mono {R' : α → Prop} (hp : p.Within Q R) (hq : ∀ r, Q r → Q' r)
    (hr : ∀ a, R a → R' a) : p.Within Q' R' := by
  induction p with
  | done a => exact hr a hp
  | ask r next ih => exact ⟨hq r hp.1, fun x => ih x (hp.2 x)⟩

end Program

/-- Some engine's request `r` gets the reply `x` and leaves `d'` behind. The bus may refuse whatever it
is given. -/
inductive Answered : (r : Request) → Deployment → r.Reply → Deployment → Prop
  | served (member : Nat) (r : Request) (d : Deployment) :
      Answered r d (d.answer member r).1 (d.answer member r).2
  | refused (draft : Draft) (cause : BusFault) (d : Deployment) :
      Answered (.publish draft) d (.error cause) d

namespace Deployment

theorem answer_bus {r : Request} (hr : ∀ draft, r ≠ .publish draft) (member : Nat) (d : Deployment) :
    (d.answer member r).2.bus = d.bus := by
  cases r with
  | publish draft => exact absurd rfl (hr draft)
  | lookUp id =>
    simp only [answer, lookUp]
    split <;> rfl
  | store | remember | now | report => rfl

theorem answer_published (member : Nat) (r : Request) (d : Deployment) :
    (d.answer member r).2.bus = d.bus ∨ ∃ draft, r = .publish draft ∧
      (d.answer member r).2.bus.published = d.bus.published ++ [draft.stamp .nil d.clock] := by
  cases r with
  | publish draft =>
    simp only [answer, send, RecordingBus.send]
    split
    · exact .inl rfl
    · exact .inr ⟨draft, rfl, rfl⟩
  | store | lookUp | remember | now | report => exact .inl (answer_bus (by simp) member d)

end Deployment

def Request.writes : Request → Bool
  | .store (.swapPhase ..) | .store (.insertEvent _) => true
  | _ => false

namespace MemoryStore

/-- Nothing fails, and nobody writes phases from outside. -/
structure Calm (s : MemoryStore) : Prop where
  faults : s.faults = []
  pending : s.pending = []

end MemoryStore

namespace Answered
variable {d d' : Deployment} {j t : String} {p q : Phase}

theorem swap {x} (h : Answered (.store (.swapPhase j p q)) d x d') (hp : d.store.pending = []) :
    MemoryStore.Swapped d.store j p q x d'.store := by
  cases h
  exact MemoryStore.swapped_answer hp j p q d.clock

theorem insert {e : LedgerEntry} {x} (h : Answered (.store (.insertEvent e)) d x d') :
    MemoryStore.Inserted d.store e x d'.store := by
  cases h
  exact MemoryStore.inserted_answer d.store e d.clock

theorem moved {x} (h : Answered (.store (.swapPhase j p q)) d x d') (hp : d.store.pending = [])
    (hx : x = .ok true) : d.store.Moved j p q d'.store := by
  have hs := h.swap hp
  generalize d'.store = s at hs
  cases hs with
  | done hm => exact hm
  | lost | failed => cases hx

theorem unmoved {x} (h : Answered (.store (.swapPhase j p q)) d x d') (hp : d.store.pending = [])
    (hx : x ≠ .ok true) :
    d'.store = d.store ∧ (d.store.faults ≠ [] ∨ d.store.phase? j ≠ some p) := by
  have hs := h.swap hp
  generalize d'.store = s at hs
  cases hs with
  | done => exact absurd rfl hx
  | lost hl => exact ⟨rfl, .inr hl⟩
  | failed cause hf => exact ⟨rfl, .inl hf⟩

theorem recorded {e : LedgerEntry} {x} (h : Answered (.store (.insertEvent e)) d x d')
    (hx : x = .ok ()) : d.store.Recorded e d'.store := by
  have hi := h.insert
  generalize d'.store = s at hi
  cases hi with
  | done hr => exact hr
  | known | homeless | failed => cases hx

theorem unrecorded {e : LedgerEntry} {x} (h : Answered (.store (.insertEvent e)) d x d')
    (hx : x ≠ .ok ()) : d'.store = d.store := by
  have hi := h.insert
  generalize d'.store = s at hi
  cases hi with
  | done => exact absurd rfl hx
  | known | homeless | failed => rfl

theorem recorded_of_known {e : LedgerEntry} {x} (h : Answered (.store (.insertEvent e)) d x d')
    {id : String} (hx : x = .error (.alreadyRecorded id)) : d'.store.recorded e.eventId = true := by
  have hi := h.insert
  generalize d'.store = s at hi
  cases hi with
  | known hk => exact hk
  | done | homeless | failed => cases hx

theorem phaseOf {x} (h : Answered (.store (.phaseOf j)) d x d') :
    x = .ok (d.store.phase? j) ∨ d.store.faults ≠ [] ∧ ∃ cause, x = .error cause := by
  cases h
  exact (MemoryStore.answer_phaseOf d.store j d.clock).2

theorem hasEvent {x} (h : Answered (.store (.hasEvent j t)) d x d') :
    x = .ok (d.store.hasEvent j t) ∨ d.store.faults ≠ [] ∧ ∃ cause, x = .error cause := by
  cases h
  exact (MemoryStore.answer_hasEvent d.store j t d.clock).2

theorem assetsOf {x} (h : Answered (.store (.assetsOf j)) d x d') :
    (∃ job, d.store.job? j = some job ∧ x = .ok job.assets) ∨
      (d.store.faults ≠ [] ∨ d.store.job? j = none) ∧ ∃ cause, x = .error cause := by
  cases h
  exact (MemoryStore.answer_assetsOf d.store j d.clock).2

theorem store_eq {r : Request} {x} (h : Answered r d x d') (hw : r.writes = false) :
    d'.store = d.store := by
  cases h with
  | refused => rfl
  | served member =>
    cases r with
    | lookUp id =>
      simp only [Deployment.answer, Deployment.lookUp]
      split <;> rfl
    | store c =>
      cases c with
      | phaseOf j => exact (MemoryStore.answer_phaseOf d.store j d.clock).1
      | hasEvent j t => exact (MemoryStore.answer_hasEvent d.store j t d.clock).1
      | assetsOf j => exact (MemoryStore.answer_assetsOf d.store j d.clock).1
      | industryOf j => exact MemoryStore.answer_industryOf d.store j d.clock
      | swapPhase | insertEvent => cases hw
    | remember | now | publish | report => rfl

theorem store_cases {r : Request} {x} (h : Answered r d x d') (hp : d.store.pending = []) :
    d'.store = d.store ∨
      (∃ j p q, r = .store (.swapPhase j p q) ∧ d.store.Moved j p q d'.store) ∨
      ∃ e, r = .store (.insertEvent e) ∧ d.store.Recorded e d'.store := by
  by_cases hw : r.writes = false
  · exact .inl (h.store_eq hw)
  · cases r with
    | store c =>
      cases c with
      | swapPhase j p q =>
        generalize hs : d'.store = s
        have hx := hs ▸ h.swap hp
        cases hx with
        | done hm => exact .inr (.inl ⟨j, p, q, rfl, hm⟩)
        | lost | failed => exact .inl rfl
      | insertEvent e =>
        generalize hs : d'.store = s
        have hx := hs ▸ h.insert
        cases hx with
        | done hr => exact .inr (.inr ⟨e, rfl, hr⟩)
        | known | homeless | failed => exact .inl rfl
      | phaseOf | hasEvent | assetsOf | industryOf => exact absurd rfl hw
    | lookUp | remember | now | publish | report => exact absurd rfl hw

theorem pending {r : Request} {x} (h : Answered r d x d') (hp : d.store.pending = []) :
    d'.store.pending = [] := by
  obtain he | ⟨_, _, _, -, hm⟩ | ⟨_, -, hr⟩ := h.store_cases hp
  · rw [he, hp]
  · rw [hm.pending, hp]
  · rw [hr.eq]
    exact hp

theorem calm {r : Request} {x} (h : Answered r d x d') (hc : d.store.Calm) : d'.store.Calm := by
  refine ⟨?_, h.pending hc.pending⟩
  obtain he | ⟨_, _, _, -, hm⟩ | ⟨_, -, hr⟩ := h.store_cases hc.pending
  · rw [he, hc.faults]
  · rw [hm.faults, hc.faults]
  · rw [hr.eq]
    exact hc.faults

end Answered

theorem Deployment.later_refl (d : Deployment) : d.store.Later d.store := .refl d.store

theorem Deployment.later_trans {a b c : Deployment} (h : a.store.Later b.store)
    (k : b.store.Later c.store) : a.store.Later c.store := h.trans k

/-- The terms on which a handler works beside others. It can take notes, in which later terms are put. -/
structure Pact (Note : Type) where
  /-- The deployments that the handler can find at all. -/
  valid : Deployment → Prop
  /-- What may have happened since it last looked. -/
  rely : Deployment → Deployment → Prop
  /-- What a request of its own has to come to. -/
  duty : Note → (r : Request) → Deployment → r.Reply → Deployment → Prop
  note : Note → (r : Request) → Deployment → r.Reply → Deployment → Note
  refl : ∀ d, rely d d
  trans : ∀ {a b c}, rely a b → rely b c → rely a c

namespace Pact
variable {Note α β : Type} (P : Pact Note)

/-- From `d` on, with the notes `n`, the program does its duty and ends with `post`. -/
def Keeps (post : α → Note → Deployment → Prop) : Handling α → Note → Deployment → Prop
  | .done a, n, d => ∀ d', P.valid d' → P.rely d d' → post a n d'
  | .ask r next, n, d => ∀ d', P.valid d' → P.rely d d' → ∀ x d'', Answered r d' x d'' →
      P.duty n r d' x d'' ∧ Keeps post (next x) (P.note n r d' x d'') d''

variable {P} {post post' : α → Note → Deployment → Prop} {p : Handling α} {n : Note}
  {d d' : Deployment}

theorem Keeps.later (h : P.Keeps post p n d) (hl : P.rely d d') : P.Keeps post p n d' := by
  cases p with
  | done a => exact fun e hv he => h e hv (P.trans hl he)
  | ask r next => exact fun e hv he => h e hv (P.trans hl he)

theorem Keeps.of_later (h : ∀ d', P.valid d' → P.rely d d' → P.Keeps post p n d') :
    P.Keeps post p n d := by
  cases p with
  | done a => exact fun e hv he => h e hv he e hv (P.refl e)
  | ask r next => exact fun e hv he => h e hv he e hv (P.refl e)

theorem Keeps.mono (h : P.Keeps post p n d)
    (hp : ∀ a n d', P.valid d' → post a n d' → post' a n d') : P.Keeps post' p n d := by
  induction p generalizing n d with
  | done a => exact fun e hv he => hp a n e hv (h e hv he)
  | ask r next ih =>
    intro e hv he x e' hx
    exact ⟨(h e hv he x e' hx).1, ih x (h e hv he x e' hx).2⟩

theorem Keeps.within {Q : Request → Prop} {R : α → Prop} (h : P.Keeps post p n d)
    (hw : p.Within Q R) : P.Keeps (fun a n d => R a ∧ post a n d) p n d := by
  induction p generalizing n d with
  | done a => exact fun e hv he => ⟨hw, h e hv he⟩
  | ask r next ih =>
    intro e hv he x e' hx
    exact ⟨(h e hv he x e' hx).1, ih x (h e hv he x e' hx).2 (hw.2 x)⟩

theorem Keeps.bind {f : α → Handling β} {post : β → Note → Deployment → Prop}
    (h : P.Keeps (fun a n d => P.Keeps post (f a) n d) p n d) : P.Keeps post (p >>= f) n d := by
  induction p generalizing n d with
  | done a => exact .of_later h
  | ask r next ih =>
    intro e hv he x e' hx
    exact ⟨(h e hv he x e' hx).1, ih x (h e hv he x e' hx).2⟩

theorem Keeps.ask {r : Request} {f : r.Reply → Handling α}
    (h : ∀ d', P.valid d' → P.rely d d' → ∀ x d'', Answered r d' x d'' →
      P.duty n r d' x d'' ∧ P.Keeps post (f x) (P.note n r d' x d'') d'') :
    P.Keeps post (PhaseKeeper.ask r >>= f) n d := h

/-- A request that the pact does not care for. -/
structure Quiet (P : Pact Note) (r : Request) : Prop where
  duty : ∀ {n d x d'}, P.valid d → Answered r d x d' → P.duty n r d x d'
  note : ∀ {n d x d'}, P.valid d → Answered r d x d' → P.note n r d x d' = n
  rely : ∀ {d x d'}, P.valid d → Answered r d x d' → P.rely d d'

/-- What a pact on simpler terms comes to in this one, if the requests are quiet here. -/
theorem Keeps.transfer {P₀ : Pact Unit} {post : α → Unit → Deployment → Prop} {Q : Request → Prop}
    {R : α → Prop} (h : P₀.Keeps post p () d) (hw : p.Within Q R) (hq : ∀ r, Q r → P.Quiet r)
    (hr : ∀ {d d'}, P.rely d d' → P₀.rely d d') (hv : ∀ {d}, P.valid d → P₀.valid d) :
    P.Keeps (fun a n' d' => post a () d' ∧ n' = n ∧ P.rely d d') p n d := by
  suffices ∀ e, P.rely d e → P₀.Keeps post p () e →
      P.Keeps (fun a n' d' => post a () d' ∧ n' = n ∧ P.rely d d') p n e from this d (P.refl d) h
  clear h
  induction p with
  | done a => exact fun e he h e' hv' he' => ⟨h e' (hv hv') (hr he'), rfl, P.trans he he'⟩
  | ask r next ih =>
    intro e he h e₁ hv₁ he₁ x e₂ hx
    have hr' := hq r hw.1
    refine ⟨hr'.duty hv₁ hx, ?_⟩
    rw [hr'.note hv₁ hx]
    exact ih x (hw.2 x) e₂ (P.trans (P.trans he he₁) (hr'.rely hv₁ hx))
      (h e₁ (hv hv₁) (hr he₁) x e₂ hx).2

theorem Keeps.of_within {Q : Request → Prop} {R : α → Prop} (h : p.Within Q R)
    (hq : ∀ r, Q r → P.Quiet r) : P.Keeps (fun a n' d' => R a ∧ n' = n ∧ P.rely d d') p n d := by
  suffices ∀ e, P.rely d e → P.Keeps (fun a n' d' => R a ∧ n' = n ∧ P.rely d d') p n e from
    this d (P.refl d)
  induction p with
  | done a => exact fun e he e' _ he' => ⟨h, rfl, P.trans he he'⟩
  | ask r next ih =>
    intro e he e₁ hv he₁ x e₂ hx
    have hr := hq r h.1
    refine ⟨hr.duty hv hx, ?_⟩
    rw [hr.note hv hx]
    exact ih x (h.2 x) e₂ (P.trans (P.trans he he₁) (hr.rely hv hx))

end Pact
end PhaseKeeper
