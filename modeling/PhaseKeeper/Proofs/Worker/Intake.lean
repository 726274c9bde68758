import Mathlib.Data.List.Perm.Basic
import Mathlib.Tactic.Common
import PhaseKeeper.Worker.Intake
/-!
What the intake keeps account of. Every permit is free, with a handler, with a loop or with a stop
that waits for all of them, and every message that was received has been handed to the engine or is
with a handler that has not begun. Where one start and one stop are called, nothing can happen any
more once the stop has returned.
-/
namespace PhaseKeeper
variable {M W : Type}

def Claimant.isCall : Claimant → Bool
  | .loop _ => false
  | .call _ => true

namespace Intake

def receiving (s : Intake M W) : Nat := s.loops.countP (·.holdsPermit)

/-- The permits that loops hold, or have been given. -/
def held (s : Intake M W) : Nat :=
  s.receiving + Claim.sumGiven (s.permits.queue.filter (!·.holder.isCall))

/-- The permits that calls have been given, and keep while they wait for more. -/
def reserved (s : Intake M W) : Nat := Claim.sumGiven (s.permits.queue.filter (·.holder.isCall))

def Handler.message? : Handler M W → Option M
  | .spawned m => some m
  | .running _ => none

def spawned (s : Intake M W) : List M := s.handlers.filterMap Handler.message?

def received (notes : List (Note M)) : List M := notes.filterMap fun
  | .received m => some m
  | .handed _ => none

def handed (notes : List (Note M)) : List M := notes.filterMap fun
  | .received _ => none
  | .handed m => some m

theorem received_append (notes ns : List (Note M)) :
    received (notes ++ ns) = received notes ++ received ns := List.filterMap_append

theorem handed_append (notes ns : List (Note M)) :
    handed (notes ++ ns) = handed notes ++ handed ns := List.filterMap_append

end Intake

namespace ReceiveLoop
variable {l : ReceiveLoop} {i : Nat} {p p' : Permits Claimant} {a : LoopAction M}
  {stage : LoopStage} {m : Option M}

def orders (l : ReceiveLoop) (i : Nat) : List (Claimant × Nat) :=
  if l.stage = .queued then [(.loop i, 1)] else []

theorem step?_permits (h : l.step? i p a = some (stage, p', m)) :
    p'.total + m.toList.length + { l with stage }.holdsPermit.toNat =
      p.total + l.holdsPermit.toNat := by
  cases a with
  | takePermit =>
    simp only [step?] at h
    split_ifs at h with hstage
    obtain ⟨q, hq, h⟩ := Option.map_eq_some_iff.1 h
    cases h
    simp [holdsPermit, hstage, Permits.total_collect? hq]
  | seek | receive | failReceive | wake | leave =>
    simp only [step?] at h
    split_ifs at h <;> cases h <;>
      simp_all [holdsPermit, Permits.total_claim, Permits.total_giveBack, Permits.total_withdraw]

theorem step?_orders (h : l.step? i p a = some (stage, p', m)) (hp : p.orders = l.orders i) :
    p'.orders = { l with stage }.orders i := by
  cases a with
  | takePermit =>
    simp only [step?] at h
    split_ifs at h with hstage
    obtain ⟨q, hq, h⟩ := Option.map_eq_some_iff.1 h
    cases h
    have hperm := Permits.orders_collect? hq
    rw [hp, orders, if_pos hstage] at hperm
    simpa [orders] using hperm
  | seek | receive | failReceive | wake | leave =>
    simp only [step?] at h
    split_ifs at h <;> cases h <;>
      simp_all [orders, Permits.orders_claim, Permits.orders_giveBack, Permits.orders_withdraw]

theorem step?_not_ended {r : LoopStage × Permits Claimant × Option M}
    (h : l.step? i p a = some r) : l.stage ≠ .ended := by
  cases a <;> simp only [step?] at h <;> split_ifs at h <;> simp_all

theorem orders_of_ended (h : l.stage = .ended) (i : Nat) : l.orders i = [] := by
  simp [orders, h]

theorem filter_orders (l : ReceiveLoop) (i c : Nat) :
    (l.orders i).filter (·.1 ≠ .call c) = l.orders i := by
  rw [orders]
  split_ifs <;> rfl

end ReceiveLoop

namespace Intake

theorem Handler.step?_messages {engine : M → W} {w : Handler M W} {a : HandlerAction W}
    {ns : List (Note M)} {next : Option (Handler M W)} (h : w.step? engine a = some (ns, next)) :
    received ns = [] ∧ handed ns ++ next.toList.filterMap message? = w.message?.toList := by
  cases w <;> cases a <;> simp only [step?] at h <;> cases h <;> simp [received, handed, message?]

variable {s s' : Intake M W} {ns : List (Note M)}

theorem receiving_set {i : Nat} {l : ReceiveLoop} (hl : s.loops[i]? = some l) (stage : LoopStage) :
    (s.loops.set i { l with stage }).countP (·.holdsPermit) + l.holdsPermit.toNat =
      s.receiving + { l with stage }.holdsPermit.toNat := by
  obtain ⟨hi, rfl⟩ := List.getElem?_eq_some_iff.1 hl
  have hset := List.countP_set (p := (·.holdsPermit)) (a := { s.loops[i] with stage }) hi
  have hpos : s.loops[i].holdsPermit = true → 0 < s.receiving := fun hp =>
    List.countP_pos_iff.2 ⟨_, List.getElem_mem hi, hp⟩
  rw [hset, ← receiving]
  cases h : s.loops[i].holdsPermit <;> cases h' : { s.loops[i] with stage }.holdsPermit <;>
    simp_all <;> omega

theorem spawned_eraseIdx {k : Nat} (hk : k < s.handlers.length) :
    s.spawned.Perm (s.handlers[k].message?.toList ++
      (s.handlers.eraseIdx k).filterMap Handler.message?) := by
  have hperm := (List.getElem_cons_eraseIdx_perm hk).symm.filterMap Handler.message?
  have hcons : (s.handlers[k] :: s.handlers.eraseIdx k).filterMap Handler.message? =
      s.handlers[k].message?.toList ++ (s.handlers.eraseIdx k).filterMap Handler.message? := by
    cases hm : s.handlers[k].message? <;> simp [hm]
  rwa [hcons] at hperm

inductive Moves (s : Intake M W) : Action M W → List (Note M) → Intake M W → Prop where
  | start : s.Moves .start [] { s with
      loops := s.loops ++ [⟨.seeking, false⟩]
      calls := s.calls ++ [.keeping s.loops.length] }
  | stop : s.Moves .stop [] { s with
      loops := s.loops.map fun l => { l with told := true }
      calls := s.calls ++ [.taking] }
  | loop {i : Nat} {a : LoopAction M} {l : ReceiveLoop} {stage : LoopStage}
    {permits : Permits Claimant} {m : Option M} (hl : s.loops[i]? = some l)
    (h : l.step? i s.permits a = some (stage, permits, m)) :
    s.Moves (.loop i a) (m.toList.map .received) { s with
      permits
      loops := s.loops.set i { l with stage }
      handlers := s.handlers ++ m.toList.map .spawned }
  | handler {k : Nat} {a : HandlerAction W} {w : Handler M W} {notes : List (Note M)}
    {next : Option (Handler M W)} (hw : s.handlers[k]? = some w)
    (h : w.step? s.engine a = some (notes, next)) :
    s.Moves (.handler k a) notes { s with
      permits := if next.isNone then s.permits.giveBack 1 else s.permits
      handlers := s.handlers.eraseIdx k ++ next.toList }
  | proceed {c : Nat} {stage : CallStage} {s' : Intake M W} (hc : s.calls[c]? = some stage)
    (h : s.proceed? c stage = some s') : s.Moves (.proceed c) [] s'
  | abandon {c : Nat} {stage : CallStage} (hc : s.calls[c]? = some stage)
    (h : stage.isPending = true) : s.Moves (.abandon c) []
      { s.setCall c .abandoned with permits := s.permits.withdraw (.call c) }

theorem moves_of_step? {a : Action M W} (h : s.step? a = some (ns, s')) : s.Moves a ns s' := by
  cases a with
  | start => cases h; exact .start
  | stop => cases h; exact .stop
  | loop i a =>
    obtain ⟨l, hl, h⟩ := Option.bind_eq_some_iff.1 h
    obtain ⟨r, hr, h⟩ := Option.bind_eq_some_iff.1 h
    cases h
    exact .loop hl hr
  | handler k a =>
    obtain ⟨w, hw, h⟩ := Option.bind_eq_some_iff.1 h
    obtain ⟨r, hr, h⟩ := Option.bind_eq_some_iff.1 h
    cases h
    exact .handler hw hr
  | proceed c =>
    obtain ⟨stage, hc, h⟩ := Option.bind_eq_some_iff.1 h
    obtain ⟨t, ht, h⟩ := Option.bind_eq_some_iff.1 h
    cases h
    exact .proceed hc ht
  | abandon c =>
    obtain ⟨stage, hc, h⟩ := Option.bind_eq_some_iff.1 h
    split_ifs at h with hp
    cases h
    exact .abandon hc hp

/-- What a step does to the account: the permits stay as many as they were, and a message that was
received is with a handler until it is handed on. -/
structure Keeps (s : Intake M W) (ns : List (Note M)) (s' : Intake M W) : Prop where
  limit : s'.limit = s.limit
  permits : s'.permits.total + s'.handlers.length + s'.receiving =
    s.permits.total + s.handlers.length + s.receiving
  messages : (received ns ++ s.spawned).Perm (handed ns ++ s'.spawned)

theorem proceed?_frame {c : Nat} {stage : CallStage} (h : s.proceed? c stage = some s') :
    ∃ calls kept permits, permits.total = s.permits.total ∧
      s' = { s with calls, kept, permits } := by
  cases stage with
  | keeping i | joining i =>
    simp only [proceed?] at h
    split_ifs at h
    cases h
    exact ⟨_, _, _, rfl, rfl⟩
  | taking =>
    simp only [proceed?] at h
    split_ifs at h
    split at h <;> cases h <;> exact ⟨_, _, _, rfl, rfl⟩
  | draining =>
    cases h
    exact ⟨_, _, _, Permits.total_claim _ _ _, rfl⟩
  | collecting =>
    obtain ⟨p, hp, h⟩ := Option.map_eq_some_iff.1 h
    cases h
    exact ⟨_, _, _, (Permits.total_giveBack p _).trans (Permits.total_collect? hp), rfl⟩
  | started | stopped | abandoned => cases h

theorem Moves.keeps {a : Action M W} (h : s.Moves a ns s') : Keeps s ns s' := by
  cases h with
  | start =>
    refine ⟨rfl, ?_, .refl _⟩
    simp [receiving, ReceiveLoop.holdsPermit]
  | stop =>
    refine ⟨rfl, ?_, .refl _⟩
    simp only [receiving, List.countP_map]
    rfl
  | @loop i a l stage permits m hl h =>
    have hpermits := ReceiveLoop.step?_permits h
    have hreceiving := receiving_set hl stage
    refine ⟨rfl, ?_, ?_⟩
    · simp only [receiving, List.length_append, List.length_map] at hreceiving ⊢
      omega
    · cases m with
      | none => simp [received, handed, spawned]
      | some m =>
        simp only [received, handed, spawned, Option.toList_some, List.map_cons, List.map_nil,
          List.filterMap_append, List.filterMap_cons, List.filterMap_nil, Handler.message?]
        exact List.perm_append_comm
  | @handler k a w notes next hw h =>
    obtain ⟨hk, rfl⟩ := List.getElem?_eq_some_iff.1 hw
    obtain ⟨hreceived, hmessages⟩ := Handler.step?_messages h
    refine ⟨rfl, ?_, ?_⟩
    · have hlen := List.length_eraseIdx_of_lt hk
      cases next <;> simp [receiving, hlen, Permits.total_giveBack] <;> omega
    · have hperm := spawned_eraseIdx hk
      rw [← hmessages, List.append_assoc] at hperm
      rw [hreceived, List.nil_append]
      refine hperm.trans ((List.perm_append_comm.trans ?_).append_left _)
      rw [spawned, List.filterMap_append]
  | proceed hc h =>
    obtain ⟨calls, kept, permits, htotal, rfl⟩ := proceed?_frame h
    exact ⟨rfl, by simp only [htotal, receiving], .refl _⟩
  | abandon => exact ⟨rfl, by simp only [Permits.total_withdraw, receiving, setCall], .refl _⟩

/-- A start is called once, and a stop once, after the start has returned. -/
def Action.Orderly (s : Intake M W) : Action M W → Prop
  | .start => s.calls = []
  | .stop => s.calls = [.started]
  | _ => True

inductive Reached (engine : M → W) (n : Nat) : List (Note M) → Intake M W → Prop where
  | init : Reached engine n [] (.ofLimit engine n)
  | step {notes ns : List (Note M)} {s s' : Intake M W} {a : Action M W}
    (h : Reached engine n notes s) (ha : a.Orderly s) (hs : s.step? a = some (ns, s')) :
    Reached engine n (notes ++ ns) s'

/-- How far the two calls have come, which handle is kept, what there is of loops, and what claims
wait: those of the loop, or the one of a stop that asks for `q` permits. -/
inductive Standing (q : Nat) :
    List CallStage → Option Nat → List ReceiveLoop → List (Claimant × Nat) → Prop where
  | idle : Standing q [] none [] []
  | keeping (l : ReceiveLoop) : Standing q [.keeping 0] none [l] (l.orders 0)
  | started (l : ReceiveLoop) : Standing q [.started] (some 0) [l] (l.orders 0)
  | taking (l : ReceiveLoop) : Standing q [.started, .taking] (some 0) [l] (l.orders 0)
  | joining (l : ReceiveLoop) : Standing q [.started, .joining 0] none [l] (l.orders 0)
  | draining {l : ReceiveLoop} (h : l.stage = .ended) :
    Standing q [.started, .draining] none [l] (l.orders 0)
  | collecting {l : ReceiveLoop} (h : l.stage = .ended) :
    Standing q [.started, .collecting] none [l] [(.call 1, q)]
  | stopped {l : ReceiveLoop} (h : l.stage = .ended) :
    Standing q [.started, .stopped] none [l] (l.orders 0)
  | startLost (l : ReceiveLoop) : Standing q [.abandoned] none [l] (l.orders 0)
  | stopLost (l : ReceiveLoop) (kept : Option Nat) :
    Standing q [.started, .abandoned] kept [l] (l.orders 0)

section Standing
variable {q : Nat} {calls : List CallStage} {kept : Option Nat} {loops : List ReceiveLoop}
  {orders : List (Claimant × Nat)}

theorem Standing.start (h : Standing q [] kept loops orders) :
    Standing q [.keeping loops.length] kept (loops ++ [⟨.seeking, false⟩]) orders := by
  cases h
  exact .keeping ⟨.seeking, false⟩

theorem Standing.stop (h : Standing q [.started] kept loops orders) :
    Standing q [.started, .taking] kept (loops.map fun l => { l with told := true }) orders := by
  cases h with
  | started l => exact .taking { l with told := true }

theorem Standing.set {i : Nat} {l : ReceiveLoop} (h : Standing q calls kept loops orders)
    (hl : loops[i]? = some l) (hmoves : l.stage ≠ .ended) :
    orders = l.orders i ∧ .stopped ∉ calls ∧
      ∀ l', Standing q calls kept (loops.set i l') (l'.orders i) := by
  cases i with
  | zero =>
    cases h with
    | idle => cases hl
    | keeping => cases hl; exact ⟨rfl, by decide, .keeping⟩
    | started => cases hl; exact ⟨rfl, by decide, .started⟩
    | taking => cases hl; exact ⟨rfl, by decide, .taking⟩
    | joining => cases hl; exact ⟨rfl, by decide, .joining⟩
    | draining hended | collecting hended | stopped hended =>
      cases hl
      exact absurd hended hmoves
    | startLost => cases hl; exact ⟨rfl, by decide, .startLost⟩
    | stopLost _ kept => cases hl; exact ⟨rfl, by decide, fun l' => .stopLost l' kept⟩
  | succ i => cases h <;> cases hl

theorem first_call {c : Nat} {x stage : CallStage} (h : [x][c]? = some stage) :
    c = 0 ∧ x = stage := by
  cases c <;> cases h
  exact ⟨rfl, rfl⟩

theorem second_call {c : Nat} {x stage : CallStage} (h : [.started, x][c]? = some stage)
    (hp : stage.isPending = true) : c = 1 ∧ x = stage := by
  match c with
  | 0 => cases h; cases hp
  | 1 => cases h; exact ⟨rfl, rfl⟩
  | c + 2 => cases h

theorem proceed?_isPending {c : Nat} {stage : CallStage} (h : s.proceed? c stage = some s') :
    stage.isPending = true := by
  cases stage <;> first | rfl | cases h

theorem proceed?_standing {c : Nat} {stage : CallStage}
    (h : Standing s.quota s.calls s.kept s.loops s.permits.orders) (hc : s.calls[c]? = some stage)
    (hp : s.proceed? c stage = some s') :
    Standing s.quota s'.calls s'.kept s'.loops s'.permits.orders ∧
      (.stopped ∉ s'.calls ∨ s.quota ≤ s'.permits.total) := by
  have hpending := proceed?_isPending hp
  obtain ⟨engine, limit, permits, loops, kept, handlers, calls⟩ := s
  generalize horders : permits.orders = orders at h
  dsimp only at h hc
  cases h with
  | idle => cases hc
  | keeping l =>
    obtain ⟨rfl, rfl⟩ := first_call hc
    cases hp
    exact ⟨horders ▸ .started l, .inl (by simp [setCall])⟩
  | started | startLost =>
    obtain ⟨rfl, rfl⟩ := first_call hc
    cases hp
  | taking l =>
    obtain ⟨rfl, rfl⟩ := second_call hc hpending
    cases hp
    exact ⟨horders ▸ .joining l, .inl (by simp [setCall])⟩
  | joining l =>
    obtain ⟨rfl, rfl⟩ := second_call hc hpending
    simp only [proceed?] at hp
    split_ifs at hp with hended
    cases hp
    exact ⟨horders ▸ .draining (by simpa using hended), .inl (by simp [setCall])⟩
  | draining hended =>
    obtain ⟨rfl, rfl⟩ := second_call hc hpending
    cases hp
    refine ⟨?_, .inl (by simp [setCall])⟩
    rw [ReceiveLoop.orders_of_ended hended] at horders
    simp only [Permits.orders_claim, horders, List.nil_append]
    exact .collecting hended
  | collecting hended =>
    obtain ⟨rfl, rfl⟩ := second_call hc hpending
    obtain ⟨p, hcollect, hp⟩ := Option.map_eq_some_iff.1 hp
    cases hp
    have hperm := Permits.orders_collect? hcollect
    have hrest : p.orders = [] := by simpa [horders] using hperm
    refine ⟨?_, .inr ?_⟩
    · rw [Permits.orders_giveBack, hrest, ← ReceiveLoop.orders_of_ended hended 0]
      exact .stopped hended
    · rw [Permits.total_giveBack]
      exact Nat.le_add_left _ _
  | stopped | stopLost =>
    obtain ⟨rfl, rfl⟩ := second_call hc hpending
    cases hp

theorem Standing.abandon {c : Nat} {stage : CallStage} (h : Standing q calls kept loops orders)
    (hc : calls[c]? = some stage) (hp : stage.isPending = true) :
    Standing q (calls.set c .abandoned) kept loops (orders.filter (·.1 ≠ .call c)) ∧
      .stopped ∉ calls.set c .abandoned := by
  cases h with
  | idle => cases hc
  | keeping l =>
    obtain ⟨rfl, rfl⟩ := first_call hc
    rw [l.filter_orders]
    exact ⟨.startLost l, by decide⟩
  | started | startLost =>
    obtain ⟨rfl, rfl⟩ := first_call hc
    cases hp
  | @taking l | @joining l | @draining l _ =>
    obtain ⟨rfl, rfl⟩ := second_call hc hp
    rw [l.filter_orders]
    exact ⟨.stopLost _ _, by decide⟩
  | @collecting l hended =>
    obtain ⟨rfl, rfl⟩ := second_call hc hp
    have hlost := Standing.stopLost (q := q) l none
    rw [ReceiveLoop.orders_of_ended hended] at hlost
    exact ⟨by simpa using hlost, by decide⟩
  | stopped | stopLost =>
    obtain ⟨rfl, rfl⟩ := second_call hc hp
    cases hp

theorem Standing.over (h : Standing q calls kept loops orders) (hs : .stopped ∈ calls) :
    (∀ l ∈ loops, l.stage = .ended) ∧ (∀ c ∈ calls, c.isPending = false) ∧ orders = [] := by
  cases h with
  | stopped h => exact ⟨List.forall_mem_singleton.2 h, by decide, ReceiveLoop.orders_of_ended h 0⟩
  | _ => simp at hs

theorem Standing.claims (h : Standing q calls kept loops orders) :
    (.collecting ∉ calls ∧ (loops = [] ∧ orders = [] ∨ ∃ l, loops = [l] ∧ orders = l.orders 0)) ∨
      (.collecting ∈ calls ∧ orders = [(.call 1, q)] ∧ ∀ l ∈ loops, l.stage = .ended) := by
  cases h with
  | idle => exact .inl ⟨by decide, .inl ⟨rfl, rfl⟩⟩
  | collecting h => exact .inr ⟨by decide, rfl, List.forall_mem_singleton.2 h⟩
  | _ => exact .inl ⟨by decide, .inr ⟨_, rfl, rfl⟩⟩

end Standing

structure Account (n : Nat) (notes : List (Note M)) (s : Intake M W) : Prop where
  limit : s.limit = max n 1
  permits : s.permits.total + s.handlers.length + s.receiving = max n 1
  messages : (received notes).Perm (handed notes ++ s.spawned)
  standing : Standing s.quota s.calls s.kept s.loops s.permits.orders
  returned : .stopped ∈ s.calls → s.permits.total = max n 1

section Account
variable {n : Nat} {notes : List (Note M)}

theorem Keeps.quota (h : Keeps s ns s') : s'.quota = s.quota := by
  rw [Intake.quota, Intake.quota, h.limit]

theorem Keeps.account (h : Keeps s ns s') (ha : Account n notes s)
    (hstanding : Standing s.quota s'.calls s'.kept s'.loops s'.permits.orders)
    (hreturned : .stopped ∈ s'.calls → s'.permits.total = max n 1) :
    Account n (notes ++ ns) s' where
  limit := h.limit.trans ha.limit
  permits := h.permits.trans ha.permits
  messages := by
    simp only [received_append, handed_append, List.append_assoc]
    have hbefore : (received notes ++ received ns).Perm
        (handed notes ++ (s.spawned ++ received ns)) := by
      simpa using ha.messages.append_right (received ns)
    exact hbefore.trans ((List.perm_append_comm.trans h.messages).append_left _)
  standing := h.quota ▸ hstanding
  returned := hreturned

theorem Account.quota_eq (hn : n < UInt32.size) (h : Account n notes s) : s.quota = max n 1 := by
  rw [quota, h.limit, if_pos (Nat.max_lt.2 ⟨hn, by decide⟩)]

theorem Account.sum_eq (h : Account n notes s) :
    s.permits.free + s.handlers.length + s.held + s.reserved = max n 1 := by
  have hpermits := h.permits
  have hgiven := Claim.sumGiven_filter (·.holder.isCall) s.permits.queue
  rw [Permits.total] at hpermits
  simp only [held, reserved]
  omega

theorem Account.inFlight_eq (h : Account n notes s) :
    s.inFlight = s.handlers.length + s.held + s.reserved := by
  have hsum := h.sum_eq
  rw [inFlight, h.limit]
  omega

theorem Account.attended (h : Account n notes s) (hs : .collecting ∉ s.calls) :
    s.held ≤ 1 ∧ s.reserved = 0 := by
  obtain ⟨-, ⟨hloops, horders⟩ | ⟨l, hloops, horders⟩⟩ | ⟨hcollecting, -⟩ := h.standing.claims
  · simp [held, receiving, reserved, hloops, List.map_eq_nil_iff.1 horders]
  · by_cases hqueued : l.stage = .queued
    · rw [ReceiveLoop.orders, if_pos hqueued] at horders
      obtain ⟨k, m, hk, hqueue⟩ := Permits.queue_of_orders horders
      have hle : k ≤ 1 := by omega
      simp [held, receiving, reserved, hloops, hqueue, Claimant.isCall,
        ReceiveLoop.holdsPermit, hqueued, hle]
    · rw [ReceiveLoop.orders, if_neg hqueued] at horders
      simp only [held, receiving, reserved, hloops, List.map_eq_nil_iff.1 horders]
      exact ⟨List.countP_le_length, rfl⟩
  · exact absurd hcollecting hs

theorem Account.collecting (hn : n < UInt32.size) (h : Account n notes s)
    (hs : .collecting ∈ s.calls) : s.held = 0 ∧ s.permits.free = 0 := by
  obtain ⟨hnot, -⟩ | ⟨-, horders, hended⟩ := h.standing.claims
  · exact absurd hs hnot
  · obtain ⟨k, m, hk, hqueue⟩ := Permits.queue_of_orders horders
    have hreceiving : s.receiving = 0 := List.countP_eq_zero.2 fun l hl => by
      simp [ReceiveLoop.holdsPermit, hended l hl]
    have hpermits := h.permits
    -- A claim for all permits either lacks some, and then none is free, or has been given all of them.
    have htight := s.permits.tight
    rw [h.quota_eq hn] at hk
    simp only [Permits.total, hqueue, Claim.sumGiven,
      List.forall_mem_singleton] at hpermits htight
    refine ⟨?_, by omega⟩
    simp [held, hreceiving, hqueue, Claimant.isCall]

theorem Account.drained (h : Account n notes s) (hs : .stopped ∈ s.calls) :
    s.handlers = [] ∧ s.inFlight = 0 := by
  have htotal := h.returned hs
  have hpermits := h.permits
  obtain ⟨-, -, horders⟩ := h.standing.over hs
  refine ⟨List.length_eq_zero_iff.1 (by omega), ?_⟩
  rw [inFlight, h.limit, Permits.free_of_orders_nil horders, htotal, Nat.sub_self]

theorem Account.still (h : Account n notes s) (hs : .stopped ∈ s.calls) {a : Action M W}
    (ho : a.Orderly s) : s.step? a = none := by
  obtain ⟨hended, hdone, -⟩ := h.standing.over hs
  cases hstep : s.step? a with
  | none => rfl
  | some r =>
    obtain ⟨ns, s'⟩ := r
    cases moves_of_step? hstep with
    | start =>
      rw [show s.calls = [] from ho] at hs
      cases hs
    | stop =>
      rw [show s.calls = [.started] from ho] at hs
      simp at hs
    | loop hl hmoves =>
      exact absurd (hended _ (List.mem_of_getElem? hl)) (ReceiveLoop.step?_not_ended hmoves)
    | handler hw =>
      rw [(h.drained hs).1] at hw
      cases hw
    | proceed hc hp =>
      cases (proceed?_isPending hp).symm.trans (hdone _ (List.mem_of_getElem? hc))
    | abandon hc hp => cases hp.symm.trans (hdone _ (List.mem_of_getElem? hc))

theorem Account.step (hn : n < UInt32.size) (h : Account n notes s) {a : Action M W} (ho : a.Orderly s)
    (hs : s.Moves a ns s') : Account n (notes ++ ns) s' := by
  have hkeeps := hs.keeps
  have hst := h.standing
  cases hs with
  | start =>
    have hcalls : s.calls = [] := ho
    rw [hcalls] at hst
    refine hkeeps.account h ?_ ?_ <;> dsimp only <;> rw [hcalls]
    · exact hst.start
    · simp
  | stop =>
    have hcalls : s.calls = [.started] := ho
    rw [hcalls] at hst
    refine hkeeps.account h ?_ ?_ <;> dsimp only <;> rw [hcalls]
    · exact hst.stop
    · simp
  | @loop i a l stage permits m hl hstep =>
    obtain ⟨horders, hnot, hset⟩ := hst.set hl (ReceiveLoop.step?_not_ended hstep)
    refine hkeeps.account h ?_ fun hstopped => absurd hstopped hnot
    dsimp only
    rw [ReceiveLoop.step?_orders hstep horders]
    exact hset _
  | @handler k a w notes next hw hstep =>
    refine hkeeps.account h ?_ fun hstopped => ?_
    · cases next with
      | none => simpa [Permits.orders_giveBack] using hst
      | some => exact hst
    · rw [(h.drained hstopped).1] at hw
      cases hw
  | proceed hc hp =>
    obtain ⟨hst, hnot | hquota⟩ := proceed?_standing hst hc hp
    · exact hkeeps.account h hst fun hstopped => absurd hstopped hnot
    · refine hkeeps.account h hst fun _ => ?_
      -- The stop gave back as many permits as there are, so no handler and no loop has any.
      have hpermits := hkeeps.permits.trans h.permits
      rw [h.quota_eq hn] at hquota
      omega
  | abandon hc hp =>
    obtain ⟨hst, hnot⟩ := hst.abandon hc hp
    refine hkeeps.account h ?_ fun hstopped => absurd hstopped hnot
    rw [Permits.orders_withdraw]
    exact hst

theorem Reached.account {engine : M → W} (hn : n < UInt32.size) (h : Reached engine n notes s) :
    Account n notes s := by
  induction h with
  | init =>
    exact ⟨rfl, by simp [ofLimit, Permits.ofCount, Permits.total, receiving], .refl _, .idle,
      by simp [ofLimit]⟩
  | step h ho hs ih => exact ih.step hn ho (moves_of_step? hs)

/-- A handler that has not begun can begin whatever the others do. -/
theorem Reached.hand_on {engine : M → W} (h : Reached engine n notes s) :
    ∃ more s', Reached engine n (notes ++ more) s' ∧ received more = [] ∧ s'.spawned = [] := by
  -- By the number of handlers that have not begun; one of them begins at each step.
  induction hlen : s.spawned.length generalizing notes s with
  | zero =>
    refine ⟨[], s, ?_, rfl, List.length_eq_zero_iff.1 hlen⟩
    rwa [List.append_nil]
  | succ k ih =>
    have hne : s.spawned ≠ [] := List.ne_nil_of_length_eq_add_one hlen
    obtain ⟨m, hm⟩ := List.exists_mem_of_ne_nil _ hne
    obtain ⟨w, hw, hwm⟩ := List.mem_filterMap.1 hm
    obtain ⟨j, hj⟩ := List.getElem?_of_mem hw
    cases w with
    | running w => cases hwm
    | spawned m =>
      have hbegin : s.step? (.handler j .begin) = some ([.handed m], { s with
          handlers := s.handlers.eraseIdx j ++ [.running (s.engine m)] }) := by
        simp only [step?, hj]
        rfl
      have hlength := (moves_of_step? hbegin).keeps.messages.length_eq
      obtain ⟨more, s', hmore, hnone, hempty⟩ := ih (.step (a := .handler j .begin) h trivial hbegin) (by
        simp only [received, handed, List.filterMap_cons, List.filterMap_nil, List.nil_append,
          List.singleton_append, List.length_cons] at hlength
        omega)
      rw [List.append_assoc] at hmore
      exact ⟨_, s', hmore, hnone, hempty⟩

theorem Account.failReceive (h : Account n notes s) {i : Nat}
    (hs : s.Moves (.loop i .failReceive) ns s') :
    s'.permits.free = s.permits.free + 1 ∧ s'.held + 1 = s.held ∧ s'.handlers = s.handlers := by
  cases hs with
  | @loop _ _ l stage permits m hl hstep =>
    obtain ⟨horders, -⟩ := h.standing.set hl (ReceiveLoop.step?_not_ended hstep)
    simp only [ReceiveLoop.step?] at hstep
    split_ifs at hstep with hstage
    cases hstep
    have hset := receiving_set hl .resting
    -- Nobody waits for the permit.
    rw [ReceiveLoop.orders, if_neg (by simp [hstage])] at horders
    have hqueue : s.permits.queue = [] := List.map_eq_nil_iff.1 horders
    refine ⟨?_, ?_, List.append_nil _⟩
    · simp [Permits.giveBack, hqueue, Claim.serve]
    · simpa [held, receiving, Permits.giveBack, hqueue, Claim.serve, ReceiveLoop.holdsPermit,
        hstage] using hset

end Account

/-- Whatever the intake comes to, every permit is free, with a handler, with the loop, or with a stop
that waits for all of them; so no more messages are handled at a time than there are permits. A stop
that waits leaves no permit free, and all count as in flight; otherwise those of the handlers and of
the loop do. Every message that was received has been handed to the engine once, or is with a handler
that has yet to do so and can; and a failed receive costs no permit. Once a stop has returned, the
loop and all handlers have ended, every message has been handed on, and nothing can happen any more. -/
theorem intake_conserves (engine : M → W) {n : Nat} (hn : n < UInt32.size) {notes : List (Note M)}
    {s : Intake M W} (h : Reached engine n notes s) :
    (s.permits.free + s.handlers.length + s.held + s.reserved = max n 1 ∧ s.held ≤ 1 ∧
      s.handlers.length ≤ max n 1 ∧ s.inFlight = s.handlers.length + s.held + s.reserved) ∧
    ((.collecting ∉ s.calls → s.reserved = 0) ∧
      (.collecting ∈ s.calls → s.permits.free = 0 ∧ s.held = 0 ∧ s.inFlight = max n 1)) ∧
    ((received notes).Perm (handed notes ++ s.spawned) ∧
      ∃ more s', Reached engine n (notes ++ more) s' ∧ received more = [] ∧
        (received notes).Perm (handed (notes ++ more))) ∧
    (∀ i ns s', s.step? (.loop i .failReceive) = some (ns, s') →
      s'.permits.free = s.permits.free + 1 ∧ s'.held + 1 = s.held ∧ s'.handlers = s.handlers) ∧
    (.stopped ∈ s.calls → (∀ l ∈ s.loops, l.stage = .ended) ∧ s.handlers = [] ∧ s.inFlight = 0 ∧
      (received notes).Perm (handed notes) ∧ ∀ a : Action M W, a.Orderly s → s.step? a = none) := by
  have haccount := h.account hn
  have hsum := haccount.sum_eq
  have hflight := haccount.inFlight_eq
  refine ⟨⟨hsum, ?_, by omega, hflight⟩, ⟨fun hs => (haccount.attended hs).2, fun hs => ?_⟩,
    ⟨haccount.messages, ?_⟩, fun i ns s' hs => haccount.failReceive (moves_of_step? hs), fun hs => ?_⟩
  · by_cases hs : .collecting ∈ s.calls
    · exact Nat.le_trans (Nat.le_of_eq (haccount.collecting hn hs).1) (Nat.zero_le 1)
    · exact (haccount.attended hs).1
  · obtain ⟨hheld, hfree⟩ := haccount.collecting hn hs
    exact ⟨hfree, hheld, by omega⟩
  · obtain ⟨more, s', hmore, hnone, hempty⟩ := h.hand_on
    have hmessages := (hmore.account hn).messages
    rw [received_append, hnone, hempty, List.append_nil, List.append_nil] at hmessages
    exact ⟨more, s', hmore, hnone, hmessages⟩
  · obtain ⟨hhandlers, hempty⟩ := haccount.drained hs
    have hmessages := haccount.messages
    rw [spawned, hhandlers, List.filterMap_nil, List.append_nil] at hmessages
    exact ⟨(haccount.standing.over hs).1, hhandlers, hempty, hmessages,
      fun a ho => haccount.still hs ho⟩

instance (s : Intake M W) : (a : Action M W) → Decidable (a.Orderly s)
  | .start => inferInstanceAs (Decidable (s.calls = []))
  | .stop => inferInstanceAs (Decidable (s.calls = [.started]))
  | .loop _ _ | .handler _ _ | .proceed _ | .abandon _ => inferInstanceAs (Decidable True)

def run? (s : Intake M W) : List (Action M W) → Option (List (Note M) × Intake M W)
  | [] => some ([], s)
  | a :: as => do
    if a.Orderly s then
      let (ns, s) ← s.step? a
      let (more, s) ← s.run? as
      return (ns ++ more, s)
    else none

theorem Reached.run {engine : M → W} {n : Nat} {notes ns : List (Note M)} {s s' : Intake M W}
    {as : List (Action M W)} (h : Reached engine n notes s) (hrun : s.run? as = some (ns, s')) :
    Reached engine n (notes ++ ns) s' := by
  induction as generalizing notes ns s with
  | nil =>
    cases hrun
    rwa [List.append_nil]
  | cons a as ih =>
    rw [run?] at hrun
    split_ifs at hrun with ho
    obtain ⟨⟨ns, t⟩, hs, hrun⟩ := Option.bind_eq_some_iff.1 hrun
    obtain ⟨⟨more, s'⟩, hmore, hrun⟩ := Option.bind_eq_some_iff.1 hrun
    cases hrun
    rw [← List.append_assoc]
    exact ih (.step h ho hs) hmore

/-- A stop is called while a message is handled, and waits for the permit of the handler. -/
def waitingStop : List (Action Nat Nat) :=
  [.start, .proceed 0, .loop 0 .seek, .loop 0 .takePermit, .loop 0 (.receive 7), .handler 0 .begin,
    .stop, .loop 0 .leave, .proceed 1, .proceed 1, .proceed 1]

/-- It has been given the other three. -/
def reservedIntake : Intake Nat Nat :=
  ⟨id, 4, ⟨0, [⟨.call 1, 3, 1⟩], .inl rfl⟩, [⟨.ended, true⟩], none, [.running 7],
    [.started, .collecting]⟩

theorem not_conserved_waiting_stop :
    ¬ ∀ (notes : List (Note Nat)) (s : Intake Nat Nat), Reached id 4 notes s →
      s.permits.free + s.handlers.length + s.held = max 4 1 ∧
        s.inFlight = s.handlers.length + s.held := by
  intro hall
  have hrun : (ofLimit id 4).run? waitingStop =
      some ([.received 7, .handed 7], reservedIntake) := rfl
  obtain ⟨hsum, -⟩ := hall _ _ (Reached.init.run hrun)
  exact absurd hsum (by decide)

/-- Where no limit is given there is one permit. The stop is called while a message is handled, and
the loop receives another one before it leaves. -/
def lateMessage : List (Action Nat Nat) :=
  [.start, .proceed 0, .loop 0 .seek, .loop 0 .takePermit, .loop 0 .failReceive, .loop 0 .wake,
    .loop 0 .seek, .loop 0 .takePermit, .loop 0 (.receive 7), .stop, .proceed 1, .loop 0 .seek,
    .handler 0 .begin, .handler 0 .finish, .loop 0 .takePermit, .loop 0 (.receive 8), .loop 0 .leave,
    .proceed 1, .proceed 1, .handler 0 .begin, .handler 0 .finish, .proceed 1]

def drainedIntake : Intake Nat Nat :=
  ⟨id, 1, .ofCount 1, [⟨.ended, true⟩], none, [], [.started, .stopped]⟩

theorem intake_conserves_late_message :
    (ofLimit id 0).run? lateMessage =
        some ([.received 7, .handed 7, .received 8, .handed 8], drainedIntake) ∧
      drainedIntake.permits.free + drainedIntake.handlers.length + drainedIntake.held +
        drainedIntake.reserved = max 0 1 ∧
      drainedIntake.inFlight = 0 ∧
      ∀ a : Action Nat Nat, a.Orderly drainedIntake → drainedIntake.step? a = none := by
  have hrun : (ofLimit id 0).run? lateMessage =
      some ([.received 7, .handed 7, .received 8, .handed 8], drainedIntake) := rfl
  obtain ⟨⟨hsum, -⟩, -, -, -, hstopped⟩ := intake_conserves id (n := 0) (by decide)
    (Reached.init.run hrun)
  obtain ⟨-, -, hflight, -, hstill⟩ := hstopped (by decide)
  exact ⟨hrun, hsum, hflight, hstill⟩

end Intake

end PhaseKeeper
