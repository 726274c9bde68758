/-!
Permits that are given out in the order in which they are claimed. A claim takes what is free, be it
less than what it asks for, and waits for the rest. A permit that comes back goes to the oldest claim
that lacks one, and is free only if there is none.
-/
namespace PhaseKeeper
variable {α : Type}

structure Claim (α : Type) where
  holder : α
  given : Nat
  lacking : Nat
deriving DecidableEq

namespace Claim

def order (c : Claim α) : α × Nat := (c.holder, c.given + c.lacking)

@[simp] def sumGiven : List (Claim α) → Nat
  | [] => 0
  | c :: cs => c.given + sumGiven cs

def serve (n : Nat) : List (Claim α) → Nat × List (Claim α)
  | [] => (n, [])
  | c :: cs =>
    let m := min n c.lacking
    let (rest, cs) := serve (n - m) cs
    (rest, ⟨c.holder, c.given + m, c.lacking - m⟩ :: cs)

theorem serve_zero (cs : List (Claim α)) : serve 0 cs = (0, cs) := by
  induction cs with
  | nil => rfl
  | cons c cs ih => simp [serve, ih]

theorem serve_of_settled (n : Nat) {cs : List (Claim α)} (h : ∀ c ∈ cs, c.lacking = 0) :
    serve n cs = (n, cs) := by
  induction cs with
  | nil => rfl
  | cons c cs ih =>
    obtain ⟨hc, hcs⟩ := List.forall_mem_cons.1 h
    obtain ⟨a, k, m⟩ := c
    cases hc
    simp [serve, ih hcs]

theorem serve_tight (n : Nat) (cs : List (Claim α)) :
    (serve n cs).1 = 0 ∨ ∀ c ∈ (serve n cs).2, c.lacking = 0 := by
  induction cs generalizing n with
  | nil => exact .inr (by simp [serve])
  | cons c cs ih =>
    by_cases hn : n ≤ c.lacking
    · -- The first claim takes everything.
      refine .inl ?_
      simp [serve, Nat.min_eq_left hn, serve_zero]
    · have hmin : min n c.lacking = c.lacking := Nat.min_eq_right (Nat.le_of_not_le hn)
      simpa [serve, hmin] using ih (n - c.lacking)

theorem sumGiven_serve (n : Nat) (cs : List (Claim α)) :
    (serve n cs).1 + sumGiven (serve n cs).2 = sumGiven cs + n := by
  induction cs generalizing n with
  | nil => simp [serve]
  | cons c cs ih =>
    have ih := ih (n - min n c.lacking)
    simp only [serve, sumGiven]
    omega

theorem sumGiven_append (cs ds : List (Claim α)) :
    sumGiven (cs ++ ds) = sumGiven cs + sumGiven ds := by
  induction cs with
  | nil => simp
  | cons c cs ih => simp [ih, Nat.add_assoc]

theorem sumGiven_perm {cs ds : List (Claim α)} (h : cs.Perm ds) : sumGiven cs = sumGiven ds := by
  induction h with
  | nil => rfl
  | cons c _ ih => simp [ih]
  | swap c d cs => simp [Nat.add_left_comm]
  | trans _ _ ih ih' => exact ih.trans ih'

theorem sumGiven_filter (test : Claim α → Bool) (cs : List (Claim α)) :
    sumGiven (cs.filter test) + sumGiven (cs.filter (!test ·)) = sumGiven cs := by
  rw [← sumGiven_append]
  exact sumGiven_perm (List.filter_append_perm test cs)

theorem order_serve (n : Nat) (cs : List (Claim α)) :
    (serve n cs).2.map order = cs.map order := by
  induction cs generalizing n with
  | nil => rfl
  | cons c cs ih =>
    have hsum : c.given + min n c.lacking + (c.lacking - min n c.lacking) =
        c.given + c.lacking := by omega
    simp [serve, order, ih, hsum]

end Claim

structure Permits (α : Type) where
  free : Nat
  /-- The oldest claim comes first. -/
  queue : List (Claim α)
  tight : free = 0 ∨ ∀ c ∈ queue, c.lacking = 0

namespace Permits

def ofCount (n : Nat) : Permits α := ⟨n, [], .inr (by simp)⟩

def giveBack (p : Permits α) (n : Nat) : Permits α where
  free := p.free + (Claim.serve n p.queue).1
  queue := (Claim.serve n p.queue).2
  tight := by
    obtain hfree | hsettled := p.tight
    · simpa [hfree] using Claim.serve_tight n p.queue
    · rw [Claim.serve_of_settled n hsettled]
      exact .inr hsettled

def claim (p : Permits α) (a : α) (n : Nat) : Permits α where
  free := p.free - n
  queue := p.queue ++ [⟨a, min n p.free, n - p.free⟩]
  tight := by
    by_cases hn : p.free ≤ n
    · exact .inl (Nat.sub_eq_zero_of_le hn)
    · have hsettled := p.tight.resolve_left (by omega)
      exact .inr (List.forall_mem_append.2 ⟨hsettled, List.forall_mem_singleton.2 (by grind)⟩)

/-- The permits that nobody has collected. -/
def total (p : Permits α) : Nat := p.free + Claim.sumGiven p.queue

def orders (p : Permits α) : List (α × Nat) := p.queue.map Claim.order

theorem total_giveBack (p : Permits α) (n : Nat) : (p.giveBack n).total = p.total + n := by
  have hserve := Claim.sumGiven_serve n p.queue
  simp only [total, giveBack]
  omega

theorem total_claim (p : Permits α) (a : α) (n : Nat) : (p.claim a n).total = p.total := by
  simp only [total, claim, Claim.sumGiven_append, Claim.sumGiven]
  omega

theorem orders_giveBack (p : Permits α) (n : Nat) : (p.giveBack n).orders = p.orders :=
  Claim.order_serve n p.queue

theorem orders_claim (p : Permits α) (a : α) (n : Nat) :
    (p.claim a n).orders = p.orders ++ [(a, n)] := by
  have hsum : min n p.free + (n - p.free) = n := by omega
  simp [orders, claim, Claim.order, hsum]

theorem free_of_orders_nil {p : Permits α} (h : p.orders = []) : p.free = p.total := by
  rw [total, List.map_eq_nil_iff.1 h]
  rfl

theorem queue_of_orders {p : Permits α} {a : α} {n : Nat} (h : p.orders = [(a, n)]) :
    ∃ k m, k + m = n ∧ p.queue = [⟨a, k, m⟩] := by
  obtain ⟨c, hqueue, hc⟩ := List.map_eq_singleton_iff.1 h
  cases hc
  exact ⟨c.given, c.lacking, rfl, hqueue⟩

variable [DecidableEq α]

/-- Takes what was claimed, once all of it has been given. -/
def collect? (p : Permits α) (a : α) (n : Nat) : Option (Permits α) :=
  if ⟨a, n, 0⟩ ∈ p.queue then
    some { p with
      queue := p.queue.erase ⟨a, n, 0⟩
      tight := p.tight.imp_right fun h c hc => h c (List.mem_of_mem_erase hc) }
  else none

theorem queue_collect? {p q : Permits α} {a : α} {n : Nat} (h : p.collect? a n = some q) :
    p.queue.Perm (⟨a, n, 0⟩ :: q.queue) ∧ q.free = p.free := by
  rw [collect?] at h
  split at h
  · rename_i hmem
    cases h
    exact ⟨List.perm_cons_erase hmem, rfl⟩
  · cases h

theorem total_collect? {p q : Permits α} {a : α} {n : Nat} (h : p.collect? a n = some q) :
    q.total + n = p.total := by
  obtain ⟨hqueue, hfree⟩ := queue_collect? h
  have hsum := Claim.sumGiven_perm hqueue
  simp only [total, Claim.sumGiven] at hsum ⊢
  omega

theorem orders_collect? {p q : Permits α} {a : α} {n : Nat} (h : p.collect? a n = some q) :
    p.orders.Perm ((a, n) :: q.orders) := (queue_collect? h).1.map Claim.order

/-- Drops the claims of a holder. What they were given comes back. -/
def withdraw (p : Permits α) (a : α) : Permits α :=
  let others : Permits α := { p with
    queue := p.queue.filter (·.holder ≠ a)
    tight := p.tight.imp_right fun h c hc => h c (List.mem_filter.1 hc).1 }
  others.giveBack (Claim.sumGiven (p.queue.filter (·.holder = a)))

theorem total_withdraw (p : Permits α) (a : α) : (p.withdraw a).total = p.total := by
  have hsplit := Claim.sumGiven_filter (·.holder = a) p.queue
  rw [withdraw, total_giveBack]
  simp only [total, decide_not] at hsplit ⊢
  omega

theorem orders_withdraw (p : Permits α) (a : α) :
    (p.withdraw a).orders = p.orders.filter (·.1 ≠ a) := by
  rw [withdraw, orders_giveBack, orders, orders, List.filter_map]
  rfl

end Permits
end PhaseKeeper
