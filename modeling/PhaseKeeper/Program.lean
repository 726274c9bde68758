/-!
Programs as trees: a program has ended, or it asks for something and goes on with the reply. Whoever
answers the requests decides what they do, and in which order those of several programs come.
-/
namespace PhaseKeeper

inductive Program (Request : Type) (Reply : Request → Type) (α : Type) : Type where
  | done (a : α)
  | ask (r : Request) (next : Reply r → Program Request Reply α)

namespace Program
variable {Request : Type} {Reply : Request → Type} {α β σ : Type}

def bind : Program Request Reply α → (α → Program Request Reply β) → Program Request Reply β
  | .done a, f => f a
  | .ask r next, f => .ask r fun x => (next x).bind f

instance : Monad (Program Request Reply) where
  pure := .done
  bind := bind

def call (r : Request) : Program Request Reply (Reply r) := .ask r .done

/-- The outcome when every request is answered at once, by `answer`. -/
def run (answer : (r : Request) → σ → Reply r × σ) : Program Request Reply α → σ → α × σ
  | .done a, s => (a, s)
  | .ask r next, s => (next (answer r s).1).run answer (answer r s).2

@[simp] theorem pure_bind (a : α) (f : α → Program Request Reply β) :
    (pure a : Program Request Reply α) >>= f = f a := rfl

@[simp] theorem ask_bind (r : Request) (next : Reply r → Program Request Reply α)
    (f : α → Program Request Reply β) :
    Program.ask r next >>= f = .ask r fun x => next x >>= f := rfl

@[simp] theorem bind_done (p : Program Request Reply α) : p.bind .done = p := by
  induction p with
  | done => rfl
  | ask r next ih => simp [bind, ih]

theorem bind_assoc {γ : Type} (p : Program Request Reply α) (f : α → Program Request Reply β)
    (g : β → Program Request Reply γ) : (p.bind f).bind g = p.bind fun a => (f a).bind g := by
  induction p with
  | done => rfl
  | ask r next ih => simp [bind, ih]

theorem run_bind (answer : (r : Request) → σ → Reply r × σ) (p : Program Request Reply α)
    (f : α → Program Request Reply β) (s : σ) :
    (p >>= f).run answer s = (f (p.run answer s).1).run answer (p.run answer s).2 := by
  induction p generalizing s with
  | done => rfl
  | ask r next ih => exact ih _ _

end Program
end PhaseKeeper
