/-! The phases of a job, in the order in which it goes through them. -/
namespace PhaseKeeper

inductive Phase where
  | collection
  | featureExtraction
  | matching
  | evidence
  | completed
deriving DecidableEq, Repr, Inhabited

namespace Phase

def all : List Phase := [.collection, .featureExtraction, .matching, .evidence, .completed]

def rank : Phase → Nat
  | .collection => 0
  | .featureExtraction => 1
  | .matching => 2
  | .evidence => 3
  | .completed => 4

instance : LT Phase := ⟨fun p q => p.rank < q.rank⟩
instance : LE Phase := ⟨fun p q => p.rank ≤ q.rank⟩
instance (p q : Phase) : Decidable (p < q) := inferInstanceAs (Decidable (p.rank < q.rank))
instance (p q : Phase) : Decidable (p ≤ q) := inferInstanceAs (Decidable (p.rank ≤ q.rank))

def order (p q : Phase) : Ordering := compare p.rank q.rank

def name : Phase → String
  | .collection => "collection"
  | .featureExtraction => "feature_extraction"
  | .matching => "matching"
  | .evidence => "evidence"
  | .completed => "completed"

def named : List (String × Phase) := all.map fun p => (p.name, p)

def ofName? (s : String) : Option Phase := named.lookup s

def isTerminal (p : Phase) : Bool := p = .completed

inductive Error where
  | unknown (name : String)
  | backward (source target : Phase)
deriving DecidableEq, Repr

def Error.message : Error → String
  | .unknown s => "unknown phase: " ++ s
  | .backward p q => "phase cannot move backward from " ++ p.name ++ " to " ++ q.name

def parse (s : String) : Except Error Phase :=
  match ofName? s with
  | some p => .ok p
  | none => .error (.unknown s)

def ensureForward (p q : Phase) : Except Error Unit :=
  if p < q then .ok () else .error (.backward p q)

theorem rank_injective {p q : Phase} (h : p.rank = q.rank) : p = q := by
  cases p <;> cases q <;> first | rfl | cases h

theorem mem_all (p : Phase) : p ∈ all := by cases p <;> decide

theorem ofName?_name (p : Phase) : ofName? p.name = some p := by cases p <;> rfl

end Phase
end PhaseKeeper
