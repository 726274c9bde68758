/-!
The identifiers that were used last, up to a number of them, from the latest to the earliest. To look
one up is to use it.
-/
namespace PhaseKeeper

structure RecentIds where
  capacity : Nat
  ids : List String
deriving DecidableEq, Repr

namespace RecentIds

def usualCapacity : Nat := 10000

def ofCapacity (n : Nat) : RecentIds := ⟨max n 1, []⟩

def use (r : RecentIds) (id : String) : RecentIds :=
  { r with ids := (id :: r.ids.erase id).take r.capacity }

/-- Whether an identifier is held; if so it is now the latest. -/
def lookUp (r : RecentIds) (id : String) : Bool × RecentIds :=
  if r.ids.contains id then (true, r.use id) else (false, r)

def size (r : RecentIds) : Nat := r.ids.length

variable {r : RecentIds} {id i : String}

theorem mem_use (h : i ∈ (r.use id).ids) : i = id ∨ i ∈ r.ids := by
  have hm : i ∈ id :: r.ids.erase id := List.mem_of_mem_take h
  exact (List.mem_cons.1 hm).imp_right List.mem_of_mem_erase

theorem lookUp_of_mem (h : id ∈ r.ids) : r.lookUp id = (true, r.use id) :=
  if_pos (List.contains_iff_mem.2 h)

theorem lookUp_of_not_mem (h : id ∉ r.ids) : r.lookUp id = (false, r) :=
  if_neg fun hc => h (List.contains_iff_mem.1 hc)

theorem mem_of_hit (h : (r.lookUp id).1 = true) : id ∈ r.ids := by
  by_cases hm : id ∈ r.ids
  · exact hm
  · rw [lookUp_of_not_mem hm] at h
    cases h

theorem mem_of_mem_lookUp (h : i ∈ (r.lookUp id).2.ids) : i ∈ r.ids := by
  by_cases hm : id ∈ r.ids
  · rw [lookUp_of_mem hm] at h
    obtain rfl | h := mem_use h
    · exact hm
    · exact h
  · rwa [lookUp_of_not_mem hm] at h

end RecentIds
end PhaseKeeper
