import Mathlib.Data.String.Basic
import Mathlib.Tactic.Common
import PhaseKeeper.Json.Value
import PhaseKeeper.Number.Binary64
import PhaseKeeper.Text.Utf8
/-!
The JSON values that can travel in MessagePack, and what it takes for a list of members to be an
object.
-/
namespace PhaseKeeper.Json

def Ordered (members : List (String × Json)) : Prop := members.Pairwise (·.1 < ·.1)

mutual

/-- Integers are those of 64 bits, signed or not, and floats are finite. No text, list or object is
longer than a MessagePack length can say. -/
def Fits : Json → Prop
  | .null => True
  | .bool _ => True
  | .int n => -0x8000000000000000 ≤ n ∧ n < UInt64.size
  | .float bits => Binary64.isFinite bits = true
  | .text s => (bytesOf s).length < UInt32.size
  | .list items => items.length < UInt32.size ∧ FitsItems items
  | .object members =>
    members.length < UInt32.size ∧ Ordered members ∧ FitsMembers members

def FitsItems : List Json → Prop
  | [] => True
  | j :: r => j.Fits ∧ FitsItems r

def FitsMembers : List (String × Json) → Prop
  | [] => True
  | (k, j) :: r => (bytesOf k).length < UInt32.size ∧ j.Fits ∧ FitsMembers r

end

theorem fitsItems_iff {items : List Json} : FitsItems items ↔ ∀ j ∈ items, j.Fits := by
  induction items with
  | nil => simp [FitsItems]
  | cons j r ih => simp [FitsItems, ih]

theorem fitsMembers_iff {members : List (String × Json)} : FitsMembers members ↔
    ∀ m ∈ members, (bytesOf m.1).length < UInt32.size ∧ m.2.Fits := by
  induction members with
  | nil => simp [FitsMembers]
  | cons m r ih => simp [FitsMembers, ih, and_assoc]

theorem depthItems_le_iff {items : List Json} {d : Nat} :
    depthItems items ≤ d ↔ ∀ j ∈ items, j.depth ≤ d := by
  induction items with
  | nil => simp [depthItems]
  | cons j r ih => simp [depthItems, ih]

theorem depthMembers_le_iff {members : List (String × Json)} {d : Nat} :
    depthMembers members ≤ d ↔ ∀ m ∈ members, m.2.depth ≤ d := by
  induction members with
  | nil => simp [depthMembers]
  | cons m r ih => simp [depthMembers, ih]

theorem insert_mem {k : String} {j : Json} {members : List (String × Json)} {m : String × Json}
    (h : m ∈ insert k j members) : m = (k, j) ∨ m ∈ members := by
  induction members with
  | nil => simpa [insert] using h
  | cons m' r ih =>
    simp only [insert] at h
    split_ifs at h <;> grind

theorem insert_length_le (k : String) (j : Json) (members : List (String × Json)) :
    (insert k j members).length ≤ members.length + 1 := by
  induction members with
  | nil => simp [insert]
  | cons m r ih =>
    simp only [insert]
    split_ifs <;> simp_all

theorem insert_ordered {k : String} {j : Json} {members : List (String × Json)}
    (h : Ordered members) : Ordered (insert k j members) := by
  induction members with
  | nil => exact List.pairwise_singleton _ _
  | cons m r ih =>
    obtain ⟨hm, hr⟩ := List.pairwise_cons.1 h
    simp only [insert]
    split_ifs with hlt heq
    · refine List.pairwise_cons.2 ⟨fun x hx => ?_, h⟩
      obtain rfl | hx := List.mem_cons.1 hx
      · exact hlt
      · exact hlt.trans (hm x hx)
    · subst heq
      exact List.pairwise_cons.2 ⟨hm, hr⟩
    · refine List.pairwise_cons.2 ⟨fun x hx => ?_, ih hr⟩
      obtain rfl | hx := insert_mem hx
      · exact lt_of_le_of_ne (not_lt.1 hlt) (Ne.symm heq)
      · exact hm x hx

theorem insert_last {k : String} {j : Json} {members : List (String × Json)}
    (h : ∀ m ∈ members, m.1 < k) : insert k j members = members ++ [(k, j)] := by
  induction members with
  | nil => rfl
  | cons m r ih =>
    have hm : m.1 < k := h m List.mem_cons_self
    rw [insert, if_neg hm.not_gt, if_neg hm.ne', ih fun x hx => h x (List.mem_cons_of_mem m hx)]
    rfl

theorem ofMembers_ordered {members : List (String × Json)} (h : Ordered members) :
    ofMembers members = .object members := by
  suffices hfold : ∀ before, Ordered (before ++ members) →
      members.foldl (fun ms m => insert m.1 m.2 ms) before = before ++ members by
    exact congrArg Json.object (hfold [] h)
  clear h
  induction members with
  | nil => simp
  | cons m r ih =>
    intro before hb
    have hlast : ∀ x ∈ before, x.1 < m.1 := fun x hx =>
      (List.pairwise_append.1 hb).2.2 x hx m List.mem_cons_self
    rw [List.foldl_cons, insert_last hlast, ih _ (by simpa using hb)]
    simp

/-- Whatever members an object is made of, it has some of them, in order. -/
theorem ofMembers_spec (members : List (String × Json)) : ∃ kept, ofMembers members = .object kept ∧
    Ordered kept ∧ kept.length ≤ members.length ∧ ∀ m ∈ kept, m ∈ members := by
  suffices hfold : ∀ before, Ordered before →
      Ordered (members.foldl (fun ms m => insert m.1 m.2 ms) before) ∧
      (members.foldl (fun ms m => insert m.1 m.2 ms) before).length ≤
        before.length + members.length ∧
      ∀ m ∈ members.foldl (fun ms m => insert m.1 m.2 ms) before, m ∈ before ∨ m ∈ members by
    obtain ⟨ho, hl, hm⟩ := hfold [] List.Pairwise.nil
    exact ⟨_, rfl, ho, by simpa using hl, fun m h => (hm m h).resolve_left List.not_mem_nil⟩
  induction members with
  | nil => exact fun before hb => ⟨hb, le_refl _, fun m h => .inl h⟩
  | cons m r ih =>
    intro before hb
    obtain ⟨ho, hl, hm⟩ := ih (insert m.1 m.2 before) (insert_ordered hb)
    refine ⟨ho, ?_, fun x hx => ?_⟩
    · have := insert_length_le m.1 m.2 before
      simp only [List.foldl_cons, List.length_cons] at hl ⊢
      omega
    · obtain hx | hx := hm x hx
      · obtain rfl | hx := insert_mem hx
        · exact .inr List.mem_cons_self
        · exact .inl hx
      · exact .inr (List.mem_cons_of_mem m hx)

end PhaseKeeper.Json
