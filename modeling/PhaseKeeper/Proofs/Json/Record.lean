import Mathlib.Data.List.Nodup
import PhaseKeeper.Json.Record
import PhaseKeeper.Proofs.Json.Fit
/-!
Records out of JSON. A record that is read from an object is read from it still when the object has
members of other names besides, and from the list of what stands under its fields.
-/
namespace PhaseKeeper.Json

def extend (more : List (String × Json)) : Json → Json
  | .object members => .object (more.foldl (fun ms m => insert m.1 m.2 ms) members)
  | j => j

/-- What stands under the names, in their order, and `null` where nothing does. -/
def inOrder (names : List String) (j : Json) : Json :=
  .list (names.map fun name => (j.get? name).getD .null)

/-- A value is read from its JSON form, with any members of other names beside its own, and from the
list of its own. -/
structure Restores {α : Type} (read : Reader α) (names : List String) (j : Json) (a : α) : Prop where
  whole : read j = .ok a
  among : ∀ more : List (String × Json), (∀ m ∈ more, m.1 ∉ names) → read (j.extend more) = .ok a
  inOrder : read (j.inOrder names) = .ok a

theorem lookup_insert_ne {key name : String} (h : name ≠ key) (j : Json)
    (members : List (String × Json)) :
    (insert key j members).lookup name = members.lookup name := by
  have hkey : (name == key) = false := beq_false_of_ne h
  induction members with
  | nil => simp [insert, h]
  | cons m r ih =>
    obtain ⟨k, v⟩ := m
    simp only [insert]
    split_ifs with hlt heq
    · rw [List.lookup_cons, hkey]
    · subst heq
      simp only [List.lookup_cons, hkey]
    · simp only [List.lookup_cons, ih]

theorem lookup_extend {names : List String} {more : List (String × Json)}
    (h : ∀ m ∈ more, m.1 ∉ names) {name : String} (hname : name ∈ names)
    (members : List (String × Json)) :
    (more.foldl (fun ms m => insert m.1 m.2 ms) members).lookup name = members.lookup name := by
  induction more generalizing members with
  | nil => rfl
  | cons m r ih =>
    obtain ⟨hm, hr⟩ := List.forall_mem_cons.1 h
    have hne : name ≠ m.1 := fun heq => hm (heq ▸ hname)
    rw [List.foldl_cons, ih hr, lookup_insert_ne hne]

theorem mem_extend {more members : List (String × Json)} {m : String × Json}
    (h : m ∈ more.foldl (fun ms m => insert m.1 m.2 ms) members) : m ∈ more ∨ m ∈ members := by
  induction more generalizing members with
  | nil => exact .inr h
  | cons m' r ih =>
    obtain h | h := ih h
    · exact .inl (List.mem_cons_of_mem m' h)
    · obtain rfl | h := insert_mem h
      · exact .inl List.mem_cons_self
      · exact .inr h

theorem lookup_zip {names : List String} {name : String} (h : name ∈ names) (f : String → Json) :
    (names.zip (names.map f)).lookup name = some (f name) := by
  induction names with
  | nil => exact absurd h List.not_mem_nil
  | cons k r ih =>
    by_cases hk : name = k
    · simp [hk]
    · have hr : name ∈ r := (List.mem_cons.1 h).resolve_left hk
      simp only [List.map_cons, List.zip_cons_cons, List.lookup_cons, beq_false_of_ne hk, ih hr]

namespace Record
variable {α : Type} {r : Record} {build : Members → Except ShapeError α} {read : Reader α} {a : α}
  {members : List (String × Json)}

def names (r : Record) : List String := r.fields.map Field.name

/-- The reader is that of a record whose fields have names of their own and all together are enough
for a list, and nothing else counts than what stands under them. -/
structure Governs (r : Record) (read : Reader α) : Prop where
  distinct : r.names.Nodup
  enough : r.least ≤ r.fields.length
  reads : ∃ build, read = r.read build ∧
    ∀ ms ms' : Members, (∀ name ∈ r.names, ms name = ms' name) → build ms = build ms'

theorem forM_checkMember_iff :
    members.forM r.checkMember = .ok () ↔ ∀ m ∈ members, r.checkMember m = .ok () := by
  induction members with
  | nil => simp [pure, Except.pure]
  | cons m rest ih =>
    rw [List.forM_eq_forM, List.forM_cons, List.forall_mem_cons, ← ih]
    cases h : r.checkMember m with
    | error e => simp [Bind.bind, Except.bind]
    | ok u => simp [Bind.bind, Except.bind]

theorem read_object_iff : r.read build (.object members) = .ok a ↔
    (∀ m ∈ members, r.checkMember m = .ok ()) ∧ build (fun name => members.lookup name) = .ok a := by
  rw [← forM_checkMember_iff]
  simp only [Record.read]
  cases h : members.forM r.checkMember with
  | error e => simp [Bind.bind, Except.bind]
  | ok u => simp [Bind.bind, Except.bind]

theorem checkMember_other {m : String × Json} (h : m.1 ∉ r.names) : r.checkMember m = .ok () := by
  have hnone : r.fields.find? (·.name = m.1) = none := by
    refine List.find?_eq_none.2 fun f hf heq => h ?_
    exact of_decide_eq_true heq ▸ List.mem_map_of_mem hf
  rw [checkMember, hnone]

theorem find?_field (h : r.names.Nodup) {f : Field} (hf : f ∈ r.fields) :
    r.fields.find? (·.name = f.name) = some f := by
  cases hfind : r.fields.find? (·.name = f.name) with
  | none => simpa using List.find?_eq_none.1 hfind f hf
  | some g =>
    have hname : g.name = f.name := by simpa using List.find?_some hfind
    rw [List.inj_on_of_nodup_map h (List.mem_of_find?_eq_some hfind) hf hname]

theorem checkItems_map {fields : List Field} {f : Field → Json}
    (h : ∀ g ∈ fields, g.accepts (f g) = .ok ()) : checkItems fields (fields.map f) = .ok () := by
  induction fields with
  | nil => rfl
  | cons g r ih =>
    obtain ⟨hg, hr⟩ := List.forall_mem_cons.1 h
    rw [List.map_cons, checkItems, hg]
    exact ih hr

/-- A list that is long enough and not too long, each of whose items may stand where it does, is read
as its items under the names of the fields. -/
theorem read_list {items : List Json} (hitems : checkItems r.fields items = .ok ())
    (hleast : r.least ≤ items.length) (hlength : items.length ≤ r.fields.length)
    (hbuild : build (fun name => (r.names.zip items).lookup name) = .ok a) :
    r.read build (.list items) = .ok a := by
  rw [names] at hbuild
  simp only [Record.read, hitems, hbuild, hleast.not_gt, hlength.not_gt, Bind.bind, Except.bind,
    ite_false, pure, Except.pure]

namespace Governs

theorem extend (h : r.Governs read) (hread : read (.object members) = .ok a)
    {more : List (String × Json)} (hmore : ∀ m ∈ more, m.1 ∉ r.names) :
    read ((Json.object members).extend more) = .ok a := by
  obtain ⟨build, rfl, hcongr⟩ := h.reads
  obtain ⟨hcheck, hbuild⟩ := read_object_iff.1 hread
  refine read_object_iff.2 ⟨fun m hm => ?_, ?_⟩
  · obtain hm | hm := mem_extend hm
    · exact checkMember_other (hmore m hm)
    · exact hcheck m hm
  · rw [hcongr _ _ fun name hname => lookup_extend hmore hname members, hbuild]

theorem inOrder (h : r.Governs read) (hread : read (.object members) = .ok a)
    (hall : ∀ name ∈ r.names, (members.lookup name).isSome) :
    read ((Json.object members).inOrder r.names) = .ok a := by
  obtain ⟨build, rfl, hcongr⟩ := h.reads
  obtain ⟨hcheck, hbuild⟩ := read_object_iff.1 hread
  have hget {name : String} (hname : name ∈ r.names) :
      members.lookup name = some ((members.lookup name).getD .null) := by
    obtain ⟨j, hj⟩ := Option.isSome_iff_exists.1 (hall name hname)
    rw [hj, Option.getD_some]
  refine read_list ?_ ?_ ?_ ?_
  · rw [names, List.map_map]
    refine checkItems_map fun f hf => ?_
    obtain ⟨before, after, hmembers, -⟩ :=
      List.lookup_eq_some_iff.1 (hget (List.mem_map_of_mem hf))
    have hmember := hcheck _ (hmembers ▸ List.mem_append_right before List.mem_cons_self)
    rwa [checkMember, find?_field h.distinct hf] at hmember
  · simpa [names] using h.enough
  · simp [names]
  · rw [← hbuild]
    refine hcongr _ _ fun name hname => ?_
    rw [lookup_zip hname, hget hname]
    rfl

theorem restores (h : r.Governs read) (hread : read (.object members) = .ok a)
    (hall : (r.names.all fun name => (members.lookup name).isSome) = true) :
    Restores read r.names (.object members) a where
  whole := hread
  among _ := h.extend hread
  inOrder := h.inOrder hread (List.all_eq_true.1 hall)

end Governs
end Record
end PhaseKeeper.Json
