import Mathlib.Tactic.Common
import PhaseKeeper.MessagePack.Record
import PhaseKeeper.Proofs.MessagePack.Skipping
/-!
Records in MessagePack. Both of their forms, the list of the fields and the map from their names in any
order and among other keys, are read part by part; and what holds of everything that the fields are
read as holds of all parts.
-/
namespace PhaseKeeper.MessagePack

section Forms
variable {P : Type} {r : Record P} {i n : Nat} {p : P} {ps : List P} {front back : Bytes}

theorem reads_items_nil (r : Record P) (i : Nat) : Reads (r.items i 0) [] [] := .pure []

theorem reads_items_cons (h : Reads (r.part i) front p) (h' : Reads (r.items (i + 1) n) back ps) :
    Reads (r.items i (n + 1)) (front ++ back) (p :: ps) :=
  h.bind (h'.finish (.pure _))

theorem reads_list (hn : Spells (.list n) front) (hleast : r.least ≤ n) (hall : n ≤ r.fields.length)
    (h : Reads (r.items 0 n) back ps) : Reads r.read (front ++ back) ps := by
  refine hn.reads.bind ?_
  simp only [Nat.min_eq_left hall, if_neg (Nat.not_lt.2 hleast), if_neg (Nat.not_lt.2 hall)]
  exact h.finish (.pure _)

theorem reads_entries_nil (r : Record P) (seen : List Nat) : Reads (r.entries seen 0) [] [] :=
  .pure []

theorem reads_entries_field {k : Head} {key : Bytes} {seen : List Nat} (hk : Spells k key)
    (hfield : r.fieldOf k = .ok (some i)) (hnew : seen.contains i = false)
    (h : Reads (r.part i) front p) (h' : Reads (r.entries (i :: seen) n) back ps) :
    Reads (r.entries seen (n + 1)) (key ++ front ++ back) (p :: ps) := by
  rw [List.append_assoc]
  refine hk.reads.bind ((Reads.lift hfield).bind ?_)
  simp only [hnew]
  exact h.bind (h'.finish (.pure _))

theorem reads_entries_other {k : Head} {key : Bytes} {seen : List Nat} (hk : Spells k key)
    (hother : r.fieldOf k = .ok none) (h : Reads (skip (maxDepth - 1)) front ())
    (h' : Reads (r.entries seen n) back ps) :
    Reads (r.entries seen (n + 1)) (key ++ front ++ back) ps := by
  rw [List.append_assoc]
  exact hk.reads.bind ((Reads.lift hother).bind (h.bind h'))

theorem reads_map (hn : Spells (.map n) front) (h : Reads (r.entries [] n) back ps) :
    Reads r.read (front ++ back) ps :=
  hn.reads.bind h

end Forms

/-- A key that names no field, neither by its name nor by its place. -/
def Record.Unknown {P : Type} (r : Record P) : Head → Prop
  | .text bytes | .binary bytes => ∀ name ∈ r.fields, bytesOf name ≠ bytes
  | .uint n => r.fields.length ≤ n
  | _ => False

theorem fieldOf_unknown {P : Type} {r : Record P} {k : Head} (h : r.Unknown k) :
    r.fieldOf k = .ok none := by
  cases k with
  | text bytes | binary bytes =>
    exact congrArg Except.ok (List.findIdx?_eq_none_iff.2 fun name hname =>
      decide_eq_false (h name hname))
  | uint n => exact congrArg Except.ok (if_neg (Nat.not_lt.2 h))
  | _ => exact h.elim

theorem fieldOf_name {P : Type} {r : Record P} {i : Nat} {name : String} (hfields : r.fields.Nodup)
    (h : r.fields[i]? = some name) : r.fieldOf (.text (bytesOf name)) = .ok (some i) := by
  obtain ⟨hi, rfl⟩ := List.getElem?_eq_some_iff.1 h
  refine congrArg Except.ok (List.findIdx?_eq_some_iff_getElem.2 ⟨hi, by simp, fun j hj => ?_⟩)
  simp only [decide_eq_true_eq]
  intro heq
  exact Nat.ne_of_lt hj ((List.Nodup.getElem_inj_iff hfields).1 (bytesOf_injective heq))

/-- An entry of a record in a map: a field under its name, or any item under another key. -/
inductive Record.Entry {P : Type} (r : Record P) (field : Nat → Bytes → Prop) :
    Option Nat → Bytes → Prop where
  | known {i : Nat} {name : String} {key body : Bytes} (hname : r.fields[i]? = some name)
    (hk : Spells (.text (bytesOf name)) key) (h : field i body) : r.Entry field (some i) (key ++ body)
  | unknown {k : Head} {key body : Bytes} (hk : Spells k key) (hother : r.Unknown k)
    (h : Item (maxDepth - 1) body) : r.Entry field none (key ++ body)

section Whole
variable {P : Type} {r : Record P} {field : Nat → Bytes → Prop} {part : Nat → P}

theorem reads_items_all (hpart : ∀ i bytes, field i bytes → Reads (r.part i) bytes (part i)) {i : Nat}
    {fields : List Bytes} (h : List.Forall₂ field (List.range' i fields.length) fields) :
    Reads (r.items i fields.length) fields.flatten
      ((List.range' i fields.length).map part) := by
  induction fields generalizing i with
  | nil => exact reads_items_nil r i
  | cons bytes fields ih =>
    obtain ⟨hfield, hrest⟩ := List.forall₂_cons.1 h
    exact reads_items_cons (hpart i bytes hfield) (ih hrest)

/-- The fields are read in the order in which they stand, and nothing else is. -/
theorem reads_entries_all (hfields : r.fields.Nodup)
    (hpart : ∀ i bytes, field i bytes → Reads (r.part i) bytes (part i)) {seen : List Nat}
    {entries : List (Option Nat × Bytes)} (h : ∀ e ∈ entries, r.Entry field e.1 e.2)
    (honce : (seen ++ entries.filterMap Prod.fst).Nodup) :
    Reads (r.entries seen entries.length) (entries.flatMap Prod.snd)
      ((entries.filterMap Prod.fst).map part) := by
  induction entries generalizing seen with
  | nil => exact reads_entries_nil r seen
  | cons e entries ih =>
    obtain ⟨hentry, hrest⟩ := List.forall_mem_cons.1 h
    obtain ⟨key, bytes⟩ := e
    cases hentry with
    | @known i name key body hname hk hbody =>
      have hperm : (seen ++ i :: entries.filterMap Prod.fst).Perm
        ((i :: seen) ++ entries.filterMap Prod.fst) := List.perm_middle
      have honce' := hperm.nodup_iff.1 honce
      have hnew : seen.contains i = false := by
        have := (List.nodup_cons.1 honce').1
        simp_all
      exact reads_entries_field hk (fieldOf_name hfields hname) hnew (hpart i body hbody)
        (ih hrest honce')
    | unknown hk hother hbody =>
      exact reads_entries_other hk (fieldOf_unknown hother) (reads_skip hbody) (ih hrest honce)

theorem reads_writeRecord (hfields : r.fields.Nodup)
    (hshort : ∀ name ∈ r.fields, (bytesOf name).length < UInt32.size)
    (hcount : r.fields.length < UInt32.size) {named : List (String × Bytes)}
    (hnames : named.map Prod.fst = r.fields)
    (hpart : ∀ i f, named[i]? = some f → Reads (r.part i) f.2 (part i)) :
    Reads r.read (writeRecord named) ((List.range named.length).map part) := by
  let entries : List (Option Nat × Bytes) :=
    named.zipIdx.map fun f => (some f.2, writeText f.1.1 ++ f.1.2)
  have hplaces : entries.filterMap Prod.fst = List.range named.length := by
    simp [entries, List.filterMap_map, List.zipIdx_map_snd, List.range_eq_range']
  have hbytes : entries.flatMap Prod.snd = named.flatMap fun f => writeText f.1 ++ f.2 := by
    have hfst := List.zipIdx_map_fst 0 named
    conv_rhs => rw [← hfst]
    simp only [entries, List.flatMap_map]
  let field (i : Nat) (bytes : Bytes) : Prop := ∃ f, named[i]? = some f ∧ bytes = f.2
  have hfield : ∀ i bytes, field i bytes → Reads (r.part i) bytes (part i) := by
    rintro i bytes ⟨f, hf, rfl⟩
    exact hpart i f hf
  have hentries : ∀ e ∈ entries, r.Entry field e.1 e.2 := by
    intro e he
    obtain ⟨⟨f, i⟩, hf, rfl⟩ := List.mem_map.1 he
    have hget := List.mem_zipIdx_iff_getElem?.1 hf
    have hname : r.fields[i]? = some f.1 := by rw [← hnames, List.getElem?_map, hget]; rfl
    exact .known hname (spells_writeText (hshort f.1 (List.mem_of_getElem? hname))) ⟨f, hget, rfl⟩
  have honce : ([] ++ entries.filterMap Prod.fst).Nodup := by
    rw [List.nil_append, hplaces]
    exact List.nodup_range
  have hread := reads_entries_all hfields hfield hentries honce
  have hlength : entries.length = named.length := by simp [entries]
  rw [hplaces, hbytes, hlength] at hread
  have hcount' : named.length < UInt32.size := by
    rwa [← hnames, List.length_map] at hcount
  exact reads_map (spells_writeMapHead hcount') hread

theorem read_long {n : Nat} {front : Bytes} (hn : Spells (.list n) front)
    (h : r.fields.length < n) (rest : Bytes) : ∃ e, r.read (front ++ rest) = .error e := by
  have hnever : Ensures (do
      let ps ← r.items 0 (min n r.fields.length)
      if n < r.least then throw (r.wrongLength n)
      if r.fields.length < n then throw (.wrongCount r.fields.length)
      return ps) fun _ => False := by
    refine (Ensures.any _).bind fun ps _ => ?_
    simp only [if_pos h]
    split_ifs
    · exact .throw_bind _
    · exact .throw_bind _
  cases hr : r.read (front ++ rest) with
  | error e => exact ⟨e, rfl⟩
  | ok x =>
    rw [Record.read, hn.reads.bind_eq] at hr
    exact (hnever rest x.1 x.2 hr).elim

end Whole

theorem require_some {P α : Type} {ps : List P} {name : String} {pick : P → Option α} {a : α}
    (h : require ps name pick = .ok a) : ∃ p ∈ ps, pick p = some a := by
  rw [require] at h
  split at h
  · rename_i b hb
    cases h
    exact List.exists_of_findSome?_eq_some hb
  · cases h

section Whatever
variable {P : Type} {r : Record P} {Q : P → Prop}

theorem items_ensures (h : ∀ i, Ensures (r.part i) Q) (i n : Nat) :
    Ensures (r.items i n) fun ps => ∀ p ∈ ps, Q p := by
  induction n generalizing i with
  | zero => exact .pure fun p hp => absurd hp List.not_mem_nil
  | succ n ih =>
    exact (h i).bind fun p hp => (ih (i + 1)).bind fun ps hps =>
      .pure (List.forall_mem_cons.2 ⟨hp, hps⟩)

theorem entries_ensures (h : ∀ i, Ensures (r.part i) Q) (seen : List Nat) (n : Nat) :
    Ensures (r.entries seen n) fun ps => ∀ p ∈ ps, Q p := by
  induction n generalizing seen with
  | zero => exact .pure fun p hp => absurd hp List.not_mem_nil
  | succ n ih =>
    refine (Ensures.any head).bind fun k _ => (Ensures.any _).bind fun i _ => ?_
    cases i with
    | none => exact (Ensures.any _).bind fun _ _ => ih seen
    | some i =>
      have hrest : Ensures (do
          let p ← r.part i
          let ps ← r.entries (i :: seen) n
          return p :: ps) fun ps => ∀ p ∈ ps, Q p :=
        (h i).bind fun p hp => (ih (i :: seen)).bind fun ps hps =>
          .pure (List.forall_mem_cons.2 ⟨hp, hps⟩)
      dsimp only
      split_ifs
      · exact .throw_bind _
      · exact hrest

theorem read_ensures (h : ∀ i, Ensures (r.part i) Q) : Ensures r.read fun ps => ∀ p ∈ ps, Q p := by
  refine (Ensures.any head).bind fun k _ => ?_
  cases k with
  | list n =>
    refine (items_ensures h 0 _).bind fun ps hps => ?_
    dsimp only
    split_ifs
    · exact .throw_bind _
    · exact .throw_bind _
    · exact .throw_bind _
    · exact .pure hps
  | map n => exact entries_ensures h [] n
  | binary bytes => cases bytes <;> exact .throw _
  | _ => exact .throw _

end Whatever

def Head.isScalar : Head → Bool
  | .nothing | .bool _ | .uint _ | .int _ | .float _ => true
  | _ => false

theorem Spells.isScalar {h : Head} {bytes : Bytes} (hs : Spells h bytes) (hh : h.isScalar = true) :
    ∃ b r, bytes = b :: r ∧ (Marker.ofByte b).isScalar = true := by
  cases hs with
  | nothing => exact ⟨_, _, rfl, by decide⟩
  | bool b => exact ⟨_, _, rfl, by cases b <;> decide⟩
  | posFix h => exact ⟨_, _, rfl, by rw [ofByte_posFix h]; rfl⟩
  | uint hk _ => exact ⟨_, _, rfl, by rw [ofByte_uint _ hk]; rfl⟩
  | negFix hpos h => exact ⟨_, _, rfl, by rw [ofByte_negFix (by omega) (by omega)]; rfl⟩
  | int hk _ _ => exact ⟨_, _, rfl, by rw [ofByte_int _ hk]; rfl⟩
  | float32 _ => exact ⟨_, _, rfl, by decide⟩
  | float64 _ => exact ⟨_, _, rfl, by decide⟩
  | _ => cases hh

theorem reads_scalarHead {bytes : Bytes} {h : Head} (hs : Spells h bytes)
    (hh : h.isScalar = true) : Reads scalarHead bytes h := by
  obtain ⟨b, r, rfl, hb⟩ := hs.isScalar hh
  have hbody : Reads (headOf (.ofByte b)) r h := hs.reads
  have hscalar : Reads (if (Marker.ofByte b).isScalar then headOf (.ofByte b)
      else throw (.wrongMarker (.ofByte b))) r h := by rwa [if_pos hb]
  exact (reads_marker b).bind hscalar

theorem reads_uint16 {n : UInt16} {bytes : Bytes}
    (hs : Spells (.uint n.toNat) bytes ∨ Spells (.int n.toNat) bytes) : Reads uint16 bytes n := by
  have hsmall : Reads (uint16.small n.toNat) [] n := by
    have hlt : n.toNat < UInt16.size := n.toNat_lt
    have hrange : (0 : Int) ≤ n.toNat ∧ (n.toNat : Int) < UInt16.size := by omega
    simp only [uint16.small, if_pos hrange, Int.toNat_natCast, UInt16.ofNat_toNat]
    exact .pure n
  obtain hs | hs := hs
  · exact (reads_scalarHead hs rfl).finish hsmall
  · exact (reads_scalarHead hs rfl).finish hsmall

theorem reads_optionalBool (b : Bool) : Reads optionalBool (write (.bool b)) (some b) :=
  (reads_scalarHead (.bool b) rfl).finish (.pure _)

end PhaseKeeper.MessagePack
