import Mathlib.Data.String.Basic
import Mathlib.Tactic.Common
import PhaseKeeper.Event.Registry
import PhaseKeeper.Proofs.Text.Order
/-!
What a registry makes of a payload, whatever was registered in it and in which order: of each type the
schema that came last counts, and of its rules the first one that the payload breaks.
-/
namespace PhaseKeeper

def Blank (s : String) : Prop := ∀ c ∈ s.toList, Text.isBlank c = true

theorem not_blank {s : String} (c : Char) (hc : c ∈ s.toList) (h : Text.isBlank c = false) :
    ¬ Blank s := fun hs => by
  simp [hs c hc] at h

inductive FieldKind.Has : FieldKind → Json → Prop where
  | identifier {s : String} (h : ¬ Blank s) : Has .identifier (.text s)
  | text (s : String) : Has .text (.text s)
  | bool (b : Bool) : Has .bool (.bool b)
  | integer (n : Int) : Has .integer (.int n)
  | whole (n : Int) : Has .number (.int n)
  | float (bits : UInt64) : Has .number (.float bits)
  | object (members : List (String × Json)) : Has .object (.object members)
  | list (items : List Json) : Has .list (.list items)

theorem FieldKind.accepts_iff {k : FieldKind} {j : Json} : k.accepts j = true ↔ k.Has j := by
  constructor
  · intro h
    fun_cases FieldKind.accepts k j with
    | case1 s => exact .identifier (by simpa [accepts, Blank] using h)
    | case2 s => exact .text s
    | case3 b => exact .bool b
    | case4 n => exact .integer n
    | case5 n => exact .whole n
    | case6 bits => exact .float bits
    | case7 members => exact .object members
    | case8 items => exact .list items
    | case9 => simp_all [accepts]
  · rintro (h | _)
    · simpa [accepts, Blank] using h
    all_goals rfl

theorem FieldKind.not_has_null (k : FieldKind) : ¬ k.Has .null := nofun

/-- There is no member under the name, or it is null. -/
def Json.Lacks (payload : Json) (name : String) : Prop :=
  payload.get? name = none ∨ payload.get? name = some .null

namespace FieldRule
variable {f : FieldRule} {payload : Json}

/-- A member that is there has to be of the right kind, and one that is required has to be there. -/
def Holds (f : FieldRule) (payload : Json) : Prop :=
  (∃ j, payload.get? f.name = some j ∧ f.kind.Has j) ∨ f.required = false ∧ payload.Lacks f.name

theorem holds_of_lacks (h : payload.Lacks f.name) : f.Holds payload ↔ f.required = false := by
  refine ⟨?_, fun hr => .inr ⟨hr, h⟩⟩
  rintro (⟨j, hj, hkind⟩ | ⟨hr, -⟩)
  · obtain h | h := h <;> rw [h] at hj <;> cases hj
    exact absurd hkind f.kind.not_has_null
  · exact hr

theorem holds_of_member {j : Json} (hj : payload.get? f.name = some j) (hnull : j ≠ .null) :
    f.Holds payload ↔ f.kind.Has j := by
  refine ⟨?_, fun h => .inl ⟨j, hj, h⟩⟩
  rintro (⟨j', hj', hkind⟩ | ⟨-, h | h⟩)
  · rw [hj] at hj'
    cases hj'
    exact hkind
  · rw [h] at hj
    cases hj
  · rw [h] at hj
    cases hj
    exact absurd rfl hnull

theorem fault?_lacks (h : payload.Lacks f.name) :
    f.fault? (payload.get? f.name) = if f.required then some .missing else none := by
  obtain h | h := h <;> rw [h] <;> rfl

theorem fault?_member {j : Json} (hj : payload.get? f.name = some j) (hnull : j ≠ .null) :
    f.fault? (payload.get? f.name) = if f.kind.accepts j then none else some (.wrongKind f.kind) := by
  rw [hj]
  cases j <;> first | rfl | exact absurd rfl hnull

theorem lacks_or_member (payload : Json) (name : String) :
    payload.Lacks name ∨ ∃ j, payload.get? name = some j ∧ j ≠ .null := by
  cases h : payload.get? name with
  | none => exact .inl (.inl h)
  | some j =>
    cases j with
    | null => exact .inl (.inr h)
    | _ => exact .inr ⟨_, rfl, by simp⟩

theorem fault?_eq_none_iff : f.fault? (payload.get? f.name) = none ↔ f.Holds payload := by
  obtain h | ⟨j, hj, hnull⟩ := lacks_or_member payload f.name
  · rw [fault?_lacks h, holds_of_lacks h]
    cases f.required <;> simp
  · rw [fault?_member hj hnull, holds_of_member hj hnull, ← FieldKind.accepts_iff]
    cases f.kind.accepts j <;> simp

theorem fault?_of_not_holds (h : ¬ f.Holds payload) :
    ∃ reason ∈ [.missing, .wrongKind f.kind], f.fault? (payload.get? f.name) = some reason ∧
      (reason = .missing ↔ payload.Lacks f.name) := by
  obtain hl | ⟨j, hj, hnull⟩ := lacks_or_member payload f.name
  · have hr : f.required = true := by simpa [holds_of_lacks hl] using h
    exact ⟨.missing, by simp, by rw [fault?_lacks hl, if_pos hr], by simp [hl]⟩
  · rw [holds_of_member hj hnull, ← FieldKind.accepts_iff] at h
    have hl : ¬ payload.Lacks f.name := by simp [Json.Lacks, hj, hnull]
    exact ⟨.wrongKind f.kind, by simp, by rw [fault?_member hj hnull, if_neg h], by simp [hl]⟩

end FieldRule

namespace EventSchema
variable {t : String} {payload : Json} {rules : List FieldRule}

theorem checkFields_ok_iff : checkFields t payload rules = .ok () ↔ ∀ f ∈ rules, f.Holds payload := by
  induction rules with
  | nil => simp [checkFields]
  | cons f rules ih =>
    rw [checkFields, List.forall_mem_cons, ← FieldRule.fault?_eq_none_iff]
    cases hf : f.fault? (payload.get? f.name) with
    | none => simp [ih]
    | some reason => simp

theorem checkFields_append {before : List FieldRule} (h : ∀ g ∈ before, g.Holds payload) :
    checkFields t payload (before ++ rules) = checkFields t payload rules := by
  induction before with
  | nil => rfl
  | cons g before ih =>
    obtain ⟨hg, hbefore⟩ := List.forall_mem_cons.1 h
    rw [List.cons_append, checkFields, FieldRule.fault?_eq_none_iff.2 hg]
    exact ih hbefore

theorem checkFields_congr {payload' : Json}
    (h : ∀ f ∈ rules, payload.get? f.name = payload'.get? f.name) :
    checkFields t payload rules = checkFields t payload' rules := by
  induction rules with
  | nil => rfl
  | cons f rules ih =>
    obtain ⟨hf, hrules⟩ := List.forall_mem_cons.1 h
    rw [checkFields, checkFields, hf, ih hrules]

/-- What a schema says of a payload: it has to be an object that keeps all rules; of the rules that an
object breaks the first one is named; and members that no rule names do not matter. -/
structure Judges (s : EventSchema) (judge : Json → Except SchemaError Unit) : Prop where
  notObject : ∀ payload, (∀ ms, payload ≠ .object ms) →
    judge payload = .error (.violation s.eventType "$" .notObject)
  accepts_iff : ∀ ms, judge (.object ms) = .ok () ↔ ∀ f ∈ s.fields, f.Holds (.object ms)
  first : ∀ ms before f after, s.fields = before ++ f :: after →
    (∀ g ∈ before, g.Holds (.object ms)) → ¬ f.Holds (.object ms) →
    ∃ reason ∈ [.missing, .wrongKind f.kind],
      judge (.object ms) = .error (.violation s.eventType f.name reason) ∧
        (reason.message = "is missing" ↔ (Json.object ms).Lacks f.name)
  others : ∀ ms ms' : List (String × Json), (∀ f ∈ s.fields, ms.lookup f.name = ms'.lookup f.name) →
    judge (.object ms) = judge (.object ms')

theorem message_eq_missing_iff {k : FieldKind} {reason : Violation}
    (h : reason ∈ [.missing, .wrongKind k]) : reason.message = "is missing" ↔ reason = .missing := by
  rw [List.mem_cons, List.mem_singleton] at h
  obtain rfl | rfl := h
  · exact ⟨fun _ => rfl, fun _ => rfl⟩
  · have hk : (Violation.wrongKind k).message ≠ "is missing" := by cases k <;> decide
    exact iff_of_false hk (by simp)

theorem check_object (s : EventSchema) (ms : List (String × Json)) :
    s.check (.object ms) = checkFields s.eventType (.object ms) s.fields := rfl

theorem checkFields_ne_unknown (u : String) :
    checkFields t payload rules ≠ .error (.unknownType u) := by
  induction rules with
  | nil => exact nofun
  | cons f rules ih =>
    rw [checkFields]
    cases f.fault? (payload.get? f.name) with
    | none => exact ih
    | some reason => exact nofun

theorem check_ne_unknown (s : EventSchema) (payload : Json) (u : String) :
    s.check payload ≠ .error (.unknownType u) := by
  cases payload with
  | object ms => exact checkFields_ne_unknown u
  | _ => exact nofun

theorem check_judges (s : EventSchema) : s.Judges s.check where
  notObject payload h := by
    cases payload with
    | object ms => exact absurd rfl (h ms)
    | _ => rfl
  accepts_iff ms := by rw [check_object, checkFields_ok_iff]
  first ms before f after hfields hbefore hf := by
    obtain ⟨reason, hmem, hfault, hmissing⟩ := FieldRule.fault?_of_not_holds hf
    refine ⟨reason, hmem, ?_, (message_eq_missing_iff hmem).trans hmissing⟩
    rw [check_object, hfields, checkFields_append hbefore, checkFields, hfault]
  others ms ms' h := by
    rw [check_object, check_object]
    exact checkFields_congr h

end EventSchema

namespace EventRegistry

theorem find?_place (s : EventSchema) (schemas : List EventSchema) (t : String) :
    (place s schemas).find? (·.eventType = t) =
      if s.eventType = t then some s else schemas.find? (·.eventType = t) := by
  induction schemas with
  | nil => by_cases h : s.eventType = t <;> simp [place, h]
  | cons s' r ih =>
    simp only [place]
    split_ifs with hlt heq <;> grind

theorem find?_foldl (schemas : List EventSchema) (r : EventRegistry) (t : String) :
    (schemas.foldl register r).find? t =
      (schemas.reverse.find? (·.eventType = t)).or (r.find? t) := by
  induction schemas generalizing r with
  | nil => rfl
  | cons s schemas ih =>
    rw [List.foldl_cons, ih, List.reverse_cons, List.find?_append, Option.or_assoc]
    congr 1
    rw [find?, register, find?_place]
    by_cases h : s.eventType = t <;> simp [h, find?]

theorem find?_map {schema : String → EventSchema} (hschema : ∀ t, (schema t).eventType = t)
    (types : List String) (t : String) : (types.map schema).find? (·.eventType = t) =
      if t ∈ types then some (schema t) else none := by
  induction types with
  | nil => rfl
  | cons u types ih =>
    rw [List.map_cons, List.find?_cons, hschema, ih]
    by_cases hu : u = t
    · simp [hu]
    · simp [hu, Ne.symm hu]

theorem find?_standard (t : String) :
    standard.find? t = if t ∈ Topic.completions then some (standardSchema t) else none := by
  have htype (t : String) : (standardSchema t).eventType = t := by
    simp only [standardSchema]
    split_ifs <;> rfl
  rw [standard, find?_foldl, ← List.map_reverse, find?_map htype]
  simp [find?, empty]

theorem place_mem {s u : EventSchema} {schemas : List EventSchema} (h : u ∈ place s schemas) :
    u = s ∨ u ∈ schemas := by
  induction schemas with
  | nil => simpa [place] using h
  | cons s' r ih =>
    simp only [place] at h
    split_ifs at h <;> grind

theorem place_ordered {s : EventSchema} {schemas : List EventSchema}
    (h : schemas.Pairwise (·.eventType < ·.eventType)) :
    (place s schemas).Pairwise (·.eventType < ·.eventType) := by
  induction schemas with
  | nil => exact List.pairwise_singleton _ _
  | cons s' r ih =>
    obtain ⟨hs', hr⟩ := List.pairwise_cons.1 h
    simp only [place]
    split_ifs with hlt heq
    · refine List.pairwise_cons.2 ⟨fun u hu => ?_, h⟩
      obtain rfl | hu := List.mem_cons.1 hu
      · exact hlt
      · exact hlt.trans (hs' u hu)
    · exact List.pairwise_cons.2 ⟨fun u hu => heq ▸ hs' u hu, hr⟩
    · refine List.pairwise_cons.2 ⟨fun u hu => ?_, ih hr⟩
      obtain rfl | hu := place_mem hu
      · exact lt_of_le_of_ne (not_lt.1 hlt) (Ne.symm heq)
      · exact hs' u hu

/-- A registry, and all that was registered in it since it was empty. -/
inductive Built : EventRegistry → List EventSchema → Prop where
  | empty : Built .empty []
  | standard : Built .standard (Topic.completions.map standardSchema)
  | register {r : EventRegistry} {known : List EventSchema} (s : EventSchema) :
    Built r known → Built (r.register s) (known ++ [s])

/-- The schema that was registered last for the type. -/
def Latest (t : String) (s : EventSchema) (known : List EventSchema) : Prop :=
  ∃ before after, known = before ++ s :: after ∧ s.eventType = t ∧ ∀ u ∈ after, u.eventType ≠ t

variable {r : EventRegistry} {known : List EventSchema}

theorem Built.eq_foldl (h : r.Built known) : r = known.foldl EventRegistry.register .empty := by
  induction h with
  | empty => rfl
  | standard => rfl
  | register s h ih => rw [List.foldl_append, ← ih]; rfl

theorem Built.find?_eq (h : r.Built known) (t : String) :
    r.find? t = known.reverse.find? (·.eventType = t) := by
  rw [h.eq_foldl, find?_foldl]
  exact Option.or_none

theorem Built.find?_latest (h : r.Built known) {t : String} {s : EventSchema}
    (hs : Latest t s known) : r.find? t = some s := by
  obtain ⟨before, after, rfl, ht, hafter⟩ := hs
  have hnone : after.reverse.find? (·.eventType = t) = none :=
    List.find?_eq_none.2 fun u hu => by simpa using hafter u (List.mem_reverse.1 hu)
  rw [h.find?_eq, List.reverse_append, List.reverse_cons, List.append_assoc, List.find?_append,
    hnone]
  simp [ht]

theorem Built.find?_none_iff (h : r.Built known) (t : String) :
    r.find? t = none ↔ ∀ s ∈ known, s.eventType ≠ t := by
  rw [h.find?_eq, List.find?_eq_none]
  simp

theorem foldl_ordered (schemas : List EventSchema) {r : EventRegistry}
    (h : r.schemas.Pairwise (·.eventType < ·.eventType)) :
    (schemas.foldl register r).schemas.Pairwise (·.eventType < ·.eventType) := by
  induction schemas generalizing r with
  | nil => exact h
  | cons s schemas ih => exact ih (place_ordered h)

theorem Built.types_ordered (h : r.Built known) : r.types.Pairwise (bytesOf · < bytesOf ·) := by
  have hordered : r.schemas.Pairwise (·.eventType < ·.eventType) := by
    rw [h.eq_foldl]
    exact foldl_ordered known List.Pairwise.nil
  exact List.pairwise_map.2 (hordered.imp bytesOf_lt)

theorem Built.mem_types_iff (h : r.Built known) (t : String) :
    t ∈ r.types ↔ ∃ s ∈ known, s.eventType = t := by
  have hnone : (∀ s ∈ r.schemas, s.eventType ≠ t) ↔ ∀ s ∈ known, s.eventType ≠ t := by
    rw [← h.find?_none_iff, find?, List.find?_eq_none]
    simp
  simpa [types] using not_congr hnone

/-- A registry knows the types that were registered, in the order of their bytes; it refuses all others
as unknown, and judges a payload by the schema that was registered last for its type. -/
theorem validation_exact (h : r.Built known) :
    r.types.Pairwise (bytesOf · < bytesOf ·) ∧
    (∀ t, t ∈ r.types ↔ ∃ s ∈ known, s.eventType = t) ∧
    (∀ t payload, r.validate t payload = .error (.unknownType t) ↔
      ∀ s ∈ known, s.eventType ≠ t) ∧
    ∀ t s, Latest t s known → s.Judges (r.validate t) := by
  refine ⟨h.types_ordered, h.mem_types_iff, fun t payload => ?_, fun t s hs => ?_⟩
  · rw [← h.find?_none_iff, validate]
    cases r.find? t with
    | none => simp
    | some s => simp [s.check_ne_unknown]
  · have hcheck : r.validate t = s.check := by
      funext payload
      rw [validate, h.find?_latest hs]
    rw [hcheck]
    exact s.check_judges

def scoredSchema : EventSchema :=
  ⟨Topic.matchings, [⟨"score", .integer, false⟩, ⟨"score", .number, true⟩]⟩

/-- A null keeps the first of the two rules, and breaks the second. -/
theorem validation_exact_replaced :
    (standard.register scoredSchema).Built
      (Topic.completions.map standardSchema ++ [scoredSchema]) ∧
    (standard.register scoredSchema).validate Topic.matchings (.object [("score", .null)]) =
      .error (.violation Topic.matchings "score" .missing) := by
  have hbuilt := Built.standard.register scoredSchema
  have hlatest : Latest Topic.matchings scoredSchema
      (Topic.completions.map standardSchema ++ [scoredSchema]) := ⟨_, [], rfl, rfl, nofun⟩
  have hnull : (Json.object [("score", .null)]).Lacks "score" := .inr (by rfl)
  obtain ⟨reason, hmem, hvalidate, hmissing⟩ := ((validation_exact hbuilt).2.2.2 _ _ hlatest).first
    [("score", .null)] [⟨"score", .integer, false⟩] ⟨"score", .number, true⟩ [] rfl
    (List.forall_mem_singleton.2 (.inr ⟨rfl, hnull⟩))
    (by rw [FieldRule.holds_of_lacks hnull]; decide)
  rw [EventSchema.message_eq_missing_iff hmem] at hmissing
  rw [hmissing.2 hnull] at hvalidate
  exact ⟨hbuilt, hvalidate⟩

end EventRegistry
end PhaseKeeper
