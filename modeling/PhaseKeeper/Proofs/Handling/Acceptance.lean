import Mathlib.Data.List.Nodup
import Mathlib.Tactic.Common
import PhaseKeeper.Proofs.Event.Validation
import PhaseKeeper.Proofs.Interleaving.Crew
/-!
Which events are accepted. The rules for the type and the reading of the payload are two checks that
know nothing of each other; here is what they come to together, for any type and any payload.
-/
namespace PhaseKeeper

namespace Json

/-- No key of the object stands there twice. -/
def KeysOnce : Json → Prop
  | .object members => (members.map Prod.fst).Nodup
  | _ => True

def Identifies (payload : Json) (name : String) : Prop :=
  ∃ s, payload.get? name = some (.text s) ∧ ¬ Blank s

def Flags (payload : Json) (name : String) : Prop :=
  payload.Lacks name ∨ ∃ b, payload.get? name = some (.bool b)

end Json

/-- The grounds on which an event is refused. -/
inductive Refused (t : String) (payload : Json) : Prop where
  | unknownType (h : t ∉ Topic.completions)
  | notObject (h : ∀ ms, payload ≠ .object ms)
  | missing {name : String} (hname : name ∈ ["event_id", "job_id"]) (h : payload.Lacks name)
  | noText {name : String} {j : Json} (hname : name ∈ ["event_id", "job_id"])
    (hj : payload.get? name = some j) (h : ∀ s, j ≠ .text s)
  | blank {name s : String} (hname : name ∈ ["event_id", "job_id"])
    (hs : payload.get? name = some (.text s)) (h : Blank s)
  | noFlag {j : Json} (hj : payload.get? "has_partial_completion" = some j) (hnull : j ≠ .null)
    (h : ∀ b, j ≠ .bool b)

/-- What it takes for an event not to be refused. -/
structure Passable (t : String) (payload : Json) : Prop where
  type : t ∈ Topic.completions
  object : ∃ ms, payload = .object ms
  event : payload.Identifies "event_id"
  job : payload.Identifies "job_id"
  flag : payload.Flags "has_partial_completion"

section Grounds
variable {t : String} {payload : Json}

theorem identifies_of_not_refused (h : ¬ Refused t payload) {name : String}
    (hname : name ∈ ["event_id", "job_id"]) : payload.Identifies name := by
  obtain hl | ⟨j, hj, -⟩ := FieldRule.lacks_or_member payload name
  · exact absurd (.missing hname hl) h
  · by_cases htext : ∃ s, j = .text s
    · obtain ⟨s, rfl⟩ := htext
      exact ⟨s, hj, fun hblank => h (.blank hname hj hblank)⟩
    · exact absurd (.noText hname hj fun s hs => htext ⟨s, hs⟩) h

theorem not_refused_iff : ¬ Refused t payload ↔ Passable t payload := by
  constructor
  · intro h
    refine ⟨by_contra fun ht => h (.unknownType ht),
      by_contra fun ho => h (.notObject fun ms hms => ho ⟨ms, hms⟩),
      identifies_of_not_refused h (by simp), identifies_of_not_refused h (by simp), ?_⟩
    obtain hl | ⟨j, hj, hnull⟩ := FieldRule.lacks_or_member payload "has_partial_completion"
    · exact .inl hl
    · refine .inr (by_contra fun hb => h (.noFlag hj hnull fun b hjb => hb ⟨b, ?_⟩))
      rw [hj, hjb]
  · rintro ⟨ht, ⟨ms, rfl⟩, hevent, hjob, hflag⟩ hrefused
    have hid {name : String} (hname : name ∈ ["event_id", "job_id"]) :
        (Json.object ms).Identifies name := by
      obtain rfl | rfl := by simpa using hname
      · exact hevent
      · exact hjob
    cases hrefused with
    | unknownType h => exact h ht
    | notObject h => exact h ms rfl
    | missing hname h =>
      obtain ⟨s, hs, -⟩ := hid hname
      obtain h | h := h <;> rw [h] at hs <;> cases hs
    | noText hname hj h =>
      obtain ⟨s, hs, -⟩ := hid hname
      rw [hs] at hj
      cases hj
      exact h s rfl
    | blank hname hs h =>
      obtain ⟨s, hs', hnot⟩ := hid hname
      rw [hs] at hs'
      cases hs'
      exact hnot h
    | noFlag hj hnull h =>
      obtain (hl | hl) | ⟨b, hb⟩ := hflag
      · rw [hl] at hj
        cases hj
      · rw [hl] at hj
        cases hj
        exact hnull rfl
      · rw [hb] at hj
        cases hj
        exact h b rfl

end Grounds

theorem FieldRule.holds_identifier {name : String} {payload : Json} :
    (⟨name, .identifier, true⟩ : FieldRule).Holds payload ↔ payload.Identifies name := by
  constructor
  · rintro (⟨j, hj, ⟨hs⟩⟩ | ⟨h, -⟩)
    · exact ⟨_, hj, hs⟩
    · cases h
  · rintro ⟨s, hs, hnot⟩
    exact .inl ⟨.text s, hs, .identifier hnot⟩

theorem FieldRule.holds_flag {name : String} {payload : Json} :
    (⟨name, .bool, false⟩ : FieldRule).Holds payload ↔ payload.Flags name := by
  constructor
  · rintro (⟨j, hj, hbool⟩ | ⟨-, h⟩)
    · cases hbool
      exact .inr ⟨_, hj⟩
    · exact .inl h
  · rintro (h | ⟨b, hb⟩)
    · exact .inr ⟨rfl, h⟩
    · exact .inl ⟨.bool b, hb, .bool b⟩

theorem fields_standardSchema (t : String) : ∃ more, (EventRegistry.standardSchema t).fields =
    [⟨"event_id", .identifier, true⟩, ⟨"job_id", .identifier, true⟩] ++ more ∧
      ∀ f ∈ more, f = ⟨"has_partial_completion", .bool, false⟩ := by
  simp only [EventRegistry.standardSchema]
  split_ifs
  · exact ⟨_, rfl, by simp⟩
  · exact ⟨[], rfl, by simp⟩

theorem validate_standard_of_passable {t : String} {payload : Json} (h : Passable t payload) :
    EventRegistry.standard.validate t payload = .ok () := by
  obtain ⟨ht, ⟨ms, rfl⟩, hevent, hjob, hflag⟩ := h
  obtain ⟨more, hfields, hmore⟩ := fields_standardSchema t
  have hfind := EventRegistry.find?_standard t
  rw [if_pos ht] at hfind
  rw [EventRegistry.validate, hfind]
  refine ((EventRegistry.standardSchema t).check_judges.accepts_iff ms).2 ?_
  rw [hfields, List.forall_mem_append, List.forall_mem_cons, List.forall_mem_singleton,
    FieldRule.holds_identifier, FieldRule.holds_identifier]
  refine ⟨⟨hevent, hjob⟩, fun f hf => ?_⟩
  rw [hmore f hf]
  exact FieldRule.holds_flag.2 hflag

theorem of_validate_standard {t : String} {payload : Json}
    (h : EventRegistry.standard.validate t payload = .ok ()) : t ∈ Topic.completions ∧
      (∃ ms, payload = .object ms) ∧ payload.Identifies "event_id" ∧
      payload.Identifies "job_id" := by
  rw [EventRegistry.validate, EventRegistry.find?_standard] at h
  split_ifs at h with ht
  · have hjudges := (EventRegistry.standardSchema t).check_judges
    obtain ⟨more, hfields, -⟩ := fields_standardSchema t
    by_cases ho : ∃ ms, payload = .object ms
    · obtain ⟨ms, rfl⟩ := ho
      have hall := (hjudges.accepts_iff ms).1 h
      rw [hfields, List.forall_mem_append, List.forall_mem_cons, List.forall_mem_singleton,
        FieldRule.holds_identifier, FieldRule.holds_identifier] at hall
      exact ⟨ht, ⟨ms, rfl⟩, hall.1⟩
    · have hnot := hjudges.notObject payload fun ms hms => ho ⟨ms, hms⟩
      cases hnot.symm.trans h

theorem lookup_of_mem {ms : List (String × Json)} (hkeys : (ms.map Prod.fst).Nodup)
    {m : String × Json} (hm : m ∈ ms) : ms.lookup m.1 = some m.2 := by
  induction ms with
  | nil => cases hm
  | cons m' ms ih =>
    obtain ⟨hnew, hkeys⟩ := List.nodup_cons.1 hkeys
    rw [List.lookup_cons]
    obtain rfl | hm := List.mem_cons.1 hm
    · rw [beq_self_eq_true]
    · have hne : m.1 ≠ m'.1 := fun he => hnew (he ▸ List.mem_map_of_mem hm)
      rw [beq_eq_false_iff_ne.2 hne]
      exact ih hkeys hm

/-- Where only the member under `key` can be at fault, it alone decides. -/
theorem forM_of_unique {ε : Type} {check : String × Json → Except ε Unit} {key : String}
    {ms : List (String × Json)} (hkeys : (ms.map Prod.fst).Nodup)
    (h : ∀ m ∈ ms, m.1 ≠ key → check m = .ok ()) :
    ms.forM check = match ms.lookup key with
      | some j => check (key, j)
      | none => .ok () := by
  induction ms with
  | nil => rfl
  | cons m ms ih =>
    obtain ⟨hnew, hkeys⟩ := List.nodup_cons.1 hkeys
    obtain ⟨hm, hms⟩ := List.forall_mem_cons.1 h
    change (check m >>= fun _ => ms.forM check) = _
    rw [ih hkeys hms, List.lookup_cons]
    by_cases hk : key = m.1
    · have hnone : ms.lookup key = none := List.lookup_eq_none_iff.2 fun m' hm' =>
        bne_iff_ne.2 fun he => hnew (List.mem_map.2 ⟨m', hm', he.symm.trans hk⟩)
      rw [hnone, beq_iff_eq.2 hk, hk]
      change (check m >>= fun _ => .ok ()) = check m
      cases check m <;> rfl
    · rw [hm (Ne.symm hk), beq_eq_false_iff_ne.2 hk]
      rfl

namespace CompletionEvent
variable {ms : List (String × Json)} {id j : String}

theorem ofJson_object (hkeys : (ms.map Prod.fst).Nodup)
    (hid : ms.lookup "event_id" = some (.text id)) (hjob : ms.lookup "job_id" = some (.text j)) :
    ofJson (.object ms) = CompletionEvent.mk id j <$>
      Json.Members.want (fun name => ms.lookup name) "has_partial_completion" Json.asBool := by
  have hcheck : ∀ m ∈ ms, m.1 ≠ "has_partial_completion" → record.checkMember m = .ok () := by
    intro m hm hflag
    have hj := lookup_of_mem hkeys hm
    by_cases hevent : m.1 = "event_id"
    · rw [hevent, hid] at hj
      simp [Json.Record.checkMember, record, Json.field, hevent, ← Option.some.inj hj, Json.asText]
    · by_cases hjob' : m.1 = "job_id"
      · rw [hjob', hjob] at hj
        simp [Json.Record.checkMember, record, Json.field, hjob', ← Option.some.inj hj, Json.asText]
      · simp [Json.Record.checkMember, record, Json.field, Ne.symm hevent, Ne.symm hjob', Ne.symm hflag]
  have hflag (v : Json) : record.checkMember ("has_partial_completion", v) =
      (fun _ => ()) <$> Json.asOption Json.asBool v := by
    simp [Json.Record.checkMember, record, Json.field]
  have hid' : Json.Members.need (fun name => ms.lookup name) "event_id" Json.asText = .ok id := by
    simp only [Json.Members.need, hid]
    rfl
  have hjob' : Json.Members.need (fun name => ms.lookup name) "job_id" Json.asText = .ok j := by
    simp only [Json.Members.need, hjob]
    rfl
  simp only [ofJson, Json.Record.read, forM_of_unique hkeys hcheck, hid', hjob']
  simp only [Json.Members.want]
  cases ms.lookup "has_partial_completion" with
  | none => rfl
  | some v =>
    simp only [hflag]
    cases Json.asOption Json.asBool v <;> rfl

end CompletionEvent

theorem Json.want_bool_iff {ms : List (String × Json)} {name : String} :
    (∃ b, Members.want (fun name => ms.lookup name) name asBool = .ok b) ↔
      (object ms).Flags name := by
  have hget : (object ms).get? name = ms.lookup name := rfl
  rw [Flags, Lacks, hget, Members.want]
  cases ms.lookup name with
  | none => simp
  | some j => cases j <;> simp [asOption, asBool, Functor.map, Except.map]

section Both
variable {t : String} {payload : Json}

theorem acceptEvent_of_validate (h : EventRegistry.standard.validate t payload = .ok ()) :
    acceptEvent .standard t payload =
      (CompletionEvent.ofJson payload).mapError fun e => .ofPayload t (.illTyped e) := by
  rw [acceptEvent, h]
  rfl

theorem acceptEvent_of_passable (hkeys : payload.KeysOnce) (h : Passable t payload) :
    ∃ e, acceptEvent .standard t payload = .ok e ∧
      payload.get? "event_id" = some (.text e.eventId) ∧
      payload.get? "job_id" = some (.text e.jobId) := by
  have hvalid := validate_standard_of_passable h
  obtain ⟨-, ⟨ms, rfl⟩, ⟨id, hid, -⟩, ⟨j, hj, -⟩, hflag⟩ := h
  obtain ⟨b, hb⟩ := Json.want_bool_iff.2 hflag
  refine ⟨⟨id, j, b⟩, ?_, hid, hj⟩
  rw [acceptEvent_of_validate hvalid, CompletionEvent.ofJson_object hkeys hid hj, hb]
  rfl

theorem passable_of_acceptEvent (hkeys : payload.KeysOnce) {e : CompletionEvent}
    (h : acceptEvent .standard t payload = .ok e) : Passable t payload := by
  obtain ⟨_, hvalid, -⟩ := ok_of_bind h
  obtain ⟨ht, ⟨ms, rfl⟩, hevent, hjob⟩ := of_validate_standard hvalid
  obtain ⟨⟨id, hid, -⟩, ⟨j, hj, -⟩⟩ := And.intro hevent hjob
  refine ⟨ht, ⟨ms, rfl⟩, hevent, hjob, Json.want_bool_iff.1 ?_⟩
  rw [acceptEvent_of_validate hvalid, CompletionEvent.ofJson_object hkeys hid hj] at h
  cases hb : Json.Members.want (fun name => ms.lookup name) "has_partial_completion"
      Json.asBool with
  | ok b => exact ⟨b, rfl⟩
  | error cause =>
    rw [hb] at h
    cases h

theorem acceptEvent_congr {ms ms' : List (String × Json)} (hkeys : (ms.map Prod.fst).Nodup)
    (hkeys' : (ms'.map Prod.fst).Nodup)
    (h : ∀ name ∈ ["event_id", "job_id", "has_partial_completion"],
      ms.lookup name = ms'.lookup name) :
    acceptEvent .standard t (.object ms) = acceptEvent .standard t (.object ms') := by
  have hvalidate : EventRegistry.standard.validate t (.object ms) =
      EventRegistry.standard.validate t (.object ms') := by
    rw [EventRegistry.validate, EventRegistry.validate, EventRegistry.find?_standard]
    split_ifs with ht
    · obtain ⟨more, hfields, hmore⟩ := fields_standardSchema t
      refine (EventRegistry.standardSchema t).check_judges.others ms ms' fun f hf => h f.name ?_
      rw [hfields, List.mem_append] at hf
      obtain hf | hf := hf
      · obtain rfl | rfl := by simpa using hf
        all_goals simp
      · simp [hmore f hf]
    · rfl
  cases hv : EventRegistry.standard.validate t (.object ms) with
  | error cause =>
    rw [acceptEvent, acceptEvent, ← hvalidate, hv]
    rfl
  | ok =>
    obtain ⟨-, -, ⟨id, hid, -⟩, ⟨j, hj, -⟩⟩ := of_validate_standard hv
    have hid' : ms'.lookup "event_id" = some (.text id) := (h _ (by simp)).symm.trans hid
    have hj' : ms'.lookup "job_id" = some (.text j) := (h _ (by simp)).symm.trans hj
    have hflag : ms.lookup "has_partial_completion" = ms'.lookup "has_partial_completion" :=
      h _ (by simp)
    rw [acceptEvent_of_validate hv, acceptEvent_of_validate (hvalidate ▸ hv),
      CompletionEvent.ofJson_object hkeys hid hj, CompletionEvent.ofJson_object hkeys' hid' hj',
      Json.Members.want, Json.Members.want, hflag]

end Both

theorem Program.within_any {Request : Type} {Reply : Request → Type} {α : Type}
    (p : Program Request Reply α) : p.Within (fun _ => True) fun _ => True := by
  induction p with
  | done => trivial
  | ask r next ih => exact ⟨trivial, ih⟩

theorem Program.Within.run {Request : Type} {Reply : Request → Type} {α σ : Type}
    {p : Program Request Reply α} {Q : Request → Prop} {R : α → Prop} (h : p.Within Q R)
    (answer : (r : Request) → σ → Reply r × σ) (s : σ) : R (p.run answer s).1 := by
  induction p generalizing s with
  | done => exact h
  | ask r next ih => exact ih _ (h.2 _) _

def Outcome.Taken (o : Outcome) : Prop := ∀ cause, o ≠ .rejected cause

theorem advanceJob_taken (id j t : String) :
    (advanceJob id j t).Within (fun _ => True) Outcome.Taken := by
  refine .ask trivial fun x => ?_
  obtain cause | _ | phase := x
  · exact ⟨trivial, fun _ cause he => nomatch he⟩
  · exact fun cause he => nomatch he
  · refine (Program.within_any _).bind fun y _ => ?_
    cases y with
    | error cause => exact ⟨trivial, fun _ cause he => nomatch he⟩
    | ok report => exact fun cause he => nomatch he

theorem handleAccepted_taken (t : String) (e : CompletionEvent) :
    (handleAccepted t e).Within (fun _ => True) Outcome.Taken := by
  refine (Program.within_any _).bind fun x _ => ?_
  obtain _ | _ | cause := x
  · exact advanceJob_taken e.eventId e.jobId t
  · exact fun cause he => nomatch he
  · cases cause <;> exact fun cause he => nomatch he

/-- Whether an event is rejected does not depend on the surroundings, and a rejected one asks nothing
of them. -/
theorem handleEvent_of_refused {t : String} {payload : Json} (hkeys : payload.KeysOnce)
    (h : Refused t payload) : ∃ cause, handleEvent .standard t payload = .done (.rejected cause) := by
  obtain ⟨cause, -, hdone⟩ | ⟨e, hacc, -⟩ := handleEvent_cases .standard t payload
  · exact ⟨cause, hdone⟩
  · exact absurd h (not_refused_iff.2 (passable_of_acceptEvent hkeys hacc))

theorem handleEvent_of_passable {t : String} {payload : Json} (hkeys : payload.KeysOnce)
    (h : Passable t payload) : ∃ e, handleEvent .standard t payload = handleAccepted t e ∧
      payload.get? "event_id" = some (.text e.eventId) ∧
      payload.get? "job_id" = some (.text e.jobId) := by
  obtain ⟨e, hacc, hid, hj⟩ := acceptEvent_of_passable hkeys h
  refine ⟨e, ?_, hid, hj⟩
  rw [handleEvent, hacc]

theorem rejected_iff_refused {σ : Type} (answer : (r : Request) → σ → r.Reply × σ) (s : σ)
    {t : String} {payload : Json} (hkeys : payload.KeysOnce) :
    (∃ cause, ((handleEvent .standard t payload).run answer s).1 = .rejected cause) ↔
      Refused t payload := by
  by_cases h : Refused t payload
  · obtain ⟨cause, hdone⟩ := handleEvent_of_refused hkeys h
    rw [hdone]
    exact iff_of_true ⟨cause, rfl⟩ h
  · obtain ⟨e, hrun, -, -⟩ := handleEvent_of_passable hkeys (not_refused_iff.1 h)
    rw [hrun]
    exact iff_of_false (fun ⟨cause, hc⟩ => (handleAccepted_taken t e).run answer s cause hc) h

/-- In all surroundings an event is rejected just if it is refused on one of those grounds, and then
nothing has changed. Any other event is recorded under the identifiers that it bears, by the one call
that is made to the ledger; and members other than the identifiers and the flag make no difference. -/
theorem acceptance_exact {t : String} {payload : Json} (hkeys : payload.KeysOnce) :
    (∀ {σ : Type} (answer : (r : Request) → σ → r.Reply × σ) (s : σ),
      ((∃ cause, ((handleEvent .standard t payload).run answer s).1 = .rejected cause) ↔
        Refused t payload) ∧
      (Refused t payload → ((handleEvent .standard t payload).run answer s).2 = s)) ∧
    (¬ Refused t payload → ∃ id j next, payload.get? "event_id" = some (.text id) ∧
      payload.get? "job_id" = some (.text j) ∧
      handleEvent .standard t payload = recordEvent id j t >>= next ∧
      ∀ r, (next r).Within (·.Moves j) fun _ => True) ∧
    ∀ ms ms', payload = .object ms → (Json.object ms').KeysOnce →
      (∀ name ∈ ["event_id", "job_id", "has_partial_completion"],
        ms.lookup name = ms'.lookup name) →
      handleEvent .standard t (.object ms') = handleEvent .standard t payload := by
  refine ⟨fun answer s => ⟨rejected_iff_refused answer s hkeys, fun h => ?_⟩, fun h => ?_, ?_⟩
  · obtain ⟨cause, hdone⟩ := handleEvent_of_refused hkeys h
    rw [hdone]
    rfl
  · obtain ⟨e, hrun, hid, hj⟩ := handleEvent_of_passable hkeys (not_refused_iff.1 h)
    let errand : Errand := ⟨t, e⟩
    exact ⟨e.eventId, e.jobId, errand.resume, hid, hj, hrun.trans errand.handling_eq,
      errand.resume_within⟩
  · rintro ms ms' rfl hkeys' hsame
    rw [handleEvent, handleEvent, acceptEvent_congr hkeys hkeys' hsame]

/-- The keypoints of images, with a flag that the rules for their type do not mention. -/
def flaggedKeypoints (flag : Json) : Json :=
  .object [("event_id", .text "e1"), ("has_partial_completion", flag), ("job_id", .text "j1"),
    ("note", .null)]

theorem acceptance_exact_flagged : (flaggedKeypoints (.text "yes")).KeysOnce ∧
    (EventRegistry.standard.validate Topic.imageKeypoints (flaggedKeypoints (.text "yes")) =
      .ok ()) ∧
    ∀ d : Deployment, (∃ cause, (d.perform 0 (handleEvent .standard Topic.imageKeypoints
        (flaggedKeypoints (.text "yes")))).1 = .rejected cause) ∧
      (d.perform 0 (handleEvent .standard Topic.imageKeypoints
        (flaggedKeypoints (.text "yes")))).2 = d := by
  have hkeys : (flaggedKeypoints (.text "yes")).KeysOnce := by
    simp [flaggedKeypoints, Json.KeysOnce]
  have hrefused : Refused Topic.imageKeypoints (flaggedKeypoints (.text "yes")) :=
    .noFlag (j := .text "yes") (by rfl) nofun nofun
  refine ⟨hkeys, by rfl, fun d => ?_⟩
  have h := (acceptance_exact (t := Topic.imageKeypoints) hkeys).1 (Deployment.answer 0) d
  exact ⟨h.1.2 hrefused, h.2 hrefused⟩

end PhaseKeeper
