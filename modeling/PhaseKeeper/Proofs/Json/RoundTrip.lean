import Mathlib.Tactic.Common
import PhaseKeeper.Bus.Endpoint
import PhaseKeeper.Pipeline.Job
import PhaseKeeper.Proofs.Json.Record
import PhaseKeeper.Proofs.Message.Payload
import PhaseKeeper.Proofs.Time.Text
import PhaseKeeper.Settings.Resolved
/-!
What is written as JSON is read back: phases, jobs and their assets, what messages carry, endpoints
and settings.
-/
namespace PhaseKeeper

namespace Json

section
variable {α β : Type} {ms : Members} {name : String} {read : Reader α} {j : Json} {a : α}
  {f : α → Except ShapeError β}

theorem Members.need_bind (hj : ms name = some j) (hread : read j = .ok a) :
    (ms.need name read >>= f) = f a := by
  rw [need, hj]
  exact congrArg (· >>= f) hread

theorem Members.want_bind {a : Option α} {f : Option α → Except ShapeError β}
    (hj : ms name = some j) (hread : asOption read j = .ok a) :
    (ms.want name read >>= f) = f a := by
  rw [want, hj]
  exact congrArg (· >>= f) hread

end

@[simp]
theorem asText_text (s : String) : asText (.text s) = .ok s := rfl

theorem asNat_int {bound n : Nat} (name : String) (h : n < bound) :
    asNat bound name (.int n) = .ok n := by
  simp [asNat, h]

@[simp]
theorem asUInt16_toNat (n : UInt16) : asUInt16 (.int n.toNat) = .ok n := by
  rw [asUInt16, asNat_int _ n.toNat_lt]
  exact congrArg Except.ok n.ofNat_toNat

@[simp]
theorem asUInt32_toNat (n : UInt32) : asUInt32 (.int n.toNat) = .ok n := by
  rw [asUInt32, asNat_int _ n.toNat_lt]
  exact congrArg Except.ok n.ofNat_toNat

@[simp]
theorem asUInt64_toNat (name : String) (n : UInt64) : asUInt64 name (.int n.toNat) = .ok n := by
  rw [asUInt64, asNat_int _ n.toNat_lt]
  exact congrArg Except.ok n.ofNat_toNat

theorem asInstant_text {t : Instant} (h : t.isValid = true) : asInstant (.text t.text) = .ok t := by
  rw [asInstant, Instant.ofText_text h]
  rfl

end Json

open Json (Restores)

@[simp]
theorem Phase.ofJson_toJson (p : Phase) : ofJson p.toJson = .ok p := by cases p <;> rfl

namespace Assets

theorem governs : record.Governs ofJson where
  distinct := by decide
  enough := by decide
  reads := ⟨_, rfl, fun ms ms' h => by
    simp [Json.Members.need, h, record, Json.Record.names, Json.field]⟩

theorem restores (a : Assets) : Restores ofJson ["has_images", "has_videos"] a.toJson a :=
  governs.restores rfl rfl

end Assets

namespace Job

theorem governs : record.Governs ofJson where
  distinct := by decide
  enough := by decide
  reads := ⟨_, rfl, fun ms ms' h => by
    simp [Json.Members.need, h, record, Json.Record.names, Json.field]⟩

theorem ofJson_toJson {j : Job} (h : j.updatedAt.isValid = true) : ofJson j.toJson = .ok j := by
  have hassets := j.assets.restores.whole
  have hinstant := Json.asInstant_text h
  rw [ofJson, toJson, Json.Record.read_object_iff]
  constructor
  · simp [Json.Record.checkMember, record, Json.field, hassets, hinstant]
  · refine (Json.Members.need_bind rfl (Json.asText_text j.id)).trans ?_
    refine (Json.Members.need_bind rfl (Json.asText_text j.industry)).trans ?_
    refine (Json.Members.need_bind rfl j.phase.ofJson_toJson).trans ?_
    refine (Json.Members.need_bind rfl hassets).trans ?_
    exact Json.Members.need_bind rfl hinstant

theorem restores {j : Job} (h : j.updatedAt.isValid = true) :
    Restores ofJson ["job_id", "industry", "phase", "asset_types", "updated_at"] j.toJson j :=
  governs.restores (ofJson_toJson h) rfl

end Job

namespace CompletionEvent

theorem governs : record.Governs ofJson where
  distinct := by decide
  enough := by decide
  reads := ⟨_, rfl, fun ms ms' h => by
    simp [Json.Members.need, Json.Members.want, h, record, Json.Record.names, Json.field]⟩

/-- An absent flag is not among the members, and `null` in the list. -/
theorem restores (e : CompletionEvent) :
    Restores ofJson ["event_id", "job_id", "has_partial_completion"] e.toJson e where
  whole := e.ofJson_toJson
  among _ := governs.extend e.ofJson_toJson
  inOrder := by obtain ⟨id, job, _ | b⟩ := e <;> rfl

end CompletionEvent

namespace MatchRequest

theorem governs : record.Governs ofJson where
  distinct := by decide
  enough := by decide
  reads := ⟨_, rfl, fun ms ms' h => by
    simp [Json.Members.need, h, record, Json.Record.names, Json.field]⟩

theorem restores (m : MatchRequest) :
    Restores ofJson ["job_id", "industry", "product_set_id", "video_set_id"] m.toJson m :=
  governs.restores rfl rfl

end MatchRequest

namespace JobCompleted

theorem governs : record.Governs ofJson where
  distinct := by decide
  enough := by decide
  reads := ⟨_, rfl, fun ms ms' h => by
    simp [Json.Members.need, h, record, Json.Record.names, Json.field]⟩

theorem restores (m : JobCompleted) : Restores ofJson ["job_id"] m.toJson m :=
  governs.restores rfl rfl

end JobCompleted

@[simp]
theorem WorkerStatus.ofJson_toJson (s : WorkerStatus) : ofJson s.toJson = .ok s := by
  cases s <;> rfl

namespace WorkerHealth

theorem governs : record.Governs ofJson where
  distinct := by decide
  enough := by decide
  reads := ⟨_, rfl, fun ms ms' h => by
    simp [Json.Members.need, h, record, Json.Record.names, Json.field]⟩

theorem ofJson_toJson (w : WorkerHealth) : ofJson w.toJson = .ok w := by
  obtain ⟨id, _ | _⟩ := w <;> rfl

theorem restores (w : WorkerHealth) : Restores ofJson ["worker_id", "status"] w.toJson w :=
  governs.restores w.ofJson_toJson rfl

end WorkerHealth

namespace Endpoint

theorem ofJson_object {members : List (String × Json)} {tag address : Json}
    (htag : members.lookup "type" = some tag) (haddress : members.lookup "address" = some address) :
    ofJson (.object members) = ofJson (.list [tag, address]) := by
  simp only [ofJson, htag, haddress]
  cases Json.asVariant kinds tag with
  | error cause => rfl
  | ok kind =>
    cases h : ofAddressJson kind address with
    | error cause => simp [h, Bind.bind, Except.bind]
    | ok e => simp [h, Bind.bind, Except.bind, pure, Except.pure]

theorem ofJson_pair {tag address : Json} {kind : Kind} {e : Endpoint}
    (htag : Json.asVariant kinds tag = .ok kind) (haddress : ofAddressJson kind address = .ok e) :
    ofJson (.list [tag, address]) = .ok e := by
  simp only [ofJson, htag, Bind.bind, Except.bind, haddress]
  rfl

theorem ofAddressJson_tcp (host : String) (port : UInt16) :
    ofAddressJson .tcp (.object [("host", .text host), ("port", .int port.toNat)]) =
      .ok (.tcp host port) := by
  rw [ofAddressJson, Json.Record.read_object_iff]
  constructor
  · simp [Json.Record.checkMember, tcpRecord, Json.field]
  · exact (Json.Members.need_bind rfl (Json.asText_text host)).trans
      (Json.Members.need_bind rfl (Json.asUInt16_toNat port))

theorem restores (e : Endpoint) : Restores ofJson ["type", "address"] e.toJson e := by
  obtain ⟨members, tag, address, hmembers, htag, haddress, hpair⟩ : ∃ members tag address,
      e.toJson = .object members ∧ members.lookup "type" = some tag ∧
      members.lookup "address" = some address ∧ ofJson (.list [tag, address]) = .ok e := by
    cases e with
    | ipc path => exact ⟨_, _, _, rfl, rfl, rfl, rfl⟩
    | tcp host port => exact ⟨_, _, _, rfl, rfl, rfl, ofJson_pair rfl (ofAddressJson_tcp host port)⟩
  rw [hmembers]
  refine ⟨(ofJson_object htag haddress).trans hpair, fun more hmore => ?_, ?_⟩
  · refine (ofJson_object ?_ ?_).trans hpair
    · rw [Json.lookup_extend hmore (by decide), htag]
    · rw [Json.lookup_extend hmore (by decide), haddress]
  · simpa [Json.inOrder, Json.get?, htag, haddress] using hpair

end Endpoint

namespace DatabaseSettings

theorem governs : record.Governs ofJson where
  distinct := by decide
  enough := by decide
  reads := ⟨_, rfl, fun ms ms' h => by
    simp [Json.Members.need, Json.Members.want, h, record, Json.Record.names, Json.field]⟩

@[simp]
theorem asOption_optionalText (s : Option String) :
    Json.asOption Json.asText (optionalText s) = .ok s := by
  cases s <;> rfl

theorem ofJson_toJson (s : DatabaseSettings) : ofJson s.toJson = .ok s := by
  rw [ofJson, toJson, Json.Record.read_object_iff]
  constructor
  · simp [Json.Record.checkMember, record, Json.field]
  · refine (Json.Members.need_bind rfl (Json.asText_text s.host)).trans ?_
    refine (Json.Members.need_bind rfl (Json.asUInt16_toNat s.port)).trans ?_
    refine (Json.Members.need_bind rfl (Json.asText_text s.database)).trans ?_
    refine (Json.Members.want_bind rfl (asOption_optionalText s.username)).trans ?_
    refine (Json.Members.want_bind rfl (asOption_optionalText s.password)).trans ?_
    refine (Json.Members.need_bind rfl (Json.asText_text s.sslMode)).trans ?_
    exact Json.Members.need_bind rfl (Json.asUInt32_toNat s.maxConnections)

theorem restores (s : DatabaseSettings) : Restores ofJson ["host", "port", "database", "username",
    "password", "ssl_mode", "max_connections"] s.toJson s :=
  governs.restores s.ofJson_toJson rfl

end DatabaseSettings

namespace BusSettings

theorem governs : record.Governs ofJson where
  distinct := by decide
  enough := by decide
  reads := ⟨_, rfl, fun ms ms' h => by
    simp [Json.Members.need, h, record, Json.Record.names, Json.field]⟩

theorem restores (s : BusSettings) : Restores ofJson ["frontend", "backend"] s.toJson s :=
  governs.restores rfl rfl

end BusSettings

namespace WorkerSettings

theorem governs : record.Governs ofJson where
  distinct := by decide
  enough := by decide
  reads := ⟨_, rfl, fun ms ms' h => by
    simp [Json.Members.need, h, record, Json.Record.names, Json.field]⟩

theorem ofJson_toJson (s : WorkerSettings) : ofJson s.toJson = .ok s := by
  rw [ofJson, toJson, Json.Record.read_object_iff]
  constructor
  · simp [Json.Record.checkMember, record, Json.field]
  · refine (Json.Members.need_bind rfl (Json.asText_text s.workerName)).trans ?_
    refine (Json.Members.need_bind rfl (Json.asUInt64_toNat _ s.cacheCapacity)).trans ?_
    refine (Json.Members.need_bind rfl (Json.asUInt64_toNat _ s.maxInFlight)).trans ?_
    refine (Json.Members.need_bind rfl (Json.asUInt64_toNat _ s.healthIntervalSecs)).trans ?_
    exact Json.Members.need_bind rfl (Json.asUInt64_toNat _ s.shutdownTimeoutSecs)

theorem restores (s : WorkerSettings) : Restores ofJson ["worker_name", "dedup_cache_capacity",
    "max_in_flight", "health_interval_secs", "shutdown_timeout_secs"] s.toJson s :=
  governs.restores s.ofJson_toJson rfl

end WorkerSettings

/-- Everything that is written as JSON is read back as it was. A record is read back as well among
members of other names, and from the list of its fields in the order of the structure; an endpoint
likewise, whose list is that of its type and its address. -/
theorem json_round_trip :
    (∀ p : Phase, Phase.ofJson p.toJson = .ok p) ∧
    (∀ a : Assets, Restores Assets.ofJson ["has_images", "has_videos"] a.toJson a) ∧
    (∀ j : Job, j.updatedAt.isValid = true → Restores Job.ofJson
      ["job_id", "industry", "phase", "asset_types", "updated_at"] j.toJson j) ∧
    (∀ e : CompletionEvent, Restores CompletionEvent.ofJson
      ["event_id", "job_id", "has_partial_completion"] e.toJson e) ∧
    (∀ m : MatchRequest, Restores MatchRequest.ofJson
      ["job_id", "industry", "product_set_id", "video_set_id"] m.toJson m) ∧
    (∀ m : JobCompleted, Restores JobCompleted.ofJson ["job_id"] m.toJson m) ∧
    (∀ s : WorkerStatus, WorkerStatus.ofJson s.toJson = .ok s) ∧
    (∀ w : WorkerHealth, Restores WorkerHealth.ofJson ["worker_id", "status"] w.toJson w) ∧
    (∀ e : Endpoint, Restores Endpoint.ofJson ["type", "address"] e.toJson e) ∧
    (∀ s : BusSettings, Restores BusSettings.ofJson ["frontend", "backend"] s.toJson s) ∧
    (∀ s : WorkerSettings, Restores WorkerSettings.ofJson ["worker_name", "dedup_cache_capacity",
      "max_in_flight", "health_interval_secs", "shutdown_timeout_secs"] s.toJson s) ∧
    (∀ s : DatabaseSettings, Restores DatabaseSettings.ofJson ["host", "port", "database",
      "username", "password", "ssl_mode", "max_connections"] s.toJson s) :=
  ⟨Phase.ofJson_toJson, Assets.restores, fun _ => Job.restores, CompletionEvent.restores,
    MatchRequest.restores, JobCompleted.restores, WorkerStatus.ofJson_toJson,
    WorkerHealth.restores, Endpoint.restores, BusSettings.restores, WorkerSettings.restores,
    DatabaseSettings.restores⟩

def leapJob : Job := ⟨"J1", "fashion", .matching, ⟨true, false⟩, ⟨1483228799, 1500000000⟩⟩

theorem json_round_trip_leap_second : leapJob.updatedAt.isValid = true ∧
    Job.ofJson (leapJob.toJson.extend [("owner", .null), ("job", .list [.int 1])]) = .ok leapJob ∧
    Job.ofJson (.list [.text "J1", .text "fashion", .text "matching",
      .object [("has_images", .bool true), ("has_videos", .bool false)],
      .text leapJob.updatedAt.text]) = .ok leapJob := by
  have hvalid : leapJob.updatedAt.isValid = true := by decide
  have h := json_round_trip.2.2.1 leapJob hvalid
  exact ⟨hvalid, h.among _ (by decide), h.inOrder⟩

end PhaseKeeper
