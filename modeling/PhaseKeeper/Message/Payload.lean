import PhaseKeeper.Json.Record
import PhaseKeeper.MessagePack.Record
import PhaseKeeper.MessagePack.Writer
/-!
What messages carry, and the topics on which they go: the event that a worker sends when it has completed
its part, the request to match a job, the notice that a job is complete, and the health of a worker. Each
is written as a map of its fields in order.
-/
namespace PhaseKeeper

namespace Topic

def imageEmbeddings : String := "image.embeddings.completed"
def imageKeypoints : String := "image.keypoints.completed"
def videoEmbeddings : String := "video.embeddings.completed"
def videoKeypoints : String := "video.keypoints.completed"
def matchings : String := "matchings.process.completed"
def evidences : String := "evidences.generation.completed"

def completions : List String :=
  [imageEmbeddings, imageKeypoints, videoEmbeddings, videoKeypoints, matchings, evidences]

def matchRequest : String := "match.request"
def jobCompleted : String := "job.completed"
def workerHealth : String := "worker.health"

end Topic

structure CompletionEvent where
  eventId : String
  jobId : String
  partialCompletion : Option Bool
deriving DecidableEq, Repr

namespace CompletionEvent

def toJson (e : CompletionEvent) : Json :=
  .object ([("event_id", .text e.eventId)] ++
    (match e.partialCompletion with
      | some b => [("has_partial_completion", .bool b)]
      | none => []) ++
    [("job_id", .text e.jobId)])

/-- The flag may be left out of a list as well. -/
def record : Json.Record :=
  ⟨"CompletionEvent", [Json.field "event_id" Json.asText, Json.field "job_id" Json.asText,
    Json.field "has_partial_completion" (Json.asOption Json.asBool)], 2⟩

def ofJson : Json.Reader CompletionEvent :=
  record.read fun ms => do
    return {
      eventId := ← ms.need "event_id" Json.asText
      jobId := ← ms.need "job_id" Json.asText
      partialCompletion := ← ms.want "has_partial_completion" Json.asBool }

def pack (e : CompletionEvent) : Bytes :=
  MessagePack.writeRecord ([("event_id", MessagePack.writeText e.eventId),
    ("job_id", MessagePack.writeText e.jobId)] ++
    match e.partialCompletion with
      | some b => [("has_partial_completion", MessagePack.write (.bool b))]
      | none => [])

inductive Part where
  | eventId (s : String)
  | jobId (s : String)
  | partialCompletion (b : Option Bool)

def parts : MessagePack.Record Part where
  name := "CompletionEvent"
  fields := ["event_id", "job_id", "has_partial_completion"]
  least := 2
  part
    | 0 => .eventId <$> MessagePack.text
    | 1 => .jobId <$> MessagePack.text
    | _ => .partialCompletion <$> MessagePack.optionalBool

def ofParts (ps : List Part) : Except MessagePack.ReadError CompletionEvent := do
  return {
    eventId := ← MessagePack.require ps "event_id" fun | .eventId s => some s | _ => none
    jobId := ← MessagePack.require ps "job_id" fun | .jobId s => some s | _ => none
    partialCompletion :=
      (ps.findSome? fun | .partialCompletion b => some b | _ => none).getD none }

def unpack (bytes : Bytes) : Except MessagePack.ReadError CompletionEvent := do
  ofParts (← MessagePack.readAll parts.read bytes)

end CompletionEvent

structure MatchRequest where
  jobId : String
  industry : String
  productSetId : String
  videoSetId : String
deriving DecidableEq, Repr

namespace MatchRequest

/-- The sets of products and of videos to match are those of the job. -/
def ofJob (jobId industry : String) : MatchRequest := ⟨jobId, industry, jobId, jobId⟩

def toJson (m : MatchRequest) : Json :=
  .object [("industry", .text m.industry), ("job_id", .text m.jobId),
    ("product_set_id", .text m.productSetId), ("video_set_id", .text m.videoSetId)]

def record : Json.Record :=
  ⟨"MatchRequest", [Json.field "job_id" Json.asText, Json.field "industry" Json.asText,
    Json.field "product_set_id" Json.asText, Json.field "video_set_id" Json.asText], 4⟩

def ofJson : Json.Reader MatchRequest :=
  record.read fun ms => do
    return ⟨← ms.need "job_id" Json.asText, ← ms.need "industry" Json.asText,
      ← ms.need "product_set_id" Json.asText, ← ms.need "video_set_id" Json.asText⟩

def pack (m : MatchRequest) : Bytes :=
  MessagePack.writeRecord [("job_id", MessagePack.writeText m.jobId),
    ("industry", MessagePack.writeText m.industry),
    ("product_set_id", MessagePack.writeText m.productSetId),
    ("video_set_id", MessagePack.writeText m.videoSetId)]

def parts : MessagePack.Record (Nat × String) where
  name := "MatchRequest"
  fields := ["job_id", "industry", "product_set_id", "video_set_id"]
  least := 4
  part i := (i, ·) <$> MessagePack.text

def ofParts (ps : List (Nat × String)) : Except MessagePack.ReadError MatchRequest := do
  let at' (i : Nat) (name : String) :=
    MessagePack.require ps name fun (j, s) => if j = i then some s else none
  return ⟨← at' 0 "job_id", ← at' 1 "industry", ← at' 2 "product_set_id", ← at' 3 "video_set_id"⟩

def unpack (bytes : Bytes) : Except MessagePack.ReadError MatchRequest := do
  ofParts (← MessagePack.readAll parts.read bytes)

end MatchRequest

structure JobCompleted where
  jobId : String
deriving DecidableEq, Repr

namespace JobCompleted

def toJson (m : JobCompleted) : Json := .object [("job_id", .text m.jobId)]

def record : Json.Record := ⟨"JobCompleted", [Json.field "job_id" Json.asText], 1⟩

def ofJson : Json.Reader JobCompleted :=
  record.read fun ms => do return ⟨← ms.need "job_id" Json.asText⟩

def pack (m : JobCompleted) : Bytes :=
  MessagePack.writeRecord [("job_id", MessagePack.writeText m.jobId)]

def parts : MessagePack.Record String where
  name := "JobCompleted"
  fields := ["job_id"]
  least := 1
  part _ := MessagePack.text

def ofParts (ps : List String) : Except MessagePack.ReadError JobCompleted := do
  return ⟨← MessagePack.require ps "job_id" some⟩

def unpack (bytes : Bytes) : Except MessagePack.ReadError JobCompleted := do
  ofParts (← MessagePack.readAll parts.read bytes)

end JobCompleted

inductive WorkerStatus where
  | healthy
  | unhealthy
deriving DecidableEq, Repr

namespace WorkerStatus

def name : WorkerStatus → String
  | .healthy => "Healthy"
  | .unhealthy => "Unhealthy"

def named : List (String × WorkerStatus) := [("Healthy", .healthy), ("Unhealthy", .unhealthy)]

def toJson (s : WorkerStatus) : Json := .text s.name
def ofJson : Json.Reader WorkerStatus := Json.asVariant named

end WorkerStatus

structure WorkerHealth where
  workerId : String
  status : WorkerStatus
deriving DecidableEq, Repr

namespace WorkerHealth

def toJson (h : WorkerHealth) : Json :=
  .object [("status", h.status.toJson), ("worker_id", .text h.workerId)]

def record : Json.Record :=
  ⟨"WorkerHealth", [Json.field "worker_id" Json.asText, Json.field "status" WorkerStatus.ofJson], 2⟩

def ofJson : Json.Reader WorkerHealth :=
  record.read fun ms => do
    return ⟨← ms.need "worker_id" Json.asText, ← ms.need "status" WorkerStatus.ofJson⟩

def pack (h : WorkerHealth) : Bytes :=
  MessagePack.writeRecord [("worker_id", MessagePack.writeText h.workerId),
    ("status", MessagePack.writeText h.status.name)]

inductive Part where
  | workerId (s : String)
  | status (s : WorkerStatus)

def parts : MessagePack.Record Part where
  name := "WorkerHealth"
  fields := ["worker_id", "status"]
  least := 2
  part
    | 0 => .workerId <$> MessagePack.text
    | _ => .status <$> MessagePack.variant WorkerStatus.named

def ofParts (ps : List Part) : Except MessagePack.ReadError WorkerHealth := do
  return ⟨← MessagePack.require ps "worker_id" fun | .workerId s => some s | _ => none,
    ← MessagePack.require ps "status" fun | .status s => some s | _ => none⟩

def unpack (bytes : Bytes) : Except MessagePack.ReadError WorkerHealth := do
  ofParts (← MessagePack.readAll parts.read bytes)

end WorkerHealth
end PhaseKeeper
