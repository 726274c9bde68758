import PhaseKeeper.Json.Record
import PhaseKeeper.Message.Payload
import PhaseKeeper.Pipeline.Phase
import PhaseKeeper.Time.Instant
/-! Jobs, the assets they have, and the events that have to arrive before features are complete. -/
namespace PhaseKeeper

structure Assets where
  images : Bool
  videos : Bool
deriving DecidableEq, Repr, Inhabited

namespace Assets

def isEmpty (a : Assets) : Bool := !a.images && !a.videos

/-- What has to be recorded before a job with these assets leaves feature extraction. -/
def required (a : Assets) : List String :=
  (if a.images then [Topic.imageEmbeddings, Topic.imageKeypoints] else []) ++
    (if a.videos then [Topic.videoEmbeddings, Topic.videoKeypoints] else [])

def toJson (a : Assets) : Json :=
  .object [("has_images", .bool a.images), ("has_videos", .bool a.videos)]

def record : Json.Record :=
  ⟨"AssetTypes", [Json.field "has_images" Json.asBool, Json.field "has_videos" Json.asBool], 2⟩

def ofJson : Json.Reader Assets :=
  record.read fun ms => do
    return ⟨← ms.need "has_images" Json.asBool, ← ms.need "has_videos" Json.asBool⟩

end Assets

def Phase.toJson (p : Phase) : Json := .text p.name
def Phase.ofJson : Json.Reader Phase := Json.asVariant Phase.named

structure Job where
  id : String
  industry : String
  phase : Phase
  assets : Assets
  updatedAt : Instant
deriving DecidableEq, Repr

namespace Job

def toJson (j : Job) : Json :=
  .object [("asset_types", j.assets.toJson), ("industry", .text j.industry),
    ("job_id", .text j.id), ("phase", j.phase.toJson), ("updated_at", .text j.updatedAt.text)]

def record : Json.Record :=
  ⟨"Job", [Json.field "job_id" Json.asText, Json.field "industry" Json.asText,
    Json.field "phase" Phase.ofJson, Json.field "asset_types" Assets.ofJson,
    Json.field "updated_at" Json.asInstant], 5⟩

def ofJson : Json.Reader Job :=
  record.read fun ms => do
    return {
      id := ← ms.need "job_id" Json.asText
      industry := ← ms.need "industry" Json.asText
      phase := ← ms.need "phase" Phase.ofJson
      assets := ← ms.need "asset_types" Assets.ofJson
      updatedAt := ← ms.need "updated_at" Json.asInstant }

end Job
end PhaseKeeper
