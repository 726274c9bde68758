import PhaseKeeper.Store.Call
/-!
The statements to a relational database of jobs and events. Each has a text with numbered parameters;
what it yields depends on the statement.
-/
namespace PhaseKeeper

inductive AssetTable where
  | images
  | videos
deriving DecidableEq, Repr

def AssetTable.name : AssetTable → String
  | .images => "product_images"
  | .videos => "videos"

inductive Parameter where
  | text (s : String)
  | bool (b : Bool)
  | moment (t : Instant)
deriving DecidableEq, Repr

inductive Statement where
  | selectPhase (jobId : String)
  | swapPhase (jobId : String) (expected target : Phase)
  | selectFlags (jobId : String)
  | tableExists (table : AssetTable)
  | rowExists (table : AssetTable) (jobId : String)
  /-- Sets the flags that are null, and yields both. -/
  | fillFlags (jobId : String) (images videos : Bool)
  | eventExists (jobId eventType : String)
  | selectIndustry (jobId : String)
  | insertEvent (entry : LedgerEntry)
deriving DecidableEq, Repr

namespace Statement

def text : Statement → String
  | .selectPhase _ => "SELECT phase FROM jobs WHERE job_id = $1"
  | .swapPhase .. =>
    "UPDATE jobs SET phase = $3, updated_at = NOW() WHERE job_id = $1 AND phase = $2"
  | .selectFlags _ => "SELECT has_images, has_videos FROM jobs WHERE job_id = $1"
  | .tableExists _ => "SELECT to_regclass($1) IS NOT NULL"
  | .rowExists table _ => "SELECT EXISTS (SELECT 1 FROM " ++ table.name ++ " WHERE job_id = $1)"
  | .fillFlags .. =>
    "UPDATE jobs SET has_images = COALESCE(has_images, $2), " ++
      "has_videos = COALESCE(has_videos, $3) WHERE job_id = $1 RETURNING has_images, has_videos"
  | .eventExists .. =>
    "SELECT EXISTS ( SELECT 1 FROM phase_events WHERE job_id = $1 AND event_type = $2 )"
  | .selectIndustry _ => "SELECT industry FROM jobs WHERE job_id = $1"
  | .insertEvent _ =>
    "INSERT INTO phase_events (event_id, job_id, event_type, created_at) VALUES ($1, $2, $3, $4)"

def parameters : Statement → List Parameter
  | .selectPhase jobId | .selectFlags jobId | .selectIndustry jobId => [.text jobId]
  | .swapPhase jobId expected target => [.text jobId, .text expected.name, .text target.name]
  | .tableExists table => [.text table.name]
  | .rowExists _ jobId => [.text jobId]
  | .fillFlags jobId images videos => [.text jobId, .bool images, .bool videos]
  | .eventExists jobId eventType => [.text jobId, .text eventType]
  | .insertEvent e => [.text e.eventId, .text e.jobId, .text e.eventType, .moment e.createdAt]

abbrev Flags : Type := Option Bool × Option Bool

abbrev Result : Statement → Type
  | .selectPhase _ | .selectIndustry _ => Option String
  | .selectFlags _ | .fillFlags .. => Option Flags
  | .tableExists _ | .rowExists .. | .eventExists .. => Bool
  | .swapPhase .. | .insertEvent _ => Nat

abbrev Reply (s : Statement) : Type := Except DatabaseFault s.Result

end Statement
end PhaseKeeper
