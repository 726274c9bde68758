import PhaseKeeper.Handling.Request
import PhaseKeeper.Message.Payload
/-!
What is sent out about a job. A lost request to match it is only logged; that its completion could not
be announced is a failure.
-/
namespace PhaseKeeper

inductive Effect where
  | requestMatching
  | announceCompletion
deriving DecidableEq, Repr

def Effect.name : Effect → String
  | .requestMatching => "request_matching"
  | .announceCompletion => "announce_completion"

def MatchRequest.draft (m : MatchRequest) : Draft := .ofJob Topic.matchRequest m.jobId m.pack

def JobCompleted.draft (m : JobCompleted) : Draft := .ofJob Topic.jobCompleted m.jobId m.pack

def sendRequest (jobId : String) : Handling Unit := do
  match ← askStore (.industryOf jobId) with
  | .error cause => ask (.report (.industryUnknown jobId cause))
  | .ok industry =>
    match ← ask (.publish (MatchRequest.ofJob jobId industry).draft) with
    | .error cause => ask (.report (.requestNotSent jobId cause))
    | .ok () => return ()

def announce (jobId : String) : Handling (Except HandlingFault Unit) := do
  match ← ask (.publish (JobCompleted.mk jobId).draft) with
  | .error cause => do
    ask (.report (.announcementNotSent jobId cause))
    return .error (.publish Topic.jobCompleted jobId cause)
  | .ok () => return .ok ()

def Effect.fire (jobId : String) : Effect → Handling (Except HandlingFault Unit)
  | .requestMatching => .ok <$> sendRequest jobId
  | .announceCompletion => announce jobId

end PhaseKeeper
