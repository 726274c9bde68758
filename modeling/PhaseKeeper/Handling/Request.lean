import PhaseKeeper.Bus.Recording
import PhaseKeeper.Message.Envelope
import PhaseKeeper.Program
import PhaseKeeper.Store.Call
/-!
What the handling of an event asks of its surroundings: the store, the identifiers that were seen last,
the clock, the bus, and a log for what should not have happened.
-/
namespace PhaseKeeper

inductive HandlingFault where
  | store (cause : StoreFault)
  | phase (cause : Phase.Error)
  | publish (topic jobId : String) (cause : BusFault)
deriving DecidableEq, Repr

def HandlingFault.message : HandlingFault → String
  | .store cause => cause.message
  | .phase cause => cause.message
  | .publish topic jobId cause =>
    "failed to publish " ++ topic ++ " for job " ++ jobId ++ ": " ++ cause.message

inductive Incident where
  | industryUnknown (jobId : String) (cause : StoreFault)
  | requestNotSent (jobId : String) (cause : BusFault)
  | announcementNotSent (jobId : String) (cause : BusFault)
  | phaseUnknown (jobId eventId eventType : String) (cause : StoreFault)
  | transitionFailed (jobId eventId eventType : String) (phase : Phase) (cause : HandlingFault)
  | insertFailed (jobId eventId : String) (cause : DatabaseFault)
deriving DecidableEq, Repr

namespace Incident

def headline : Incident → String
  | .industryUnknown .. => "match request not sent: industry lookup failed"
  | .requestNotSent .. => "match request not sent: publish failed"
  | .announcementNotSent .. => "job completion notification failed"
  | .phaseUnknown .. => "failed to read job phase"
  | .transitionFailed .. => "transition failed"
  | .insertFailed _ _ cause => "phase event insert failed: " ++ cause.message

def details : Incident → List (String × String)
  | .industryUnknown jobId cause => [("job_id", jobId), ("error", cause.message)]
  | .requestNotSent jobId cause => [("job_id", jobId), ("error", cause.message)]
  | .announcementNotSent jobId cause => [("job_id", jobId), ("error", cause.message)]
  | .phaseUnknown jobId eventId eventType cause =>
    [("job_id", jobId), ("event_id", eventId), ("event_type", eventType), ("error", cause.message)]
  | .transitionFailed jobId eventId eventType phase cause =>
    [("job_id", jobId), ("event_id", eventId), ("event_type", eventType), ("phase", phase.name),
      ("error", cause.message)]
  | .insertFailed jobId eventId _ => [("job_id", jobId), ("event_id", eventId)]

end Incident

inductive Request where
  | store (call : StoreCall)
  /-- Whether an event was seen lately. -/
  | lookUp (eventId : String)
  | remember (eventId : String)
  | now
  | publish (draft : Draft)
  | report (incident : Incident)
deriving DecidableEq

abbrev Request.Reply : Request → Type
  | .store c => c.Reply
  | .lookUp _ => Bool
  | .remember _ => Unit
  | .now => Instant
  | .publish _ => Except BusFault Unit
  | .report _ => Unit

abbrev Handling := Program Request Request.Reply

def ask (r : Request) : Handling r.Reply := .call r

def askStore (c : StoreCall) : Handling c.Reply := ask (.store c)

end PhaseKeeper
