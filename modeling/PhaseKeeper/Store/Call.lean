import PhaseKeeper.Pipeline.Job
/-!
What a store of jobs and of their recorded events is asked for, and what it replies. Whatever else a
store is, each call takes effect at one moment.
-/
namespace PhaseKeeper

inductive DatabaseFault where
  | noRow
  | unexpectedNull
  | refused (code reason : String)
  | closed
deriving DecidableEq, Repr

def DatabaseFault.message : DatabaseFault → String
  | .noRow => "no rows returned by a query that expected to return at least one row"
  | .unexpectedNull =>
    "error occurred while decoding column 0: unexpected null; try decoding as an " ++ ticked "Option"
  | .refused _ reason => "error returned from database: " ++ reason
  | .closed => "attempted to acquire a connection on a closed pool"

def DatabaseFault.code? : DatabaseFault → Option String
  | .refused code _ => some code
  | _ => none

inductive StoreFault where
  | database (cause : DatabaseFault)
  | alreadyRecorded (eventId : String)
  | jobNotFound (jobId : String)
  | corrupt (jobId reason : String)
  | unavailable (reason : String)
deriving DecidableEq, Repr

def StoreFault.message : StoreFault → String
  | .database cause => "database error: " ++ cause.message
  | .alreadyRecorded eventId => "event already recorded: " ++ eventId
  | .jobNotFound jobId => "job not found: " ++ jobId
  | .corrupt jobId reason => "corrupt row for job " ++ jobId ++ ": " ++ reason
  | .unavailable reason => "store unavailable: " ++ reason

structure LedgerEntry where
  eventId : String
  jobId : String
  eventType : String
  createdAt : Instant
deriving DecidableEq, Repr

/-- `swapPhase` only takes place if the job is in the expected phase. -/
inductive StoreCall where
  | phaseOf (jobId : String)
  | swapPhase (jobId : String) (expected target : Phase)
  | assetsOf (jobId : String)
  | hasEvent (jobId eventType : String)
  | industryOf (jobId : String)
  | insertEvent (entry : LedgerEntry)
deriving DecidableEq, Repr

namespace StoreCall

abbrev Answer : StoreCall → Type
  | .phaseOf _ => Option Phase
  | .swapPhase .. => Bool
  | .assetsOf _ => Assets
  | .hasEvent .. => Bool
  | .industryOf _ => String
  | .insertEvent _ => Unit

abbrev Reply (c : StoreCall) : Type := Except StoreFault c.Answer

def jobId : StoreCall → String
  | .phaseOf j | .swapPhase j _ _ | .assetsOf j | .hasEvent j _ | .industryOf j => j
  | .insertEvent entry => entry.jobId

end StoreCall

inductive StoreOp where
  | phaseOf
  | swapPhase
  | assetsOf
  | hasEvent
  | industryOf
  | insertEvent
deriving DecidableEq, Repr

namespace StoreOp

def name : StoreOp → String
  | .phaseOf => "GetPhase"
  | .swapPhase => "UpdatePhase"
  | .assetsOf => "AssetTypes"
  | .hasEvent => "HasEvent"
  | .industryOf => "Industry"
  | .insertEvent => "InsertEvent"

end StoreOp

def StoreCall.op : StoreCall → StoreOp
  | .phaseOf _ => .phaseOf
  | .swapPhase .. => .swapPhase
  | .assetsOf _ => .assetsOf
  | .hasEvent .. => .hasEvent
  | .industryOf _ => .industryOf
  | .insertEvent _ => .insertEvent

end PhaseKeeper
