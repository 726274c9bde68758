import PhaseKeeper.Handling.Request
import PhaseKeeper.Store.Statement
/-!
The store over a relational database: each call is a program of statements. Asset flags that are not
set yet are derived from the collected rows; whoever sets a flag first decides it for everybody.
-/
namespace PhaseKeeper.Relational

inductive Query where
  | run (s : Statement)
  | report (incident : Incident)
deriving DecidableEq

abbrev Query.Reply : Query → Type
  | .run s => s.Reply
  | .report _ => Unit

abbrev Querying := Program Query Query.Reply

def run (s : Statement) : Querying s.Reply := .ask (.run s) .done

def report (incident : Incident) : Querying Unit := .ask (.report incident) .done

def asStore {α : Type} : Except DatabaseFault α → Except StoreFault α
  | .ok a => .ok a
  | .error cause => .error (.database cause)

def phaseOf (jobId : String) : Querying (Except StoreFault (Option Phase)) := do
  match ← run (.selectPhase jobId) with
  | .error cause => return .error (.database cause)
  | .ok none => return .ok none
  | .ok (some name) =>
    match Phase.parse name with
    | .ok p => return .ok (some p)
    | .error cause => return .error (.corrupt jobId cause.message)

def swapPhase (jobId : String) (expected target : Phase) : Querying (Except StoreFault Bool) := do
  match ← run (.swapPhase jobId expected target) with
  | .error cause => return .error (.database cause)
  | .ok changed => return .ok (changed = 1)

/-- Whether a table has rows for a job. A table that does not exist has none. -/
def hasRows (table : AssetTable) (jobId : String) : Querying (Except DatabaseFault Bool) := do
  match ← run (.tableExists table) with
  | .error cause => return .error cause
  | .ok false => return .ok false
  | .ok true => run (.rowExists table jobId)

def fillFlags (jobId : String) (images videos : Bool) : Querying (Except StoreFault Assets) := do
  match ← run (.fillFlags jobId images videos) with
  | .error cause => return .error (.database cause)
  | .ok none => return .error (.jobNotFound jobId)
  | .ok (some flags) => return .ok ⟨flags.1.getD images, flags.2.getD videos⟩

def deriveAssets (jobId : String) : Querying (Except StoreFault Assets) := do
  match ← hasRows .images jobId with
  | .error cause => return .error (.database cause)
  | .ok images =>
    match ← hasRows .videos jobId with
    | .error cause => return .error (.database cause)
    | .ok videos => fillFlags jobId images videos

def assetsOf (jobId : String) : Querying (Except StoreFault Assets) := do
  match ← run (.selectFlags jobId) with
  | .error cause => return .error (.database cause)
  | .ok none => return .error (.jobNotFound jobId)
  | .ok (some (some images, some videos)) => return .ok ⟨images, videos⟩
  | .ok (some _) => deriveAssets jobId

def industryOf (jobId : String) : Querying (Except StoreFault String) := do
  match ← run (.selectIndustry jobId) with
  | .error cause => return .error (.database cause)
  | .ok none => return .error (.jobNotFound jobId)
  | .ok (some industry) => return .ok industry

def uniqueViolation : String := "23505"

def foreignKeyViolation : String := "23503"

/-- A primary key stands for an event that is recorded, a reference for a job that does not exist. -/
def insertEvent (e : LedgerEntry) : Querying (Except StoreFault Unit) := do
  match ← run (.insertEvent e) with
  | .ok _ => return .ok ()
  | .error cause =>
    if cause.code? = some uniqueViolation then return .error (.alreadyRecorded e.eventId)
    else if cause.code? = some foreignKeyViolation then return .error (.jobNotFound e.jobId)
    else do
      report (.insertFailed e.jobId e.eventId cause)
      return .error (.database cause)

def answer : (c : StoreCall) → Querying c.Reply
  | .phaseOf jobId => phaseOf jobId
  | .swapPhase jobId expected target => swapPhase jobId expected target
  | .assetsOf jobId => assetsOf jobId
  | .hasEvent jobId eventType => asStore <$> run (.eventExists jobId eventType)
  | .industryOf jobId => industryOf jobId
  | .insertEvent entry => insertEvent entry

end PhaseKeeper.Relational
