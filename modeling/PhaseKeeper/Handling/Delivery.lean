import PhaseKeeper.Event.Registry
import PhaseKeeper.Handling.Request
import PhaseKeeper.Handling.Transition
/-!
The handling of one delivery: its payload is checked, the event is recorded, and the job moves on. A
delivery that is refused, or was seen before, changes nothing. An event that was seen lately is not looked
up in the ledger; the ledger is what decides.
-/
namespace PhaseKeeper

inductive Recording where
  | recorded
  | alreadyProcessed
  | failed (cause : StoreFault)
deriving DecidableEq, Repr

def insertNew (entry : LedgerEntry) : Handling Recording := do
  match ← askStore (.insertEvent entry) with
  | .ok () => do
    ask (.remember entry.eventId)
    return .recorded
  | .error (.alreadyRecorded _) => do
    ask (.remember entry.eventId)
    return .alreadyProcessed
  | .error cause => return .failed cause

def recordEvent (eventId jobId eventType : String) : Handling Recording := do
  if ← ask (.lookUp eventId) then return .alreadyProcessed
  else do
    let now ← ask .now
    insertNew ⟨eventId, jobId, eventType, now⟩

inductive Outcome where
  | rejected (cause : SchemaError)
  | duplicate
  | storageFailed (cause : StoreFault)
  | unknownJob
  | applied (report : Report)
  | failed (cause : HandlingFault)
deriving DecidableEq, Repr

def acceptEvent (registry : EventRegistry) (eventType : String) (payload : Json) :
    Except SchemaError CompletionEvent := do
  registry.validate eventType payload
  (CompletionEvent.ofJson payload).mapError fun e => .ofPayload eventType (.illTyped e)

def advanceJob (eventId jobId eventType : String) : Handling Outcome := do
  match ← askStore (.phaseOf jobId) with
  | .ok none => return .unknownJob
  | .error cause => do
    ask (.report (.phaseUnknown jobId eventId eventType cause))
    return .failed (.store cause)
  | .ok (some phase) =>
    match ← applyEvent jobId eventType phase with
    | .ok report => return .applied report
    | .error cause => do
      ask (.report (.transitionFailed jobId eventId eventType phase cause))
      return .failed cause

def handleAccepted (eventType : String) (e : CompletionEvent) : Handling Outcome := do
  match ← recordEvent e.eventId e.jobId eventType with
  | .recorded => advanceJob e.eventId e.jobId eventType
  | .alreadyProcessed => return .duplicate
  | .failed (.jobNotFound _) => return .unknownJob
  | .failed cause => return .storageFailed cause

def handleEvent (registry : EventRegistry) (eventType : String) (payload : Json) :
    Handling Outcome :=
  match acceptEvent registry eventType payload with
  | .error cause => return .rejected cause
  | .ok e => handleAccepted eventType e

def handleMessage (registry : EventRegistry) (m : Message) : Handling Outcome :=
  match m.decodeValue with
  | .error cause => return .rejected (.ofPayload m.topic (.undecodable cause))
  | .ok payload => handleEvent registry m.topic payload

end PhaseKeeper
