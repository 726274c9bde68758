import PhaseKeeper.Handling.Notice
/-!
How a recorded event moves its job on. Each step is decided from the phase of the job and from the
events recorded for it, and takes place only if nobody else has changed the phase meanwhile. The next
step follows at once, because events can have arrived before their time.
-/
namespace PhaseKeeper

inductive Step where
  | stay
  | refire (effect : Effect)
  | advance (target : Phase) (effect : Option Effect)
deriving DecidableEq, Repr

namespace Step

def complete : Step := .advance .completed (some .announceCompletion)
def startMatching : Step := .advance .matching (some .requestMatching)

end Step

/-- Whether an event is recorded. It counts as not recorded if the ledger cannot be read. -/
def seen (jobId eventType : String) : Handling Bool := do
  match ← askStore (.hasEvent jobId eventType) with
  | .ok found => return found
  | .error _ => return false

def allSeen (jobId : String) : List String → Handling Bool
  | [] => return true
  | t :: ts => do
    if ← seen jobId t then allSeen jobId ts else return false

def featureStep (jobId : String) : Handling (Except StoreFault Step) := do
  match ← askStore (.assetsOf jobId) with
  | .error cause => return .error cause
  | .ok assets => do
    if ← allSeen jobId assets.required then return .ok .startMatching else return .ok .stay

def evidenceStep (jobId eventType : String) : Handling (Except StoreFault Step) :=
  if eventType = Topic.evidences then return .ok .complete
  else do
    if ← seen jobId Topic.evidences then return .ok .complete else return .ok .stay

/-- The step that the phase of a job calls for. Only the first step of an event fires an effect again. -/
def phaseStep (jobId eventType : String) (first : Bool) : Phase → Handling (Except StoreFault Step)
  | .collection => return .ok (.advance .featureExtraction none)
  | .featureExtraction => featureStep jobId
  | .matching =>
    if eventType = Topic.matchings then return .ok (.advance .evidence none)
    else if first then return .ok (.refire .requestMatching)
    else return .ok .stay
  | .evidence => evidenceStep jobId eventType
  | .completed => return .ok .stay

/-- Evidence can be complete before anyone here knew that matching was; then the job is complete. -/
def nextStep (jobId eventType : String) (first : Bool) (phase : Phase) :
    Handling (Except StoreFault Step) :=
  if eventType = Topic.evidences ∧ phase < .evidence then do
    if ← seen jobId Topic.matchings then return .ok .complete
    else phaseStep jobId eventType first phase
  else phaseStep jobId eventType first phase

/-- What became of a job. `conflict` tells that somebody else had changed its phase. -/
structure Report where
  jobId : String
  eventType : String
  start : Phase
  finish : Phase
  effects : List Effect
  conflict : Bool
deriving DecidableEq, Repr

def Report.advanced (r : Report) : Bool := r.finish ≠ r.start

def Report.firing (r : Report) : Option Effect → Handling (Except HandlingFault Report)
  | none => return .ok r
  | some effect => do
    match ← effect.fire r.jobId with
    | .error cause => return .error cause
    | .ok () => return .ok { r with effects := r.effects ++ [effect] }

/-- Up to `n` steps from where the report ends. -/
def chain (first : Bool) : (n : Nat) → Report → Handling (Except HandlingFault Report)
  | 0, r => return .ok r
  | n + 1, r => do
    match ← nextStep r.jobId r.eventType first r.finish with
    | .error cause => return .error (.store cause)
    | .ok .stay => return .ok r
    | .ok (.refire effect) => r.firing (some effect)
    | .ok (.advance target effect) =>
      match r.finish.ensureForward target with
      | .error cause => return .error (.phase cause)
      | .ok () =>
        match ← askStore (.swapPhase r.jobId r.finish target) with
        | .error cause => return .error (.store cause)
        | .ok false => return .ok { r with conflict := true }
        | .ok true => do
          match ← { r with finish := target }.firing effect with
          | .error cause => return .error cause
          | .ok r => if target.isTerminal then return .ok r else chain false n r

/-- No chain is longer than the pipeline. -/
def longestChain : Nat := 5

def applyEvent (jobId eventType : String) (start : Phase) :
    Handling (Except HandlingFault Report) :=
  chain true longestChain ⟨jobId, eventType, start, start, [], false⟩

end PhaseKeeper
