import PhaseKeeper.Store.Call
/-!
A store in memory. Calls can be made to fail, and a phase write by someone else can be set up to come
just before the next swap. The phases that a job has had are kept, and recorded events stay for ever.
-/
namespace PhaseKeeper

structure JobRow where
  job : Job
  /-- All phases of the job, in the order in which they were written. -/
  history : List Phase
deriving DecidableEq, Repr

def JobRow.write (r : JobRow) (p : Phase) : JobRow :=
  { job := { r.job with phase := p }, history := r.history ++ [p] }

structure MemoryStore where
  rows : List JobRow
  ledger : List LedgerEntry
  /-- The calls that fail, for one job or for all. -/
  faults : List (StoreOp × Option String)
  /-- Phases written by someone else just before the next swap. -/
  pending : List (String × Phase)
deriving DecidableEq, Repr

namespace MemoryStore

def empty : MemoryStore := ⟨[], [], [], []⟩

def row? (s : MemoryStore) (jobId : String) : Option JobRow := s.rows.find? (·.job.id = jobId)

def job? (s : MemoryStore) (jobId : String) : Option Job := (s.row? jobId).map JobRow.job

def phase? (s : MemoryStore) (jobId : String) : Option Phase := (s.job? jobId).map Job.phase

def history (s : MemoryStore) (jobId : String) : List Phase :=
  ((s.row? jobId).map JobRow.history).getD []

def recorded (s : MemoryStore) (eventId : String) : Bool := s.ledger.any (·.eventId = eventId)

def hasEvent (s : MemoryStore) (jobId eventType : String) : Bool :=
  s.ledger.any fun e => e.jobId = jobId && e.eventType = eventType

def entriesOf (s : MemoryStore) (jobId : String) : List LedgerEntry :=
  (s.ledger.filter (·.jobId = jobId)).mergeSort fun a b => a.createdAt.notAfter b.createdAt

def putRow (row : JobRow) : List JobRow → List JobRow
  | [] => [row]
  | r :: rs => if r.job.id = row.job.id then row :: rs else r :: putRow row rs

def insertJob (s : MemoryStore) (j : Job) : MemoryStore :=
  { s with rows := putRow ⟨j, [j.phase]⟩ s.rows }

def fail (s : MemoryStore) (op : StoreOp) (jobId : Option String) : MemoryStore :=
  { s with faults := s.faults ++ [(op, jobId)] }

def recover (s : MemoryStore) : MemoryStore := { s with faults := [] }

def withoutPending (s : MemoryStore) (jobId : String) : MemoryStore :=
  { s with pending := s.pending.filter (·.1 ≠ jobId) }

def interleave (s : MemoryStore) (jobId : String) (p : Phase) : MemoryStore :=
  { s with pending := (jobId, p) :: (s.withoutPending jobId).pending }

def fails (s : MemoryStore) (op : StoreOp) (jobId : String) : Bool :=
  s.faults.any fun f => f.1 = op && (f.2 = none || f.2 = some jobId)

def settle (s : MemoryStore) (jobId : String) : MemoryStore :=
  match s.row? jobId, s.pending.lookup jobId with
  | some r, some p => { s.withoutPending jobId with rows := putRow (r.write p) s.rows }
  | _, _ => s.withoutPending jobId

def swap (now : Instant) (jobId : String) (expected target : Phase) (s : MemoryStore) :
    Bool × MemoryStore :=
  match s.row? jobId with
  | none => (false, s)
  | some r =>
    if r.job.phase = expected then
      let r := r.write target
      (true, { s with rows := putRow { r with job := { r.job with updatedAt := now } } s.rows })
    else (false, s)

def insertEntry (entry : LedgerEntry) (s : MemoryStore) : Except StoreFault Unit × MemoryStore :=
  if (s.row? entry.jobId).isNone then (.error (.jobNotFound entry.jobId), s)
  else if s.recorded entry.eventId then (.error (.alreadyRecorded entry.eventId), s)
  else (.ok (), { s with ledger := s.ledger ++ [entry] })

def perform (now : Instant) : (c : StoreCall) → MemoryStore → c.Reply × MemoryStore
  | .phaseOf jobId, s => (.ok (s.phase? jobId), s)
  | .swapPhase jobId expected target, s =>
    let (swapped, s) := (s.settle jobId).swap now jobId expected target
    (.ok swapped, s)
  | .assetsOf jobId, s =>
    match s.job? jobId with
    | some j => (.ok j.assets, s)
    | none => (.error (.jobNotFound jobId), s)
  | .hasEvent jobId eventType, s => (.ok (s.hasEvent jobId eventType), s)
  | .industryOf jobId, s =>
    match s.job? jobId with
    | some j => (.ok j.industry, s)
    | none => (.error (.jobNotFound jobId), s)
  | .insertEvent entry, s => s.insertEntry entry

def answer (now : Instant) (c : StoreCall) (s : MemoryStore) : c.Reply × MemoryStore :=
  if s.fails c.op c.jobId then
    (.error (.unavailable (c.op.name ++ " failed for job " ++ c.jobId)), s)
  else perform now c s

end MemoryStore
end PhaseKeeper
