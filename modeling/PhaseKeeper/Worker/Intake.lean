import PhaseKeeper.Worker.Permits
/-!
The intake of messages from the bus. A receive loop takes a permit before it waits for a message, and
hands the permit on to a handler of the message; so no more messages are handled at a time than
there are permits. A stop tells the loops to leave, waits for the one whose handle is kept, claims
all permits, and returns when it has been given them. While it waits for them it keeps those that are
free.
-/
namespace PhaseKeeper

inductive Claimant where
  | loop (i : Nat)
  | call (c : Nat)
deriving DecidableEq

/-- A loop begins a round, waits for a permit, waits for a message, rests after a failed receive, or
has ended. -/
inductive LoopStage where
  | seeking
  | queued
  | receiving
  | resting
  | ended
deriving DecidableEq, Repr

inductive LoopAction (M : Type) where
  | seek
  | takePermit
  | receive (message : M)
  | failReceive
  | wake
  | leave

structure ReceiveLoop where
  stage : LoopStage
  /-- Whether it was told to leave. -/
  told : Bool
deriving DecidableEq, Repr

namespace ReceiveLoop

def holdsPermit (l : ReceiveLoop) : Bool := l.stage = .receiving

/-- The stage after an action of the loop with number `i`, the permits then, and the message that was
received. A loop that was told to leave does so at either of its waits, but may find a permit or a
message there first. -/
def step? {M : Type} (l : ReceiveLoop) (i : Nat) (p : Permits Claimant) :
    LoopAction M → Option (LoopStage × Permits Claimant × Option M)
  | .seek => if l.stage = .seeking then some (.queued, p.claim (.loop i) 1, none) else none
  | .takePermit =>
    if l.stage = .queued then (p.collect? (.loop i) 1).map (.receiving, ·, none) else none
  | .receive m => if l.stage = .receiving then some (.seeking, p, some m) else none
  | .failReceive => if l.stage = .receiving then some (.resting, p.giveBack 1, none) else none
  | .wake => if l.stage = .resting then some (.seeking, p, none) else none
  | .leave =>
    if !l.told then none
    else if l.stage = .seeking then some (.ended, p, none)
    else if l.stage = .queued then some (.ended, p.withdraw (.loop i), none)
    else if l.stage = .receiving then some (.ended, p.giveBack 1, none)
    else none

end ReceiveLoop

namespace Intake

/-- A handler has its message and its permit from the beginning. The engine gets the message when the
handler begins. -/
inductive Handler (M W : Type) where
  | spawned (message : M)
  | running (work : W)

inductive HandlerAction (W : Type) where
  | begin
  | resume (work : W)
  | finish

inductive Note (M : Type) where
  | received (message : M)
  | handed (message : M)

def Handler.step? {M W : Type} (engine : M → W) :
    Handler M W → HandlerAction W → Option (List (Note M) × Option (Handler M W))
  | .spawned m, .begin => some ([.handed m], some (.running (engine m)))
  | .running _, .resume w => some ([], some (.running w))
  | .running _, .finish => some ([], none)
  | _, _ => none

end Intake

/-- How far a call has come: a start, whose loop runs already, until it keeps the handle of the loop;
a stop, which has told all loops, until it has collected all permits. -/
inductive CallStage where
  | keeping (loop : Nat)
  | started
  | taking
  | joining (loop : Nat)
  | draining
  | collecting
  | stopped
  | abandoned
deriving DecidableEq, Repr

def CallStage.isPending : CallStage → Bool
  | .keeping _ | .taking | .joining _ | .draining | .collecting => true
  | .started | .stopped | .abandoned => false

structure Intake (M W : Type) where
  /-- What the engine does with a message. -/
  engine : M → W
  limit : Nat
  permits : Permits Claimant
  loops : List ReceiveLoop
  /-- The loop whose handle is kept. -/
  kept : Option Nat
  handlers : List (Intake.Handler M W)
  calls : List CallStage

namespace Intake
variable {M W : Type}

def ofLimit (engine : M → W) (maxInFlight : Nat) : Intake M W :=
  ⟨engine, max maxInFlight 1, .ofCount (max maxInFlight 1), [], none, [], []⟩

def inFlight (s : Intake M W) : Nat := s.limit - s.permits.free

/-- The permits that a stop asks for. Their number has 32 bits. -/
def quota (s : Intake M W) : Nat := if s.limit < UInt32.size then s.limit else UInt32.size - 1

/-- While a stop waits for a loop, no other call gets at the kept handle. -/
def locked (s : Intake M W) : Bool := s.calls.any fun
  | .joining _ => true
  | _ => false

inductive Action (M W : Type) where
  | start
  | stop
  | loop (i : Nat) (a : LoopAction M)
  | handler (k : Nat) (a : HandlerAction W)
  | proceed (call : Nat)
  | abandon (call : Nat)

def setCall (s : Intake M W) (c : Nat) (stage : CallStage) : Intake M W :=
  { s with calls := s.calls.set c stage }

/-- The next step of a call. A stop gives the permits back as it returns. -/
def proceed? (s : Intake M W) (c : Nat) : CallStage → Option (Intake M W)
  | .keeping i => if s.locked then none else some { s.setCall c .started with kept := some i }
  | .taking =>
    if s.locked then none
    else
      match s.kept with
      | some i => some { s.setCall c (.joining i) with kept := none }
      | none => some (s.setCall c .draining)
  | .joining i =>
    if (s.loops[i]?).any (·.stage = .ended) then some (s.setCall c .draining) else none
  | .draining =>
    some { s.setCall c .collecting with permits := s.permits.claim (.call c) s.quota }
  | .collecting => (s.permits.collect? (.call c) s.quota).map fun p =>
    { s.setCall c .stopped with permits := p.giveBack s.quota }
  | .started | .stopped | .abandoned => none

def step? (s : Intake M W) : Action M W → Option (List (Note M) × Intake M W)
  | .start => some ([], { s with
      loops := s.loops ++ [⟨.seeking, false⟩]
      calls := s.calls ++ [.keeping s.loops.length] })
  | .stop => some ([], { s with
      loops := s.loops.map fun l => { l with told := true }
      calls := s.calls ++ [.taking] })
  | .loop i a => do
    let l ← s.loops[i]?
    let (stage, permits, received) ← l.step? i s.permits a
    return (received.toList.map .received, { s with
      permits
      loops := s.loops.set i { l with stage }
      handlers := s.handlers ++ received.toList.map .spawned })
  | .handler k a => do
    let h ← s.handlers[k]?
    let (notes, next) ← h.step? s.engine a
    return (notes, { s with
      permits := if next.isNone then s.permits.giveBack 1 else s.permits
      handlers := s.handlers.eraseIdx k ++ next.toList })
  | .proceed c => do
    let stage ← s.calls[c]?
    let s ← s.proceed? c stage
    return ([], s)
  | .abandon c => do
    let stage ← s.calls[c]?
    if stage.isPending then
      return ([], { s.setCall c .abandoned with permits := s.permits.withdraw (.call c) })
    else none

end Intake
end PhaseKeeper
