import PhaseKeeper.Bus.Recording
import PhaseKeeper.Message.Envelope
import PhaseKeeper.Message.Payload
/-!
The life of a worker. Once it has started, its health is published at regular intervals until it is
asked to shut down; then it is stopped, however that ends, and its health is published once more.
Three tasks take part: the main one, one for the pings and one that waits for the request.
-/
namespace PhaseKeeper

/-- Times are in milliseconds. -/
structure WorkerConfig where
  name : String
  healthInterval : Nat
  shutdownTimeout : Nat
deriving DecidableEq, Repr

def WorkerConfig.named (name : String) : WorkerConfig := ⟨name, 30000, 5000⟩

def WorkerHealth.draft (h : WorkerHealth) : Draft := ⟨Topic.workerHealth, h.pack, none⟩

namespace Runner

inductive StopResult where
  | returned
  | failed (cause : BusFault)
  | timedOut
deriving DecidableEq, Repr

/-- The main task: `greeting` and `leaving` wait for a publish to end. -/
inductive MainTask where
  | starting
  | greeting
  | serving
  | stopping
  | leaving
  | finished (result : Except BusFault Unit)

/-- The other two tasks work or wait, until they are aborted or have ended. -/
inductive HealthTask where
  | absent
  | waiting
  | pinging
  | aborted
deriving DecidableEq, Repr

inductive SignalTask where
  | absent
  | listening
  | ended
  | aborted
deriving DecidableEq, Repr

/-- `requested` is a request to shut down that the signal task has not seen yet, `woken` one that the
main task has not seen yet. -/
structure State where
  main : MainTask
  health : HealthTask
  signal : SignalTask
  requested : Bool
  woken : Bool

def State.initial : State := ⟨.starting, .absent, .absent, false, false⟩

inductive Action where
  | started (result : Except BusFault Unit)
  /-- A publish of the main task ends. -/
  | published (result : Except BusFault Unit)
  | request
  | hear
  | tick
  /-- A publish of the health task ends. -/
  | pinged (result : Except BusFault Unit)
  | wake
  | stopEnded (result : StopResult)

inductive Note where
  | stopCalled
  /-- A message was handed to the bus. -/
  | attempted (draft : Draft)
deriving DecidableEq

def ping (config : WorkerConfig) (status : WorkerStatus) : Draft :=
  (WorkerHealth.mk config.name status).draft

/-- Neither a message that could not be published nor the way in which stopping ends changes what
comes next. -/
def step? (config : WorkerConfig) (s : State) : Action → Option (List Note × State)
  | .started result =>
    match s.main, result with
    | .starting, .ok () => some ([.attempted (ping config .healthy)], { s with main := .greeting })
    | .starting, .error cause => some ([], { s with main := .finished (.error cause) })
    | _, _ => none
  | .published _ =>
    match s.main with
    | .greeting => some ([], { s with main := .serving, health := .waiting, signal := .listening })
    | .leaving => some ([], { s with main := .finished (.ok ()) })
    | _ => none
  | .request => some ([], { s with requested := true })
  | .hear =>
    if s.signal = .listening ∧ s.requested then
      some ([], { s with signal := .ended, requested := false, woken := true })
    else none
  | .tick =>
    if s.health = .waiting then
      some ([.attempted (ping config .healthy)], { s with health := .pinging })
    else none
  | .pinged _ => if s.health = .pinging then some ([], { s with health := .waiting }) else none
  | .wake =>
    match s.main with
    | .serving =>
      if s.woken then
        some ([.stopCalled],
          { s with main := .stopping, health := .aborted, signal := .aborted, woken := false })
      else none
    | _ => none
  | .stopEnded _ =>
    match s.main with
    | .stopping => some ([.attempted (ping config .unhealthy)], { s with main := .leaving })
    | _ => none

def run (config : WorkerConfig) (s : State) : List Action → List (List Note) × State
  | [] => ([], s)
  | a :: as =>
    match step? config s a with
    | some (notes, s) =>
      let (rest, s) := run config s as
      (notes :: rest, s)
    | none =>
      let (rest, s) := run config s as
      ([] :: rest, s)

end Runner
end PhaseKeeper
