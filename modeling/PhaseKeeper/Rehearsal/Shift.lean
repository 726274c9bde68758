import PhaseKeeper.Worker.Runner
/-!
A worker's life in rehearsal: the time that it takes to start and to stop is laid down beforehand, and
so is the moment at which it is asked to shut down. Everything else takes no time.
-/
namespace PhaseKeeper.Rehearsal

structure Shift where
  config : WorkerConfig
  /-- When the request to shut down comes; it comes after the start at the earliest. -/
  shutdownAt : Nat
  startTakes : Nat
  startFault : Option BusFault
  stopTakes : Nat
  stopFault : Option BusFault
deriving DecidableEq, Repr

inductive Sight where
  | start
  | stop
  | stopped
  | sent (draft : Draft)
deriving DecidableEq

namespace Shift
open Runner (Action StopResult Note)

def stopBegins (s : Shift) : Nat := max s.shutdownAt s.startTakes

def pings (s : Shift) : List Nat :=
  if s.config.healthInterval = 0 then []
  else (List.range ((s.stopBegins - s.startTakes) / s.config.healthInterval)).map fun k =>
    s.startTakes + (k + 1) * s.config.healthInterval

def stopsInTime (s : Shift) : Bool := s.stopTakes ≤ s.config.shutdownTimeout

def stopResult (s : Shift) : StopResult :=
  if s.stopsInTime then
    match s.stopFault with
    | some cause => .failed cause
    | none => .returned
  else .timedOut

def stopEnds (s : Shift) : Nat := s.stopBegins + min s.stopTakes s.config.shutdownTimeout

def actions (s : Shift) : List (Nat × Action) :=
  match s.startFault with
  | some cause => [(s.startTakes, .started (.error cause))]
  | none =>
    [(s.startTakes, .started (.ok ())), (s.startTakes, .published (.ok ()))] ++
      (s.pings.flatMap fun t => [(t, .tick), (t, .pinged (.ok ()))]) ++
      [(s.stopBegins, .request), (s.stopBegins, .hear), (s.stopBegins, .wake),
        (s.stopEnds, .stopEnded s.stopResult), (s.stopEnds, .published (.ok ()))]

def sightOf : Note → Sight
  | .stopCalled => .stop
  | .attempted draft => .sent draft

def ownSights (s : Shift) : Action → List Sight
  | .started _ => [.start]
  | .stopEnded _ => if s.stopsInTime then [.stopped] else []
  | _ => []

def sights (s : Shift) : List (Nat × Sight) :=
  let acts := s.actions
  let (notes, _) := Runner.run s.config .initial (acts.map Prod.snd)
  (acts.zip notes).flatMap fun ((t, a), notes) =>
    (s.ownSights a ++ notes.map sightOf).map (t, ·)

def result (s : Shift) : Except BusFault Unit :=
  match (Runner.run s.config .initial (s.actions.map Prod.snd)).2.main with
  | .finished r => r
  | _ => .ok ()

end Shift
end PhaseKeeper.Rehearsal
