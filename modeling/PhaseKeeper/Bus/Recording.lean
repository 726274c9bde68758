import PhaseKeeper.Message.Envelope
/-!
What can go wrong on the bus and in the workers that hang on it, and a bus that keeps what is sent, except
on topics that it has been told to refuse.
-/
namespace PhaseKeeper

inductive BusFault where
  | transport (reason : String)
  | worker (reason : String)
deriving DecidableEq, Repr

def BusFault.message : BusFault → String
  | .transport reason => "transport error: " ++ reason
  | .worker reason => "worker error: " ++ reason

structure RecordingBus where
  /-- The refused topics, with the reason that is given. -/
  failing : List (String × String)
  published : List Message

namespace RecordingBus

def empty : RecordingBus := ⟨[], []⟩

/-- A message without a correlation of its own is kept under the nil identifier. -/
def send (b : RecordingBus) (d : Draft) (now : Instant) : Except BusFault Unit × RecordingBus :=
  match b.failing.lookup d.topic with
  | some reason => (.error (.transport reason), b)
  | none => (.ok (), { b with published := b.published ++ [d.stamp .nil now] })

def refuse (b : RecordingBus) (topic reason : String) : RecordingBus :=
  { b with failing := (topic, reason) :: b.failing }

def heal (b : RecordingBus) : RecordingBus := { b with failing := [] }

def cleared (b : RecordingBus) : RecordingBus := { b with published := [] }

end RecordingBus

end PhaseKeeper
