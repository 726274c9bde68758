import PhaseKeeper.Bus.Recording
import PhaseKeeper.Handling.Delivery
import PhaseKeeper.Store.Memory
import PhaseKeeper.Store.Recent
/-!
Several engines over one memory store and one bus. Each engine remembers by itself which events it has
seen lately; everything else they share. Every request is answered at one moment.
-/
namespace PhaseKeeper

structure Deployment where
  store : MemoryStore
  /-- What each engine has seen lately. -/
  recent : List RecentIds
  bus : RecordingBus
  /-- Moves on whenever it is read. -/
  clock : Instant
  incidents : List Incident

namespace Deployment

def ofCapacities (capacities : List Nat) (clock : Instant) : Deployment :=
  ⟨.empty, capacities.map .ofCapacity, .empty, clock, []⟩

def tick (d : Deployment) : Deployment := { d with clock := d.clock.addSeconds 1 }

def callStore (c : StoreCall) (d : Deployment) : c.Reply × Deployment :=
  let (r, store) := d.store.answer d.clock c
  (r, { d with store })

def lookUp (member : Nat) (id : String) (d : Deployment) : Bool × Deployment :=
  match d.recent[member]? with
  | some ids =>
    let (hit, ids) := ids.lookUp id
    (hit, { d with recent := d.recent.set member ids })
  | none => (false, d)

def remember (member : Nat) (id : String) (d : Deployment) : Deployment :=
  { d with recent := d.recent.modify member (·.use id) }

def send (draft : Draft) (d : Deployment) : Except BusFault Unit × Deployment :=
  let (r, bus) := d.bus.send draft d.clock
  (r, { d with bus })

def report (i : Incident) (d : Deployment) : Deployment :=
  { d with incidents := d.incidents ++ [i] }

def answer (member : Nat) : (r : Request) → Deployment → r.Reply × Deployment
  | .store c, d => d.callStore c
  | .lookUp id, d => d.lookUp member id
  | .remember id, d => ((), d.remember member id)
  | .now, d => (d.clock, d.tick)
  | .publish draft, d => d.send draft
  | .report i, d => ((), d.report i)

def perform {α : Type} (member : Nat) (p : Handling α) (d : Deployment) : α × Deployment :=
  p.run (answer member) d

end Deployment
end PhaseKeeper
