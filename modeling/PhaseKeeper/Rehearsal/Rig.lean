import PhaseKeeper.Deployment
import PhaseKeeper.Rehearsal.Cue
import PhaseKeeper.Worker.Intake
/-!
A deployment in rehearsal. Interventions that were set up come between the engines and what they ask
for, and the first engine may have a consumer.
-/
namespace PhaseKeeper.Rehearsal

structure Stub where
  place : Place
  key : Option String
  skip : Nat
  reply : Option Canned
  cues : List Cue

/-- A message being handled: on its way; with a request that is open, since the bus makes it wait; or
with a stop that an intervention has called, which is given up after a number of beats, and with the
cues that are to follow it before the request. -/
inductive Task where
  | ready (p : Handling Outcome)
  | asking (r : Request) (canned : Option Canned) (next : r.Reply → Handling Outcome)
  | stopping (call beats : Nat) (cues : List Cue) (r : Request) (canned : Option Canned)
    (next : r.Reply → Handling Outcome)

structure Consumer where
  name : String
  intake : Intake Message Task
  queue : List Incoming
  subscribed : List String
  refused : Option String

def Consumer.apply (c : Consumer) (a : Intake.Action Message Task) : Consumer :=
  match c.intake.step? a with
  | some (_, intake) => { c with intake }
  | none => c

structure Rig where
  registry : EventRegistry
  deployment : Deployment
  /-- When each job was created. -/
  created : List (String × Instant)
  stubs : List Stub
  /-- Whether the bus makes the consumer's handlers wait. -/
  held : Bool
  consumer : Option Consumer
  nested : List Result

namespace Rig

def onDeployment {α : Type} (g : Rig) (f : Deployment → α × Deployment) : α × Rig :=
  let (a, deployment) := f g.deployment
  (a, { g with deployment })

def tick (g : Rig) : Rig := { g with deployment := g.deployment.tick }

def onConsumer (g : Rig) (f : Consumer → Consumer) : Rig :=
  { g with consumer := g.consumer.map f }

/-- The first stub for a call. If its turn has come it is taken out of the list. -/
def takeStub (place : Place) (key : String) : List Stub → Option Stub × List Stub
  | [] => (none, [])
  | s :: r =>
    if s.place = place ∧ (s.key = none ∨ s.key = some key) then
      if 0 < s.skip then (none, { s with skip := s.skip - 1 } :: r) else (some s, r)
    else
      let (found, r) := takeStub place key r
      (found, s :: r)

def intervention (r : Request) (g : Rig) : List Cue × Option Canned × Rig :=
  let (found, stubs) := match r with
    | .store c => takeStub (.store c.op) c.jobId g.stubs
    | .publish d => takeStub .publish d.topic g.stubs
    | _ => (none, g.stubs)
  ((found.map (·.cues)).getD [], found.bind (·.reply), { g with stubs })

def reply (member : Nat) (canned : Option Canned) : (r : Request) → Rig → r.Reply × Rig
  | .store c, g =>
    match canned.bind (·.reply? c) with
    | some r => (r, g)
    | none => g.onDeployment (·.callStore c)
  | .publish d, g => g.onDeployment (·.send d)
  | r, g => g.onDeployment (·.answer member r)

def answer (nested : List Cue → Rig → Rig) (member : Nat) (r : Request) (g : Rig) : r.Reply × Rig :=
  let (cues, canned, g) := g.intervention r
  (nested cues g).reply member canned r

def patience : Nat := 25

def callStop (g : Rig) : Nat × Rig :=
  ((g.consumer.map (·.intake.calls.length)).getD 0, g.onConsumer (·.apply .stop))

def stopped (g : Rig) (call : Nat) : Bool :=
  g.consumer.all (·.intake.calls[call]? = some .stopped)

def endCall (g : Rig) (call : Nat) : Bool × Rig :=
  (g.stopped call, g.onConsumer (·.apply (.abandon call)))

def carryOut (nested : List Cue → Rig → Rig) : List Cue → Rig → Option (Nat × List Cue) × Rig
  | [], g => (none, g)
  | .stop :: cues, g =>
    let (call, g) := g.tick.callStop
    (some (call, cues), g)
  | cue :: cues, g => (nested [cue] g).carryOut nested cues

def delays (g : Rig) : Request → Bool
  | .publish _ => g.held
  | _ => false

def request (nested : List Cue → Rig → Rig) (cues : List Cue) (r : Request) (canned : Option Canned)
    (next : r.Reply → Handling Outcome) (go : r.Reply → Rig → Option Task × Rig) (g : Rig) :
    Option Task × Rig :=
  match g.carryOut nested cues with
  | (some (call, cues), g) => (some (.stopping call patience cues r canned next), g)
  | (none, g) =>
    if g.delays r then (some (.asking r canned next), g)
    else
      let (x, g) := g.reply 0 canned r
      go x g

def advance (nested : List Cue → Rig → Rig) : Handling Outcome → Rig → Option Task × Rig
  | .done _, g => (none, g)
  | .ask r next, g =>
    let (cues, canned, g) := g.intervention r
    g.request nested cues r canned next fun x g => advance nested (next x) g

def runTask (nested : List Cue → Rig → Rig) : Task → Rig → Option Task × Rig
  | .ready p, g => g.advance nested p
  | .asking r canned next, g =>
    g.request nested [] r canned next fun x g => g.advance nested (next x)
  | .stopping call _ cues r canned next, g =>
    let (returned, g) := g.endCall call
    let g := { g with nested := g.nested ++ [Result.stopped returned] }
    g.request nested cues r canned next fun x g => g.advance nested (next x)

end Rig
end PhaseKeeper.Rehearsal
