import PhaseKeeper.Rehearsal.Rig
/-!
How a rehearsed consumer spends its time. Whatever can happen happens at once, in a fixed order: loops
leave if they were told to, take permits and messages, then calls go on, and then the messages are
handled one after the other. Only the rest after a failed receive takes time: one beat, of which there
are five to a second.
-/
namespace PhaseKeeper.Rehearsal

namespace Consumer

def anyLoop? (c : Consumer) (a : LoopAction Message) : Option Consumer :=
  (List.range c.intake.loops.length).findSome? fun i =>
    (c.intake.step? (.loop i a)).map fun (_, intake) => { c with intake }

def receive? (c : Consumer) : Option Consumer :=
  match c.queue with
  | [] => none
  | .ok m :: queue => (c.anyLoop? (.receive m)).map ({ · with queue })
  | .error _ :: queue => (c.anyLoop? .failReceive).map ({ · with queue })

def loopStep? (c : Consumer) : Option Consumer :=
  c.anyLoop? .leave <|> c.anyLoop? .seek <|> c.anyLoop? .takePermit <|> c.receive?

def callStep? (c : Consumer) : Option Consumer :=
  (List.range c.intake.calls.length).findSome? fun call =>
    (c.intake.step? (.proceed call)).map fun (_, intake) => { c with intake }

/-- Wakes the loops that have rested, and counts down how long handlers wait for a stop. -/
def rested (c : Consumer) : Consumer :=
  let c := (List.range c.intake.loops.length).foldl (fun c i => c.apply (.loop i .wake)) c
  let handlers := c.intake.handlers.map fun
    | .running (.stopping call beats cues r canned next) =>
      .running (.stopping call (beats - 1) cues r canned next)
    | h => h
  { c with intake := { c.intake with handlers } }

/-- Bounds the number of steps in a beat. What an intervention adds may have to wait for the next. -/
def pace (c : Consumer) : Nat :=
  8 * (c.intake.loops.length + c.intake.calls.length + c.queue.length +
    c.intake.handlers.length) + 8

end Consumer

namespace Rig

def canRun (g : Rig) : Intake.Handler Message Task → Bool
  | .spawned _ | .running (.ready _) => true
  | .running (.asking r _ _) => !g.delays r
  | .running (.stopping call beats _ _ _ _) => beats = 0 || g.stopped call

def work (nested : List Cue → Rig → Rig) (k : Nat) (task : Task) (g : Rig) : Rig :=
  match g.runTask nested task with
  | (none, g) => g.onConsumer (·.apply (.handler k .finish))
  | (some task, g) => g.onConsumer (·.apply (.handler k (.resume task)))

def handlerStep? (nested : List Cue → Rig → Rig) (g : Rig) (intake : Intake Message Task) :
    Option Rig := do
  let k ← intake.handlers.findIdx? g.canRun
  match ← intake.handlers[k]? with
  | .spawned m =>
    let g := g.onConsumer (·.apply (.handler k .begin))
    return g.work nested (intake.handlers.length - 1) (intake.engine m)
  | .running task => return g.work nested k task

def step? (nested : List Cue → Rig → Rig) (g : Rig) : Option Rig :=
  match g.consumer with
  | none => none
  | some c =>
    match c.loopStep? <|> c.callStep? with
    | some c => some { g with consumer := some c }
    | none => g.handlerStep? nested c.intake

def settle (nested : List Cue → Rig → Rig) : Nat → Rig → Rig
  | 0, g => g
  | n + 1, g =>
    match g.step? nested with
    | some g => g.settle nested n
    | none => g

/-- Lets time pass, and then all that can happen. -/
def beat (nested : List Cue → Rig → Rig) (g : Rig) : Rig :=
  match g.consumer with
  | none => g
  | some c =>
    let c := c.rested
    { g with consumer := some c }.settle nested c.pace

def beats (nested : List Cue → Rig → Rig) : Nat → Rig → Rig
  | 0, g => g
  | n + 1, g => (g.beat nested).beats nested n

def await (nested : List Cue → Rig → Rig) (call : Nat) : Nat → Rig → Bool × Rig
  | 0, g => g.endCall call
  | n + 1, g =>
    let g := g.beat nested
    if g.stopped call then (true, g) else g.await nested call n

end Rig
end PhaseKeeper.Rehearsal
