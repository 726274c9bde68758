import PhaseKeeper.Rehearsal.Schedule
/-!
A rehearsal of a whole deployment: the cues of a script are carried out one after the other, and after
each of them one looks at the jobs, the ledgers and what was sent.
-/
namespace PhaseKeeper.Rehearsal

namespace Rig

def perform {α : Type} (nested : List Cue → Rig → Rig) (member : Nat) (p : Handling α) (g : Rig) :
    α × Rig :=
  p.run (Rig.answer nested member) g

def subscribe (refused : Option String) : List String → List String × Except BusFault Unit
  | [] => ([], .ok ())
  | t :: ts =>
    if refused = some t then ([], .error (.transport "subscribe refused"))
    else
      let (done, r) := subscribe refused ts
      (t :: done, r)

def startConsumer (g : Rig) : Except BusFault Unit × Rig :=
  match g.consumer with
  | none => (.ok (), g)
  | some c =>
    let (topics, r) := subscribe c.refused g.registry.types
    let c := { c with subscribed := c.subscribed ++ topics }
    match r with
    | .ok () =>
      let call := c.intake.calls.length
      (.ok (), { g with consumer := some ((c.apply .start).apply (.proceed call)) })
    | .error cause => (.error cause, { g with consumer := some c })

def onStore (g : Rig) (f : MemoryStore → MemoryStore) : Rig :=
  { g with deployment := { g.deployment with store := f g.deployment.store } }

def onBus (g : Rig) (f : RecordingBus → RecordingBus) : Rig :=
  { g with deployment := { g.deployment with bus := f g.deployment.bus } }

def store (g : Rig) : MemoryStore := g.deployment.store

def createJob (g : Rig) (jobId industry : String) (phase : Phase) (assets : Assets) : Rig :=
  let now := g.deployment.clock
  { g.onStore (·.insertJob ⟨jobId, industry, phase, assets, now⟩) with
    created := (jobId, now) :: g.created }

def shownJob (g : Rig) (jobId : String) : Option (Job × Bool) :=
  (g.store.job? jobId).map fun j => (j, g.created.lookup jobId ≠ some j.updatedAt)

def ownLedger (g : Rig) : Nat := g.deployment.recent.length - 1

def enact (nested : List Cue → Rig → Rig) (cue : Cue) (g : Rig) : Result × Rig :=
  match cue with
  | .job jobId industry phase assets => (.nothing, g.createJob jobId industry phase assets)
  | .event member eventType payload =>
    g.perform nested member (.outcome <$> handleEvent g.registry eventType payload)
  | .message member m => g.perform nested member (.outcome <$> handleMessage g.registry m)
  | .envelope member bytes =>
    match Message.ofBytes bytes with
    | .ok m => g.perform nested member (.outcome <$> handleMessage g.registry m)
    | .error cause => (.undecodable cause, g)
  | .apply jobId eventType start =>
    g.perform nested g.ownLedger (.report <$> applyEvent jobId eventType start)
  | .sendRequest jobId =>
    g.perform nested g.ownLedger ((fun () => .nothing) <$> sendRequest jobId)
  | .announce jobId => g.perform nested g.ownLedger (.announced <$> announce jobId)
  | .record member eventId jobId eventType =>
    g.perform nested (member.getD g.ownLedger)
      (.recording <$> recordEvent eventId jobId eventType)
  | .call c => g.perform nested g.ownLedger (.reply c <$> askStore c)
  | .insertNow eventId jobId eventType =>
    let c := .insertEvent ⟨eventId, jobId, eventType, g.deployment.clock⟩
    g.tick.perform nested g.ownLedger (.reply c <$> askStore c)
  | .showJob jobId => (.job (g.shownJob jobId), g)
  | .history jobId => (.phases (g.store.history jobId), g)
  | .entries jobId => (.entries (g.store.entriesOf jobId), g)
  | .fail op jobId => (.nothing, g.onStore (·.fail op jobId))
  | .recover => (.nothing, g.onStore .recover)
  | .interleave jobId phase => (.nothing, g.onStore (·.interleave jobId phase))
  | .failTopic topic reason => (.nothing, g.onBus (·.refuse topic reason))
  | .healTopics => (.nothing, g.onBus .heal)
  | .hold => (.nothing, { g with held := true })
  | .release => (.nothing, { g with held := false })
  | .stub place key skip reply cues =>
    (.nothing, { g with stubs := g.stubs ++ [⟨place, key, skip, reply, cues⟩] })
  | .types => (.names g.registry.types, g)
  | .look => (.nothing, g)
  | .start =>
    let (r, g) := g.startConsumer
    (.started r, g)
  | .stop =>
    let (call, g) := g.callStop
    let (returned, g) := g.await nested call patience
    (.stopped returned, g)
  | .deliver incoming =>
    (.nothing, g.onConsumer fun c => { c with queue := c.queue ++ incoming })
  | .refuse topic => (.nothing, g.onConsumer fun c => { c with refused := topic })
  | .subscriptions => (.names ((g.consumer.map (·.subscribed)).getD []), g)
  | .consumerName => (.name ((g.consumer.map (·.name)).getD ""), g)

/-- Carries out the cues of an intervention; at most `n` interventions lie within one another. -/
def nest : (n : Nat) → List Cue → Rig → Rig
  | 0, _, g => g
  | n + 1, cues, g =>
    cues.foldl (fun g cue =>
      let (r, g) := enact (nest n) cue g.tick
      { g with nested := g.nested ++ [r] }) g

end Rig

def Rig.cleared (g : Rig) : Rig :=
  { g with deployment := { g.deployment with bus := g.deployment.bus.cleared, incidents := [] } }

structure Scene where
  result : Result
  phases : List (String × Phase)
  cached : List Nat
  inFlight : Option Nat
  published : List Message
  nested : List Result
  incidents : List Incident

def Rig.scene (result : Result) (g : Rig) : Scene where
  result := result
  phases := g.store.rows.map fun r => (r.job.id, r.job.phase)
  cached := g.deployment.recent.map RecentIds.size
  inFlight := g.consumer.map (·.intake.inFlight)
  published := g.deployment.bus.published
  nested := g.nested
  incidents := g.deployment.incidents

structure Session where
  registry : EventRegistry
  /-- The cache capacity of each engine. -/
  capacities : List Nat
  ledgerCapacity : Nat
  /-- A consumer's name and how many messages it handles at a time. -/
  consumer : Option (String × Nat)
  cues : List Cue

namespace Session

def begin : Instant := ⟨4102444800, 0⟩

def rig (s : Session) : Rig where
  registry := s.registry
  deployment := .ofCapacities (s.capacities ++ [s.ledgerCapacity]) begin
  created := []
  stubs := []
  held := false
  consumer := s.consumer.map fun (name, limit) =>
    ⟨name, .ofLimit (fun m => .ready (handleMessage s.registry m)) limit, [], [], none⟩
  nested := []

def play (nested : List Cue → Rig → Rig) (g : Rig) (cue : Cue) : Scene × Rig :=
  let g := { g.tick.cleared with nested := [] }
  let (r, g) := g.enact nested cue
  let g := match cue with
    | .stop => g.beats nested 4
    | _ => g.beats nested 5
  (g.scene r, g)

def playAll (nested : List Cue → Rig → Rig) : List Cue → Rig → List Scene
  | [], _ => []
  | cue :: cues, g =>
    let (scene, g) := play nested g cue
    scene :: playAll nested cues g

def scenes (s : Session) : List Scene := playAll (Rig.nest (stubsOf s.cues)) s.cues s.rig

end Session
end PhaseKeeper.Rehearsal
