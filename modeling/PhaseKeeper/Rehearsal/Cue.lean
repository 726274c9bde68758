import PhaseKeeper.Handling.Delivery
/-!
The script of a rehearsal. A cue is carried out, or it sets something up that intervenes in a later
call; what then happens is again a list of cues.
-/
namespace PhaseKeeper.Rehearsal

inductive Place where
  | store (op : StoreOp)
  | publish
deriving DecidableEq, Repr

inductive Canned where
  | phase (p : Option Phase)
  | swapped (b : Bool)
  | assets (a : Assets)
  | seen (b : Bool)
  | industry (s : String)
  | inserted
  | fault (cause : StoreFault)
deriving DecidableEq, Repr

def Canned.reply? : Canned → (c : StoreCall) → Option c.Reply
  | .fault cause, _ => some (.error cause)
  | .phase p, .phaseOf _ => some (.ok p)
  | .swapped b, .swapPhase .. => some (.ok b)
  | .assets a, .assetsOf _ => some (.ok a)
  | .seen b, .hasEvent .. => some (.ok b)
  | .industry s, .industryOf _ => some (.ok s)
  | .inserted, .insertEvent _ => some (.ok ())
  | _, _ => none

abbrev Incoming := Except String Message

/-- `member` counts the engines; the number behind the last engine stands for a ledger of its own. -/
inductive Cue where
  | job (jobId industry : String) (phase : Phase) (assets : Assets)
  | event (member : Nat) (eventType : String) (payload : Json)
  | message (member : Nat) (m : Message)
  | envelope (member : Nat) (bytes : Bytes)
  | apply (jobId eventType : String) (start : Phase)
  | sendRequest (jobId : String)
  | announce (jobId : String)
  | record (member : Option Nat) (eventId jobId eventType : String)
  | call (c : StoreCall)
  | insertNow (eventId jobId eventType : String)
  | showJob (jobId : String)
  | history (jobId : String)
  | entries (jobId : String)
  | fail (op : StoreOp) (jobId : Option String)
  | recover
  | interleave (jobId : String) (phase : Phase)
  | failTopic (topic reason : String)
  | healTopics
  | hold
  | release
  | stub (place : Place) (key : Option String) (skip : Nat) (reply : Option Canned) (cues : List Cue)
  | types
  | look
  | start
  | stop
  | deliver (incoming : List Incoming)
  | refuse (topic : Option String)
  | subscriptions
  | consumerName

mutual

def Cue.stubs : Cue → Nat
  | .stub _ _ _ _ cues => stubsOf cues + 1
  | _ => 0

def stubsOf : List Cue → Nat
  | [] => 0
  | c :: cs => c.stubs + stubsOf cs

end

inductive Result where
  | nothing
  | outcome (o : Outcome)
  | undecodable (cause : MessagePack.ReadError)
  | report (r : Except HandlingFault Report)
  | announced (r : Except HandlingFault Unit)
  | recording (r : Recording)
  | reply (c : StoreCall) (r : c.Reply)
  /-- A job, and whether it has been updated since it was created. -/
  | job (j : Option (Job × Bool))
  | phases (ps : List Phase)
  | entries (es : List LedgerEntry)
  | names (ns : List String)
  | name (n : String)
  | started (r : Except BusFault Unit)
  /-- Whether the stop has returned in time. -/
  | stopped (returned : Bool)

end PhaseKeeper.Rehearsal
