import PhaseKeeper.Identity.Uuid
import PhaseKeeper.MessagePack.Record
import PhaseKeeper.MessagePack.Writer
import PhaseKeeper.Time.Instant
import PhaseKeeper.Time.Reading
/-!
The envelope in which every payload travels. It is written as the list of its five fields; a reader
takes them under their names as well, and the version may be left out.
-/
namespace PhaseKeeper

structure Message where
  topic : String
  payload : Bytes
  timestamp : Instant
  correlationId : Uuid
  version : UInt16
deriving DecidableEq

/-- A message before it is sent. Without a correlation of its own it gets a random one. -/
structure Draft where
  topic : String
  payload : Bytes
  correlation : Option Uuid
deriving DecidableEq

namespace Draft

/-- A message about a job: all of them have the same correlation. -/
def ofJob (topic jobId : String) (payload : Bytes) : Draft := ⟨topic, payload, some (.ofJob jobId)⟩

/-- The message as it is sent at some moment; `random` stands in for a missing correlation. -/
def stamp (d : Draft) (random : Uuid) (now : Instant) : Message :=
  ⟨d.topic, d.payload, now, d.correlation.getD random, 1⟩

end Draft

namespace Message

/-- The payload as a JSON value, which is how a receiver without a type for it sees it. -/
def decodeValue (m : Message) : Except MessagePack.ReadError Json := MessagePack.readValue m.payload

open MessagePack (Reader ReadError writeText writeBinary writeListHead writeUInt)

def toBytes (m : Message) : Bytes :=
  writeListHead 5 ++ writeText m.topic ++ writeBinary m.payload ++ writeText m.timestamp.text ++
    writeBinary m.correlationId.bytes ++ writeUInt m.version.toNat

def binary : Reader Bytes := do
  match ← MessagePack.head with
  | .binary bytes | .text bytes => return bytes
  | h => throw (h.unexpected "a borrowed byte array")

def instant : Reader Instant := do
  match ← MessagePack.head with
  | .text bytes =>
    match textOf bytes with
    | .error fault => throw (.badText fault)
    | .ok s =>
      match Instant.ofText s with
      | .ok t => return t
      | .error e => throw (.shape (.badInstant e))
  | h => throw (h.unexpected "an RFC 3339 formatted date and time string")

/-- Sixteen bytes; a text is taken for bytes only if it is not UTF-8. -/
def identifier : Reader Uuid := do
  match ← MessagePack.head with
  | .binary bytes =>
    match Uuid.ofBytes? bytes with
    | some u => return u
    | none => throw (.shape (.badIdentifier bytes.length))
  | .text bytes =>
    match textOf bytes, Uuid.ofBytes? bytes with
    | .error _, some u => return u
    | _, _ => throw ((MessagePack.Head.text bytes).unexpected "a 16 byte array")
  | h => throw (h.unexpected "a 16 byte array")

inductive Part where
  | topic (s : String)
  | payload (bytes : Bytes)
  | timestamp (t : Instant)
  | correlationId (u : Uuid)
  | version (n : UInt16)

def parts : MessagePack.Record Part where
  name := "Message"
  fields := ["topic", "payload", "timestamp", "correlation_id", "version"]
  least := 4
  part
    | 0 => .topic <$> MessagePack.text
    | 1 => .payload <$> binary
    | 2 => .timestamp <$> instant
    | 3 => .correlationId <$> identifier
    | _ => .version <$> MessagePack.uint16

def ofParts (ps : List Part) : Except ReadError Message := do
  return {
    topic := ← MessagePack.require ps "topic" fun | .topic s => some s | _ => none
    payload := ← MessagePack.require ps "payload" fun | .payload b => some b | _ => none
    timestamp := ← MessagePack.require ps "timestamp" fun | .timestamp t => some t | _ => none
    correlationId :=
      ← MessagePack.require ps "correlation_id" fun | .correlationId u => some u | _ => none
    version := (ps.findSome? fun | .version n => some n | _ => none).getD 1 }

def ofBytes (bytes : Bytes) : Except ReadError Message := do
  ofParts (← MessagePack.readAll parts.read bytes)

end Message
end PhaseKeeper
