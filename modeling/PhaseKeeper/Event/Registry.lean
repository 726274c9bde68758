import PhaseKeeper.Event.Schema
import PhaseKeeper.Message.Payload
/-! The schemas of the events that are accepted, in the order of their event types. -/
namespace PhaseKeeper

structure EventRegistry where
  schemas : List EventSchema
deriving DecidableEq, Repr

namespace EventRegistry

def empty : EventRegistry := ⟨[]⟩

/-- Puts a schema in its place, instead of an earlier one for the same type. -/
def place (s : EventSchema) : List EventSchema → List EventSchema
  | [] => [s]
  | t :: r =>
    if s.eventType < t.eventType then s :: t :: r
    else if s.eventType = t.eventType then s :: r
    else t :: place s r

def register (r : EventRegistry) (s : EventSchema) : EventRegistry := ⟨place s r.schemas⟩

def types (r : EventRegistry) : List String := r.schemas.map EventSchema.eventType

def find? (r : EventRegistry) (eventType : String) : Option EventSchema :=
  r.schemas.find? (·.eventType = eventType)

/-- Only the keypoints of videos can be complete in part. -/
def standardSchema (eventType : String) : EventSchema :=
  let s := EventSchema.base eventType
  if eventType = Topic.videoKeypoints then s.addField ⟨"has_partial_completion", .bool, false⟩ else s

def standard : EventRegistry :=
  (Topic.completions.map standardSchema).foldl register empty

def validate (r : EventRegistry) (eventType : String) (payload : Json) : Except SchemaError Unit :=
  match r.find? eventType with
  | some s => s.check payload
  | none => .error (.unknownType eventType)

end EventRegistry
end PhaseKeeper
