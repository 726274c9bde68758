import PhaseKeeper.Json.Shape
import PhaseKeeper.MessagePack.Head
import PhaseKeeper.Text.Character
/-!
What the payload of an event of some type has to look like. A rule speaks about one member of the
object; members without a rule do not matter.
-/
namespace PhaseKeeper

inductive FieldKind where
  | identifier
  | text
  | bool
  | integer
  | number
  | object
  | list
deriving DecidableEq, Repr

namespace FieldKind

def accepts : FieldKind → Json → Bool
  | .identifier, .text s => s.toList.any fun c => !Text.isBlank c
  | .text, .text _ => true
  | .bool, .bool _ => true
  | .integer, .int _ => true
  | .number, .int _ | .number, .float _ => true
  | .object, .object _ => true
  | .list, .list _ => true
  | _, _ => false

def described : FieldKind → String
  | .identifier => "a non-empty string"
  | .text => "a string"
  | .bool => "a boolean"
  | .integer => "an integer"
  | .number => "a number"
  | .object => "an object"
  | .list => "an array"

end FieldKind

inductive Violation where
  | notObject
  | missing
  | wrongKind (kind : FieldKind)
  | undecodable (cause : MessagePack.ReadError)
  | illTyped (cause : ShapeError)
deriving DecidableEq, Repr

def Violation.message : Violation → String
  | .notObject => "payload must be an object"
  | .missing => "is missing"
  | .wrongKind k => "must be " ++ k.described
  | .undecodable e => "undecodable payload: " ++ e.message
  | .illTyped e => e.message .json

inductive SchemaError where
  | unknownType (eventType : String)
  | violation (eventType field : String) (reason : Violation)
deriving DecidableEq, Repr

namespace SchemaError

def message : SchemaError → String
  | .unknownType t => "unknown event type '" ++ t ++ "'"
  | .violation t field reason => t ++ ": field '" ++ field ++ "' " ++ reason.message

def ofPayload (eventType : String) (reason : Violation) : SchemaError :=
  .violation eventType "$" reason

end SchemaError

structure FieldRule where
  name : String
  kind : FieldKind
  required : Bool
deriving DecidableEq, Repr

/-- What is wrong with the member, which counts as absent when it is null. -/
def FieldRule.fault? (f : FieldRule) : Option Json → Option Violation
  | none | some .null => if f.required then some .missing else none
  | some j => if f.kind.accepts j then none else some (.wrongKind f.kind)

structure EventSchema where
  eventType : String
  fields : List FieldRule
deriving DecidableEq, Repr

namespace EventSchema

def base (eventType : String) : EventSchema :=
  ⟨eventType, [⟨"event_id", .identifier, true⟩, ⟨"job_id", .identifier, true⟩]⟩

def addField (s : EventSchema) (f : FieldRule) : EventSchema := { s with fields := s.fields ++ [f] }

def checkFields (eventType : String) (payload : Json) : List FieldRule → Except SchemaError Unit
  | [] => .ok ()
  | f :: fs =>
    match f.fault? (payload.get? f.name) with
    | some reason => .error (.violation eventType f.name reason)
    | none => checkFields eventType payload fs

def check (s : EventSchema) (payload : Json) : Except SchemaError Unit :=
  match payload with
  | .object _ => checkFields s.eventType payload s.fields
  | _ => .error (.ofPayload s.eventType .notObject)

end EventSchema
end PhaseKeeper
