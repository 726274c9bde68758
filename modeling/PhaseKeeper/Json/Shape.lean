import PhaseKeeper.Json.Value
import PhaseKeeper.Number.Binary64
import PhaseKeeper.Text.Character
import PhaseKeeper.Time.Reading
/-!
Why data does not have the expected shape. The causes are the same for JSON and for MessagePack; the
two formats differ in a few words of the message.
-/
namespace PhaseKeeper

inductive Found where
  | nothing
  | bool (b : Bool)
  | int (n : Int)
  | float (bits : UInt64)
  | text (s : String)
  | bytes
  | list
  | map
  | extension
deriving DecidableEq, Repr

inductive ShapeError where
  | wrongType (found : Found) (expected : String)
  | wrongValue (found : Found) (expected : String)
  | wrongLength (length : Nat) (expected : String)
  | unknownVariant (name : String) (known : List String)
  | missingField (name : String)
  | duplicateField (name : String)
  | badInstant (cause : Instant.ReadError)
  | badIdentifier (length : Nat)
deriving DecidableEq, Repr

structure Wording where
  nothing : String
  floats : Binary64.Style

def Wording.json : Wording := ⟨"null", .compact⟩
def Wording.messagePack : Wording := ⟨"unit value", .expanded⟩

def ticked (s : String) : String := "`" ++ s ++ "`"

def Found.describe (w : Wording) : Found → String
  | .nothing => w.nothing
  | .bool b => "boolean " ++ ticked (if b then "true" else "false")
  | .int n => "integer " ++ ticked (toString n)
  | .float bits => "floating point " ++ ticked (w.floats.text bits)
  | .text s => "string " ++ Text.quoted s
  | .bytes => "byte array"
  | .list => "sequence"
  | .map => "map"
  | .extension => "newtype struct"

def choices : List String → String
  | [] => "there are no variants"
  | [a] => "expected " ++ ticked a
  | [a, b] => "expected " ++ ticked a ++ " or " ++ ticked b
  | names => "expected one of " ++ ", ".intercalate (names.map ticked)

def ShapeError.message (w : Wording) : ShapeError → String
  | .wrongType found expected => "invalid type: " ++ found.describe w ++ ", expected " ++ expected
  | .wrongValue found expected => "invalid value: " ++ found.describe w ++ ", expected " ++ expected
  | .wrongLength n expected => "invalid length " ++ toString n ++ ", expected " ++ expected
  | .unknownVariant name known => "unknown variant " ++ ticked name ++ ", " ++ choices known
  | .missingField name => "missing field " ++ ticked name
  | .duplicateField name => "duplicate field " ++ ticked name
  | .badInstant cause => cause.message
  | .badIdentifier n =>
    "UUID parsing failed: invalid length: expected 16 bytes, found " ++ toString n

def recordOf (name : String) (n : Nat) : String :=
  "struct " ++ name ++ " with " ++ toString n ++ if n = 1 then " element" else " elements"

def Json.found : Json → Found
  | .null => .nothing
  | .bool b => .bool b
  | .int n => .int n
  | .float bits => .float bits
  | .text s => .text s
  | .list _ => .list
  | .object _ => .map

end PhaseKeeper
