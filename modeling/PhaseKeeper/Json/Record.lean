import PhaseKeeper.Json.Shape
/-!
Typed data out of JSON. A record is an object, whose other members do not matter, or the list of its
fields in order. The members of an object are looked at in the order of their keys, so that the first
bad one is reported; only then does a missing field matter.
-/
namespace PhaseKeeper.Json

abbrev Reader (α : Type) := Json → Except ShapeError α

def asText : Reader String
  | .text s => .ok s
  | j => .error (.wrongType j.found "a string")

def asBool : Reader Bool
  | .bool b => .ok b
  | j => .error (.wrongType j.found "a boolean")

def asNat (bound : Nat) (name : String) : Reader Nat
  | .int n => if 0 ≤ n ∧ n < bound then .ok n.toNat else .error (.wrongValue (.int n) name)
  | j => .error (.wrongType j.found name)

def asUInt16 : Reader UInt16 := fun j => UInt16.ofNat <$> asNat UInt16.size "u16" j
def asUInt32 : Reader UInt32 := fun j => UInt32.ofNat <$> asNat UInt32.size "u32" j
def asUInt64 (name : String) : Reader UInt64 := fun j => UInt64.ofNat <$> asNat UInt64.size name j

def asInstant : Reader Instant
  | .text s => (Instant.ofText s).mapError .badInstant
  | j => .error (.wrongType j.found "an RFC 3339 formatted date and time string")

def asOption {α : Type} (read : Reader α) : Reader (Option α)
  | .null => .ok none
  | j => some <$> read j

/-- One of several names, alone or as the key of an object with nothing under it. -/
def asVariant {α : Type} (known : List (String × α)) : Reader α
  | .text s => pick s
  | .object [(s, j)] => do
    let a ← pick s
    match j with
    | .null => return a
    | j => throw (.wrongType j.found "unit")
  | .object _ => .error (.wrongValue .map "map with a single key")
  | j => .error (.wrongType j.found "string or map")
where
  pick (s : String) : Except ShapeError α :=
    match known.lookup s with
    | some a => .ok a
    | none => .error (.unknownVariant s (known.map Prod.fst))

/-- A field of a record, and what a value has to satisfy to stand there. -/
structure Field where
  name : String
  accepts : Reader Unit

def field {α : Type} (name : String) (read : Reader α) : Field :=
  ⟨name, fun j => (fun _ => ()) <$> read j⟩

/-- A record: its name, its fields in order, and how many of them a list must have. -/
structure Record where
  name : String
  fields : List Field
  least : Nat

abbrev Members := String → Option Json

def Record.checkMember (r : Record) (member : String × Json) : Except ShapeError Unit :=
  match r.fields.find? (·.name = member.1) with
  | some f => f.accepts member.2
  | none => .ok ()

def Record.checkItems : List Field → List Json → Except ShapeError Unit
  | f :: fs, j :: js => do f.accepts j; checkItems fs js
  | _, _ => .ok ()

def Record.read {α : Type} (r : Record) (build : Members → Except ShapeError α) : Reader α
  | .object members => do
    members.forM r.checkMember
    build fun name => members.lookup name
  | .list items => do
    checkItems r.fields items
    if items.length < r.least then
      throw (.wrongLength items.length (recordOf r.name r.fields.length))
    let a ← build fun name => ((r.fields.map Field.name).zip items).lookup name
    if r.fields.length < items.length then
      throw (.wrongLength items.length "fewer elements in array")
    return a
  | j => .error (.wrongType j.found ("struct " ++ r.name))

def Members.need {α : Type} (ms : Members) (name : String) (read : Reader α) :
    Except ShapeError α :=
  match ms name with
  | some j => read j
  | none => .error (.missingField name)

def Members.want {α : Type} (ms : Members) (name : String) (read : Reader α) :
    Except ShapeError (Option α) :=
  match ms name with
  | some j => asOption read j
  | none => .ok none

end PhaseKeeper.Json
