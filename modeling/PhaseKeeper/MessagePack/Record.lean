import PhaseKeeper.MessagePack.Value
/-!
Reading records. A record is a list of its fields in order or a map from their names, in any order and
with other keys among them. Its parts are returned as they come; no field comes twice.
-/
namespace PhaseKeeper.MessagePack

/-- A record whose fields are read into parts of type `P`. `least` counts the fields that a list must
have. The first field of every record is a text. -/
structure Record (P : Type) where
  name : String
  fields : List String
  least : Nat
  part : Nat → Reader P

def Record.fieldOf {P : Type} (r : Record P) : Head → Except ReadError (Option Nat)
  | .text bytes | .binary bytes => .ok (r.fields.findIdx? (bytesOf · = bytes))
  | .uint n => .ok (if n < r.fields.length then some n else none)
  | h => .error (h.unexpected "field identifier")

def Record.items {P : Type} (r : Record P) (i : Nat) : Nat → Reader (List P)
  | 0 => return []
  | n + 1 => do
    let p ← r.part i
    let ps ← r.items (i + 1) n
    return p :: ps

/-- `n` entries of a map, given the fields seen before. -/
def Record.entries {P : Type} (r : Record P) (seen : List Nat) : Nat → Reader (List P)
  | 0 => return []
  | n + 1 => do
    match ← liftM (r.fieldOf (← head)) with
    | none => do
      skip (maxDepth - 1)
      r.entries seen n
    | some i => do
      if seen.contains i then
        throw (.shape (.duplicateField ((r.fields[i]?).getD "")))
      let p ← r.part i
      let ps ← r.entries (i :: seen) n
      return p :: ps

def Record.wrongLength {P : Type} (r : Record P) (n : Nat) : ReadError :=
  .shape (.wrongLength n (recordOf r.name r.fields.length))

/-- The parts of a record. A binary counts as a list of numbers, and a number is no text. -/
def Record.read {P : Type} (r : Record P) : Reader (List P) := do
  match ← head with
  | .list n => do
    let ps ← r.items 0 (min n r.fields.length)
    if n < r.least then throw (r.wrongLength n)
    if r.fields.length < n then throw (.wrongCount r.fields.length)
    return ps
  | .map n => r.entries [] n
  | .binary [] => throw (r.wrongLength 0)
  | .binary (b :: _) => throw (.shape (.wrongType (.int b.toNat) "a string"))
  | h => throw (h.unexpected ("struct " ++ r.name))

/-- The part that `pick` accepts; it is missing if there is none. -/
def require {P α : Type} (ps : List P) (name : String) (pick : P → Option α) :
    Except ReadError α :=
  match ps.findSome? pick with
  | some a => .ok a
  | none => .error (.shape (.missingField name))

/-- Only a marker of a number, a truth value or nil is looked at further. -/
def scalarHead : Reader Head := do
  let m ← marker
  if m.isScalar then headOf m else throw (.wrongMarker m)

def uint16 : Reader UInt16 := do
  match ← scalarHead with
  | .uint n => small n
  | .int n => small n
  | h => throw (h.unexpected "u16")
where
  small (n : Int) : Reader UInt16 :=
    if 0 ≤ n ∧ n < UInt16.size then return .ofNat n.toNat
    else throw (.shape (.wrongValue (.int n) "u16"))

def optionalBool : Reader (Option Bool) := do
  match ← scalarHead with
  | .nothing => return none
  | .bool b => return some b
  | h => throw (h.unexpected "a boolean")

/-- One of several names, as a text, by its place, or as the only key of a map, above nil. -/
def variant {α : Type} (known : List (String × α)) : Reader α := do
  match ← head with
  | .map 1 => do
    let a ← liftM (pick (← head))
    match ← marker with
    | .nil => return a
    | m => throw (.wrongMarker m)
  | .map n => throw (.wrongCount n)
  | h => liftM (pick h)
where
  pick : Head → Except ReadError α
    | .text bytes =>
      match textOf bytes with
      | .ok s => named s
      | .error fault => .error (.badText fault)
    | .binary bytes => named (lossyTextOf bytes)
    | .uint n =>
      match known[n]? with
      | some (_, a) => .ok a
      | none => .error (.shape (.wrongValue (.int n)
          ("variant index 0 <= i < " ++ toString known.length)))
    | h => .error (h.unexpected "variant identifier")
  named (s : String) : Except ReadError α :=
    match known.lookup s with
    | some a => .ok a
    | none => .error (.shape (.unknownVariant s (known.map Prod.fst)))

end PhaseKeeper.MessagePack
