import PhaseKeeper.MessagePack.Head
/-!
Reading any MessagePack item as a JSON value. Lists and maps may nest as deep as `maxDepth`; the
number that a reader takes is how many of them it may still enter.
-/
namespace PhaseKeeper.MessagePack

def maxDepth : Nat := 1023

/-- A text; a binary that is UTF-8 does as well. -/
def text : Reader String := do
  match ← head with
  | .text bytes => ofUtf8 .badText bytes
  | .binary bytes => ofUtf8 (fun _ => .shape (.wrongValue .bytes "a string")) bytes
  | h => throw (h.unexpected "a string")
where
  ofUtf8 (bad : Text.Utf8.Fault → ReadError) (bytes : Bytes) : Reader String :=
    match textOf bytes with
    | .ok s => return s
    | .error fault => throw (bad fault)

/-- The first key of a map has to be a text in the strict sense. -/
def firstKey : Reader String := do
  match ← head with
  | .text bytes =>
    match textOf bytes with
    | .ok s => return s
    | .error fault => throw (.badText fault)
  | h => throw (h.unexpected "a string key")

def finite (bits : UInt64) : Json := if Binary64.isFinite bits then .float bits else .null

def members (value : Reader Json) (n : Nat) : Reader (List (String × Json)) :=
  match n with
  | 0 => return []
  | n + 1 => do
    let k ← firstKey
    let j ← value
    let r ← times (do let k ← text; let j ← value; return (k, j)) n
    return (k, j) :: r

/-- Any item; of two members under one key the later one counts. -/
def value : (budget : Nat) → Reader Json
  | 0 => do
    match ← head with
    | .list _ | .map _ | .extension _ => throw .tooDeep
    | h => scalar h
  | d + 1 => do
    match ← head with
    | .list n => .list <$> times (value d) n
    | .map n => .ofMembers <$> members (value d) n
    | h => scalar h
where
  scalar : Head → Reader Json
    | .nothing => return .null
    | .bool b => return .bool b
    | .uint n => return .int n
    | .int n => return .int n
    | .float bits => return finite bits
    | .text bytes =>
      match textOf bytes with
      | .ok s => return .text s
      | .error fault => throw (.badText fault)
    | h => throw (h.unexpected "any valid JSON value")

def skip : (budget : Nat) → Reader Unit
  | 0 => do
    match ← head with
    | .list _ | .map _ | .extension _ => throw .tooDeep
    | _ => return ()
  | d + 1 => do
    match ← head with
    | .list n => discard (times (skip d) n)
    | .map n => discard (times (do skip d; skip d) n)
    | .extension n => do
      discard (take 1 .shortNumber)
      discard (take n .shortBody)
    | _ => return ()

/-- Reads the first item; what follows it does not matter. -/
def readAll {α : Type} (read : Reader α) (bytes : Bytes) : Except ReadError α :=
  Prod.fst <$> read bytes

def readValue (bytes : Bytes) : Except ReadError Json := readAll (value maxDepth) bytes

end PhaseKeeper.MessagePack
