import PhaseKeeper.MessagePack.Marker
import PhaseKeeper.Json.Shape
/-!
Reading MessagePack up to the contents of lists and maps. A head is a whole scalar, text or binary,
or the announcement of a list, a map or an extension.
-/
namespace PhaseKeeper.MessagePack

inductive ReadError where
  /-- The bytes end where an item begins. -/
  | noMarker
  /-- They end inside a number or a length. -/
  | shortNumber
  /-- They end inside a text, a binary or an extension. -/
  | shortBody
  | wrongMarker (marker : Marker)
  | wrongCount (expected : Nat)
  | badText (fault : Text.Utf8.Fault)
  | tooDeep
  | shape (cause : ShapeError)
deriving DecidableEq, Repr

def ReadError.message : ReadError → String
  | .noMarker => "IO error while reading marker: failed to fill whole buffer"
  | .shortNumber => "IO error while reading data: failed to fill whole buffer"
  | .shortBody => "IO error while reading data: unexpected end of file"
  | .wrongMarker m => "wrong msgpack marker " ++ m.name
  | .wrongCount n => "array had incorrect length, expected " ++ toString n
  | .badText f => "string found to be invalid utf8: " ++ f.message
  | .tooDeep => "depth limit exceeded"
  | .shape e => e.message .messagePack

abbrev Reader := StateT Bytes (Except ReadError)

def marker : Reader Marker := fun bytes =>
  match bytes with
  | [] => .error .noMarker
  | b :: r => .ok (.ofByte b, r)

def take (n : Nat) (short : ReadError) : Reader Bytes := fun bytes =>
  let taken := bytes.take n
  if taken.length < n then .error short else .ok (taken, bytes.drop n)

def ofBigEndian (bytes : Bytes) : Nat := bytes.foldl (fun n b => n * 256 + b.toNat) 0

def bigEndian (width : Nat) : Reader Nat := ofBigEndian <$> take width .shortNumber

/-- The number between `-half` and `half` that agrees with `n` up to a multiple of `2 * half`. -/
def signed (half n : Nat) : Int := if n < half then n else (n : Int) - 2 * half

inductive Head where
  | nothing
  | bool (b : Bool)
  | uint (n : Nat)
  | int (n : Int)
  | float (bits : UInt64)
  | text (bytes : Bytes)
  | binary (bytes : Bytes)
  | list (count : Nat)
  | map (count : Nat)
  | extension (size : Nat)
deriving DecidableEq, Repr

def headOf : Marker → Reader Head
  | .nil => return .nothing
  | .reserved => throw (.wrongMarker .reserved)
  | .bool b => return .bool b
  | .posFix n => return .uint n
  | .negFix n => return .int (n - 32)
  | .uint w => .uint <$> bigEndian w
  | .int w => (fun n => .int (signed (Nat.pow 2 (8 * w - 1)) n)) <$> bigEndian w
  | .float32 => (fun n => .float (Binary64.ofBinary32 (.ofNat n))) <$> bigEndian 4
  | .float64 => (fun n => .float (.ofNat n)) <$> bigEndian 8
  | .fixText n => .text <$> take n .shortBody
  | .text w => do return .text (← take (← bigEndian w) .shortBody)
  | .binary w => do return .binary (← take (← bigEndian w) .shortBody)
  | .fixList n => return .list n
  | .list w => .list <$> bigEndian w
  | .fixMap n => return .map n
  | .map w => .map <$> bigEndian w
  | .fixExt n => return .extension n
  | .ext w => .extension <$> bigEndian w

def head : Reader Head := do headOf (← marker)

def Head.unexpected (expected : String) : Head → ReadError
  | .text bytes =>
    match textOf bytes with
    | .ok s => .shape (.wrongType (.text s) expected)
    | .error fault => .badText fault
  | .nothing => .shape (.wrongType .nothing expected)
  | .bool b => .shape (.wrongType (.bool b) expected)
  | .uint n => .shape (.wrongType (.int n) expected)
  | .int n => .shape (.wrongType (.int n) expected)
  | .float bits => .shape (.wrongType (.float bits) expected)
  | .binary _ => .shape (.wrongType .bytes expected)
  | .list _ => .shape (.wrongType .list expected)
  | .map _ => .shape (.wrongType .map expected)
  | .extension _ => .shape (.wrongType .extension expected)

def times {α : Type} (read : Reader α) : Nat → Reader (List α)
  | 0 => return []
  | n + 1 => do
    let a ← read
    let r ← times read n
    return a :: r

end PhaseKeeper.MessagePack
