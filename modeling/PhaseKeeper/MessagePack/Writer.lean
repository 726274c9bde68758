import PhaseKeeper.Json.Value
import PhaseKeeper.Text.Utf8
/-! Writing MessagePack: every item takes the shortest form, and floats take all eight bytes. -/
namespace PhaseKeeper.MessagePack

def toBigEndian : (width : Nat) → Nat → Bytes
  | 0, _ => []
  | w + 1, n => toBigEndian w (n / 256) ++ [.ofNat n]

def writeUInt (n : Nat) : Bytes :=
  if n < 0x80 then [.ofNat n]
  else if n < UInt8.size then 0xCC :: toBigEndian 1 n
  else if n < UInt16.size then 0xCD :: toBigEndian 2 n
  else if n < UInt32.size then 0xCE :: toBigEndian 4 n
  else 0xCF :: toBigEndian 8 n

def writeNegative (n : Nat) : Bytes :=
  if n ≤ 0x20 then [.ofNat (UInt8.size - n)]
  else if n ≤ 0x80 then 0xD0 :: toBigEndian 1 (UInt8.size - n)
  else if n ≤ 0x8000 then 0xD1 :: toBigEndian 2 (UInt16.size - n)
  else if n ≤ 0x80000000 then 0xD2 :: toBigEndian 4 (UInt32.size - n)
  else 0xD3 :: toBigEndian 8 (UInt64.size - n)

def writeInt (n : Int) : Bytes :=
  if 0 ≤ n then writeUInt n.toNat else writeNegative n.natAbs

def writeFloat (bits : UInt64) : Bytes := 0xCB :: toBigEndian 8 bits.toNat

def writeText (s : String) : Bytes :=
  let bytes := bytesOf s
  let n := bytes.length
  (if n < 0x20 then [.ofNat (0xA0 + n)]
   else if n < UInt8.size then 0xD9 :: toBigEndian 1 n
   else if n < UInt16.size then 0xDA :: toBigEndian 2 n
   else 0xDB :: toBigEndian 4 n) ++ bytes

def writeBinary (bytes : Bytes) : Bytes :=
  let n := bytes.length
  (if n < UInt8.size then 0xC4 :: toBigEndian 1 n
   else if n < UInt16.size then 0xC5 :: toBigEndian 2 n
   else 0xC6 :: toBigEndian 4 n) ++ bytes

def writeListHead (n : Nat) : Bytes :=
  if n < 0x10 then [.ofNat (0x90 + n)]
  else if n < UInt16.size then 0xDC :: toBigEndian 2 n
  else 0xDD :: toBigEndian 4 n

def writeMapHead (n : Nat) : Bytes :=
  if n < 0x10 then [.ofNat (0x80 + n)]
  else if n < UInt16.size then 0xDE :: toBigEndian 2 n
  else 0xDF :: toBigEndian 4 n

def writeRecord (fields : List (String × Bytes)) : Bytes :=
  writeMapHead fields.length ++ fields.flatMap fun (k, v) => writeText k ++ v

mutual

def write : Json → Bytes
  | .null => [0xC0]
  | .bool b => [if b then 0xC3 else 0xC2]
  | .int n => writeInt n
  | .float bits => writeFloat bits
  | .text s => writeText s
  | .list items => writeListHead items.length ++ writeItems items
  | .object members => writeMapHead members.length ++ writeMembers members

def writeItems : List Json → Bytes
  | [] => []
  | j :: r => write j ++ writeItems r

def writeMembers : List (String × Json) → Bytes
  | [] => []
  | (k, j) :: r => writeText k ++ write j ++ writeMembers r

end

end PhaseKeeper.MessagePack
