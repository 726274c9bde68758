import PhaseKeeper.Identity.Sha1
/-! Identifiers of sixteen bytes. One derived from a name is the same wherever it is derived. -/
namespace PhaseKeeper

structure Uuid where
  bytes : Bytes
  length_bytes : bytes.length = 16
deriving DecidableEq

namespace Uuid

def nil : Uuid := ⟨List.replicate 16 0, rfl⟩

def ofBytes? (bytes : Bytes) : Option Uuid :=
  if h : bytes.length = 16 then some ⟨bytes, h⟩ else none

def ofWords (version : UInt32) (a b c d : UInt32) : Uuid :=
  let b : UInt32 := (b &&& (0xFFFF0FFF : UInt32)) ||| (version <<< 12)
  let c : UInt32 := (c &&& (0x3FFFFFFF : UInt32)) ||| 0x80000000
  ⟨Sha1.wordBytes a ++ Sha1.wordBytes b ++ Sha1.wordBytes c ++ Sha1.wordBytes d, rfl⟩

def ofName (space : Uuid) (name : Bytes) : Uuid :=
  let h := Sha1.digest (space.bytes ++ name)
  ofWords 5 h.a h.b h.c h.d

def hexByte (b : UInt8) : List Char :=
  [Nat.digitChar (b.toNat / 16), Nat.digitChar (b.toNat % 16)]

def text (u : Uuid) : String :=
  let hex := u.bytes.flatMap hexByte
  String.ofList (hex.take 8 ++ '-' :: (hex.drop 8).take 4 ++ '-' :: (hex.drop 12).take 4 ++
    '-' :: (hex.drop 16).take 4 ++ '-' :: hex.drop 20)

/-- The names of jobs form a space of their own: the bytes spell `matchflow-job-id`. -/
def jobSpace : Uuid :=
  ⟨[0x6d, 0x61, 0x74, 0x63, 0x68, 0x66, 0x6c, 0x6f, 0x77, 0x2d, 0x6a, 0x6f, 0x62, 0x2d, 0x69, 0x64],
    rfl⟩

def ofJob (jobId : String) : Uuid := ofName jobSpace (bytesOf jobId)

end Uuid
end PhaseKeeper
