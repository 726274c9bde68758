import PhaseKeeper.Text.Utf8
/-! The SHA-1 digest: blocks of sixteen 32-bit words are folded into a state of five. -/
namespace PhaseKeeper.Sha1

structure Digest where
  a : UInt32
  b : UInt32
  c : UInt32
  d : UInt32
  e : UInt32
deriving DecidableEq, Repr

def start : Digest := ⟨0x67452301, 0xEFCDAB89, 0x98BADCFE, 0x10325476, 0xC3D2E1F0⟩

def rotate (n : UInt32) (w : UInt32) : UInt32 := (w <<< n) ||| (w >>> (32 - n))

def wordBytes (w : UInt32) : Bytes :=
  [(w >>> 24).toUInt8, (w >>> 16).toUInt8, (w >>> 8).toUInt8, w.toUInt8]

def word (a b c d : UInt8) : UInt32 :=
  (a.toUInt32 <<< 24) ||| (b.toUInt32 <<< 16) ||| (c.toUInt32 <<< 8) ||| d.toUInt32

def words : Bytes → List UInt32
  | a :: b :: c :: d :: r => word a b c d :: words r
  | _ => []

def pad (message : Bytes) : Bytes :=
  let n := message.length
  let bits := 8 * n
  message ++ 0x80 :: List.replicate ((119 - n % 64) % 64) 0 ++
    wordBytes (.ofNat (bits / UInt32.size)) ++ wordBytes (.ofNat bits)

def extend : Nat → List UInt32 → List UInt32
  | 0, ws => ws
  | n + 1, ws =>
    extend n (rotate 1 (ws.getD 2 0 ^^^ ws.getD 7 0 ^^^ ws.getD 13 0 ^^^ ws.getD 15 0) :: ws)

def mix (t : Nat) (b c d : UInt32) : UInt32 :=
  if t < 20 then ((b &&& c) ||| (~~~b &&& d)) + 0x5A827999
  else if t < 40 then (b ^^^ c ^^^ d) + 0x6ED9EBA1
  else if t < 60 then ((b &&& c) ||| (b &&& d) ||| (c &&& d)) + 0x8F1BBCDC
  else (b ^^^ c ^^^ d) + 0xCA62C1D6

def round (h : Digest) (t : Nat) (w : UInt32) : Digest :=
  ⟨rotate 5 h.a + mix t h.b h.c h.d + h.e + w, h.a, rotate 30 h.b, h.c, h.d⟩

def block (h : Digest) (ws : List UInt32) : Digest :=
  let s := (extend 64 ws.reverse).reverse.zipIdx.foldl (fun s (w, t) => round s t w) h
  ⟨h.a + s.a, h.b + s.b, h.c + s.c, h.d + s.d, h.e + s.e⟩

def blocks : Nat → Digest → List UInt32 → Digest
  | 0, h, _ => h
  | n + 1, h, ws => blocks n (block h (ws.take 16)) (ws.drop 16)

def digest (message : Bytes) : Digest :=
  let ws := words (pad message)
  blocks (ws.length / 16) start ws

end PhaseKeeper.Sha1
