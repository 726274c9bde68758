import PhaseKeeper.Text.Utf8
/-!
The first byte of a MessagePack item. It tells the family of the item and either holds its value or
length, or the number of bytes in which that follows.
-/
namespace PhaseKeeper.MessagePack

inductive Marker where
  | nil
  | reserved
  | bool (b : Bool)
  | posFix (n : Nat)
  | negFix (n : Nat)
  | uint (width : Nat)
  | int (width : Nat)
  | float32
  | float64
  | fixText (n : Nat)
  | text (width : Nat)
  | binary (width : Nat)
  | fixList (n : Nat)
  | list (width : Nat)
  | fixMap (n : Nat)
  | map (width : Nat)
  | fixExt (n : Nat)
  | ext (width : Nat)
deriving DecidableEq, Repr

namespace Marker

/-- `negFix n` stands for the number `n - 32`. -/
def ofByte (b : UInt8) : Marker :=
  let n := b.toNat
  if n < 0x80 then .posFix n
  else if n < 0x90 then .fixMap (n - 0x80)
  else if n < 0xA0 then .fixList (n - 0x90)
  else if n < 0xC0 then .fixText (n - 0xA0)
  else if 0xE0 ≤ n then .negFix (n - 0xE0)
  else if n = 0xC0 then .nil
  else if n = 0xC1 then .reserved
  else if n < 0xC4 then .bool (n = 0xC3)
  else if n < 0xC7 then .binary (Nat.pow 2 (n - 0xC4))
  else if n < 0xCA then .ext (Nat.pow 2 (n - 0xC7))
  else if n = 0xCA then .float32
  else if n = 0xCB then .float64
  else if n < 0xD0 then .uint (Nat.pow 2 (n - 0xCC))
  else if n < 0xD4 then .int (Nat.pow 2 (n - 0xD0))
  else if n < 0xD9 then .fixExt (Nat.pow 2 (n - 0xD4))
  else if n < 0xDC then .text (Nat.pow 2 (n - 0xD9))
  else if n < 0xDE then .list (Nat.pow 2 (n - 0xDB))
  else .map (Nat.pow 2 (n - 0xDD))

def isScalar : Marker → Bool
  | .nil | .bool _ | .posFix _ | .negFix _ | .uint _ | .int _ | .float32 | .float64 => true
  | _ => false

def sized (family : String) (width : Nat) : String := family ++ toString (8 * width)
def fixed (family : String) (n : Int) : String := family ++ "(" ++ toString n ++ ")"

def name : Marker → String
  | .nil => "Null"
  | .reserved => "Reserved"
  | .bool b => if b then "True" else "False"
  | .posFix n => fixed "FixPos" n
  | .negFix n => fixed "FixNeg" (n - 32)
  | .uint w => sized "U" w
  | .int w => sized "I" w
  | .float32 => "F32"
  | .float64 => "F64"
  | .fixText n => fixed "FixStr" n
  | .text w => sized "Str" w
  | .binary w => sized "Bin" w
  | .fixList n => fixed "FixArray" n
  | .list w => sized "Array" w
  | .fixMap n => fixed "FixMap" n
  | .map w => sized "Map" w
  | .fixExt n => "FixExt" ++ toString n
  | .ext w => sized "Ext" w

end Marker
end PhaseKeeper.MessagePack
