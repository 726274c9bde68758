/-!
UTF-8 as lists of bytes. Reading fails at the first place where no character can be read, and says
how many bytes there could never be the start of one, or that the text merely stops too early.
-/
namespace PhaseKeeper

abbrev Bytes := List UInt8

namespace Text.Utf8

/-- Where the bytes stop being UTF-8. `width` counts the bytes that no continuation can mend; it is
`none` when the bytes end inside a character. -/
structure Fault where
  index : Nat
  width : Option Nat
deriving DecidableEq, Repr

def Fault.message (f : Fault) : String :=
  match f.width with
  | none => "incomplete utf-8 byte sequence from index " ++ toString f.index
  | some n => "invalid utf-8 sequence of " ++ toString n ++ " bytes from index " ++ toString f.index

def encode (s : List Char) : Bytes := s.flatMap String.utf8EncodeChar

def isTail (b : UInt8) : Bool := 0x80 ≤ b && b ≤ 0xBF

def secondOfThree (a b : UInt8) : Bool :=
  if a = 0xE0 then 0xA0 ≤ b && b ≤ 0xBF
  else if a = 0xED then 0x80 ≤ b && b ≤ 0x9F
  else isTail b

def secondOfFour (a b : UInt8) : Bool :=
  if a = 0xF0 then 0x90 ≤ b && b ≤ 0xBF
  else if a = 0xF4 then 0x80 ≤ b && b ≤ 0x8F
  else isTail b

def low6 (b : UInt8) : Nat := b.toNat % 64

def charOfTwo (a b : UInt8) : Char := Char.ofNat (a.toNat % 32 * 64 + low6 b)

def charOfThree (a b c : UInt8) : Char :=
  Char.ofNat (a.toNat % 16 * 4096 + low6 b * 64 + low6 c)

def charOfFour (a b c d : UInt8) : Char :=
  Char.ofNat (a.toNat % 8 * 262144 + low6 b * 4096 + low6 c * 64 + low6 d)

def decodeFrom (index : Nat) : Bytes → Except Fault (List Char)
  | [] => .ok []
  | a :: r =>
    if a < 0x80 then (Char.ofNat a.toNat :: ·) <$> decodeFrom (index + 1) r
    else if a < 0xC2 || 0xF4 < a then .error ⟨index, some 1⟩
    else match r with
      | [] => .error ⟨index, none⟩
      | b :: r =>
        if a < 0xE0 then
          if isTail b then (charOfTwo a b :: ·) <$> decodeFrom (index + 2) r
          else .error ⟨index, some 1⟩
        else if a < 0xF0 && !secondOfThree a b then .error ⟨index, some 1⟩
        else if !(a < 0xF0) && !secondOfFour a b then .error ⟨index, some 1⟩
        else match r with
          | [] => .error ⟨index, none⟩
          | c :: r =>
            if !isTail c then .error ⟨index, some 2⟩
            else if a < 0xF0 then (charOfThree a b c :: ·) <$> decodeFrom (index + 3) r
            else match r with
              | [] => .error ⟨index, none⟩
              | d :: r =>
                if isTail d then (charOfFour a b c d :: ·) <$> decodeFrom (index + 4) r
                else .error ⟨index, some 3⟩

def decode (bytes : Bytes) : Except Fault (List Char) := decodeFrom 0 bytes

def decodeLossy : (fuel : Nat) → Bytes → List Char
  | 0, _ => []
  | fuel + 1, bytes =>
    match decode bytes with
    | .ok s => s
    | .error f =>
      ((decode (bytes.take f.index)).toOption.getD []) ++ '\uFFFD' ::
        match f.width with
        | some n => decodeLossy fuel (bytes.drop (f.index + n))
        | none => []

@[simp] theorem encode_nil : encode [] = [] := rfl

@[simp] theorem encode_cons (c : Char) (s : List Char) :
    encode (c :: s) = String.utf8EncodeChar c ++ encode s := by simp [encode]

end Text.Utf8

def bytesOf (s : String) : Bytes := Text.Utf8.encode s.toList

def textOf (bytes : Bytes) : Except Text.Utf8.Fault String :=
  String.ofList <$> Text.Utf8.decode bytes

def lossyTextOf (bytes : Bytes) : String :=
  String.ofList (Text.Utf8.decodeLossy (bytes.length + 1) bytes)

end PhaseKeeper
