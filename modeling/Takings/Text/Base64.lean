/-!
# Base64

Bytes as text, three of them in four digits of six bits. White space counts for nothing wherever
it stands. Text is read in blocks of eight digits, and padding belongs at the end of the last
block; it may be left out. The text itself is bytes too, which need not be characters.
-/
namespace Takings.Text.Base64

/-- Why a text is no Base64. -/
inductive Fault where
  /-- A byte that is no digit. -/
  | character (byte : UInt8)
  /-- Padding before the last four digits. -/
  | earlyPadding
  /-- Last digits that make up no bytes. -/
  | badEnd
  deriving DecidableEq, Repr

/-- What a byte of the text stands for. -/
inductive Digit where
  | value (n : Nat)
  | padding
  deriving DecidableEq, Repr

def Digit.value? : Digit → Option Nat
  | value n => some n
  | padding => none

def isFiller (b : UInt8) : Bool :=
  b == 0x20 || (0x09 ≤ b && b ≤ 0x0D)

/-- The digit that a byte of the text is, if it is one. -/
def digit? (b : UInt8) : Option Digit :=
  if 0x41 ≤ b ∧ b ≤ 0x5A then some (.value (b.toNat - 0x41))
  else if 0x61 ≤ b ∧ b ≤ 0x7A then some (.value (b.toNat - 0x61 + 26))
  else if 0x30 ≤ b ∧ b ≤ 0x39 then some (.value (b.toNat - 0x30 + 52))
  else if b = 0x2B then some (.value 62)
  else if b = 0x2F then some (.value 63)
  else if b = 0x3D then some .padding
  else none

/-- The bytes of whole groups of four values. -/
def bytes : List Nat → List UInt8
  | a :: b :: c :: d :: rest =>
    let n := 262144 * a + 4096 * b + 64 * c + d
    UInt8.ofNat (n / 65536) :: UInt8.ofNat (n / 256) :: UInt8.ofNat n :: bytes rest
  | _ => []

/-- The bytes of the last four digits or fewer. -/
def lastBytes : List Digit → Except Fault (List UInt8)
  | [] => .ok []
  | [.value a, .value b] | [.value a, .value b, .padding, .padding] =>
    .ok ((bytes [a, b, 0, 0]).take 1)
  | [.value a, .value b, .value c] | [.value a, .value b, .value c, .padding] =>
    .ok ((bytes [a, b, c, 0]).take 2)
  | [.value a, .value b, .value c, .value d] => .ok (bytes [a, b, c, d])
  | _ => .error .badEnd

/-- The bytes of digits that more digits follow. -/
def innerBytes (ds : List Digit) : Except Fault (List UInt8) :=
  match ds.mapM Digit.value? with
  | some ns => .ok (bytes ns)
  | none => .error .earlyPadding

/-- The bytes of the last block. -/
def lastBlock (block : List Digit) : Except Fault (List UInt8) :=
  if 4 < block.length then do
    let front ← innerBytes (block.take 4)
    let back ← lastBytes (block.drop 4)
    return front ++ back
  else lastBytes block

/-- Reads on after the digits of a block. -/
def decodeFrom (block : List Digit) : List UInt8 → Except Fault (List UInt8)
  | [] => lastBlock block
  | b :: bs =>
    if isFiller b then decodeFrom block bs
    else
      match digit? b with
      | none => .error (.character b)
      | some d =>
        if block.length < 8 then decodeFrom (block ++ [d]) bs
        else do
          let front ← innerBytes block
          let back ← decodeFrom [d] bs
          return front ++ back

def decode (bs : List UInt8) : Except Fault (List UInt8) :=
  decodeFrom [] bs

end Takings.Text.Base64
