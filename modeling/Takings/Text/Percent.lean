import Takings.Text.Ascii
import Takings.Text.Utf8

/-!
# Percent encoding

Bytes written as a percent sign and two hexadecimal digits. A percent sign without two digits
after it stands for itself.
-/
namespace Takings.Text.Percent

/-- The value of a byte that is a hexadecimal digit. -/
def hexByte (b : UInt8) : Option Nat :=
  hexValue (Char.ofNat b.toNat)

def decode : List UInt8 → List UInt8
  | [] => []
  | [b] => [b]
  | [b, c] => [b, c]
  | b :: h :: l :: r =>
    if b = 0x25 then
      match hexByte h, hexByte l with
      | some x, some y => UInt8.ofNat (16 * x + y) :: decode r
      | _, _ => b :: decode (h :: l :: r)
    else b :: decode (h :: l :: r)

/-- The bytes that a text with percent encoding stands for. -/
def bytes (cs : List Char) : List UInt8 :=
  decode (Utf8.encode cs)

end Takings.Text.Percent
