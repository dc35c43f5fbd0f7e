import Takings.Binary64.Decimal
import Takings.Json.Syntax
import Takings.Word

/-!
# JSON values

What JSON texts denote. Whole numbers that fit 64 bits are exact, all others are finite numbers
of binary floating point, made of no more digits than fit 64 bits and of a power of ten. The
members of an object are in ascending order of their names, and of two members of one name the
later one counts. An object whose first member has a reserved name is an envelope: it stands for
what the text in that member denotes.
-/
namespace Takings

inductive Json where
  | null
  | bool (b : Bool)
  | int (n : Int)
  | float (x : Binary64) (finite : x.isFinite = true)
  | str (s : String)
  | arr (items : List Json)
  | obj (members : List (String × Json))

namespace Json

/-- A number of binary floating point; what is not finite becomes null. -/
def number (x : Binary64) : Json :=
  if h : x.isFinite = true then .float x h else .null

/-- The members with one more, in ascending order of names; a member of that name gives way. -/
def insert (name : String) (value : Json) : List (String × Json) → List (String × Json)
  | [] => [(name, value)]
  | (k, v) :: rest =>
    if name < k then (name, value) :: (k, v) :: rest
    else if name = k then (name, value) :: rest
    else (k, v) :: insert name value rest

/-- The object of the given members. -/
def object (members : List (String × Json)) : Json :=
  .obj (members.foldl (fun l (k, v) => insert k v l) [])

namespace Numeral

/-- Takes digits as long as the number that they continue fits 64 bits: that number and the digits
that are left. -/
def takeFitting (n : Nat) : List Char → Nat × List Char
  | [] => (n, [])
  | c :: cs =>
    let next := 10 * n + Text.digitValue c
    if next < 18446744073709551616 then takeFitting next cs else (n, c :: cs)

/-- The first digits as a number of 64 bits, and the exponent of ten that the digits before the
point which do not fit and the ones after it make. What does not fit after the point is ignored. -/
def scaled (n : Numeral) : Nat × Int :=
  let (whole, dropped) := takeFitting 0 n.whole
  let (significand, ignored) := takeFitting whole n.fraction
  (significand, Word.wrapNarrow (dropped.length + ignored.length - n.fraction.length))

/-- The number of binary floating point that a numeral comes to, infinite when it is beyond the
format. An exponent beyond 32 bits is not even added. -/
def double (n : Numeral) : Binary64 :=
  let (significand, scale) := n.scaled
  match n.exponent with
  | none => .ofDecimal n.negative significand scale
  | some e =>
    if Text.ofDigits e.digits ≤ 2147483647 then
      .ofDecimal n.negative significand (Word.clampNarrow (scale + e.value))
    else if significand = 0 ∨ e.sign = some '-' then .number n.negative 0
    else .number n.negative Magnitude.infinity

/-- The number that a numeral denotes; none if it is beyond the double range. -/
def value? (n : Numeral) : Option Json :=
  let mantissa := Text.ofDigits n.whole
  if n.isWhole ∧ !n.negative ∧ mantissa < 18446744073709551616 then some (.int mantissa)
  else if n.isWhole ∧ n.negative ∧ 0 < mantissa ∧ mantissa ≤ 9223372036854775808 then
    some (.int (-(mantissa : Int)))
  else if h : n.double.isFinite = true then some (.float n.double h)
  else none

end Numeral

/-- The name of the one member of an envelope. -/
def envelopeName : String :=
  "$serde_json::private::RawValue"

end Json

end Takings
