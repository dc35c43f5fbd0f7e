/-!
# Binary floating point, 64 bits

The numbers of the IEEE 754 format binary64, exact and without an opaque machine type. A
magnitude is the number that its 63 low bits spell: the order of magnitudes is then the order of
those numbers, and the largest of them is infinity. Every finite magnitude is a whole number of
units of 2^-1074, and rounding takes an exact quotient of units to the nearest magnitude, a tie
to the even one.
-/
namespace Takings

namespace Magnitude

/-- The magnitude that stands for infinity. -/
def infinity : Nat := 0x7FF0000000000000

/-- The length of the binade step: 2^52. -/
def binade : Nat := 0x10000000000000

/-- How far the digits of a magnitude are shifted: its unit in the last place is 2^shift units. -/
def shift (b : Nat) : Nat :=
  b / binade - 1

/-- The whole number of units of 2^-1074 that a finite magnitude denotes. -/
def units (b : Nat) : Nat :=
  (b - shift b * binade) <<< shift b

/-- The whole number nearest to `num / den`, a tie to the even one. -/
def nearest (num den : Nat) : Nat :=
  let q := num / den
  let r := num % den
  if 2 * r < den then q
  else if den < 2 * r then q + 1
  else q + q % 2

/-- The magnitude nearest to `num / den` units, a tie to the even one. -/
def round (num den : Nat) : Nat :=
  let k := (num / den).log2 - 52
  min infinity (k * binade + nearest num (den <<< k))

end Magnitude

/-- A number of the format binary64: `magnitude` is at most `Magnitude.infinity`. -/
inductive Binary64 where
  | number (negative : Bool) (magnitude : Nat)
  | nan
  deriving DecidableEq, Repr

namespace Binary64

def zero : Binary64 :=
  .number false 0

def isFinite : Binary64 → Bool
  | .number _ b => b < Magnitude.infinity
  | .nan => false

/-- The exact value of a finite number in units of 2^-1074. -/
def toUnits : Binary64 → Int
  | .number false b => Magnitude.units b
  | .number true b => -(Magnitude.units b : Int)
  | .nan => 0

/-- One, in units. -/
def one : Nat :=
  1 <<< 1074

/-- The whole number nearest to an integer, zero without a sign. -/
def ofInt (i : Int) : Binary64 :=
  .number (i < 0) (Magnitude.round (i.natAbs * one) 1)

/-- The position of a number in numeric order; both zeros have the same. -/
def rank : Binary64 → Int
  | .number false b => b
  | .number true b => -(b : Int)
  | .nan => 0

/-- Numeric comparison; a NaN compares with nothing. -/
def compare? (x y : Binary64) : Option Ordering :=
  match x, y with
  | .nan, _ => none
  | _, .nan => none
  | x, y => some (compare x.rank y.rank)

/-- Sum, correctly rounded. -/
def add (x y : Binary64) : Binary64 :=
  match x, y with
  | .nan, _ => .nan
  | _, .nan => .nan
  | .number s a, .number t b =>
    if a = Magnitude.infinity then
      if b = Magnitude.infinity ∧ s ≠ t then .nan else .number s a
    else if b = Magnitude.infinity then .number t b
    else
      let sum := (Binary64.number s a).toUnits + (Binary64.number t b).toUnits
      if sum = 0 then .number (s && t) 0
      else .number (sum < 0) (Magnitude.round sum.natAbs 1)

/-- Product, correctly rounded. -/
def mul (x y : Binary64) : Binary64 :=
  match x, y with
  | .nan, _ => .nan
  | _, .nan => .nan
  | .number s a, .number t b =>
    if a = Magnitude.infinity ∨ b = Magnitude.infinity then
      if a = 0 ∨ b = 0 then .nan else .number (s != t) Magnitude.infinity
    else .number (s != t) (Magnitude.round (Magnitude.units a * Magnitude.units b) one)

/-- Quotient, correctly rounded. -/
def div (x y : Binary64) : Binary64 :=
  match x, y with
  | .nan, _ => .nan
  | _, .nan => .nan
  | .number s a, .number t b =>
    if a = Magnitude.infinity then
      if b = Magnitude.infinity then .nan else .number (s != t) Magnitude.infinity
    else if b = Magnitude.infinity then .number (s != t) 0
    else if b = 0 then
      if a = 0 then .nan else .number (s != t) Magnitude.infinity
    else .number (s != t) (Magnitude.round (Magnitude.units a * one) (Magnitude.units b))

/-- The nearest whole number, a half going away from zero; the sign stays. -/
def roundHalfAway : Binary64 → Binary64
  | .nan => .nan
  | .number s b =>
    if b = Magnitude.infinity then .number s b
    else
      let whole := (2 * Magnitude.units b + one) / (2 * one)
      .number s (Magnitude.round (whole * one) 1)

end Binary64

end Takings
