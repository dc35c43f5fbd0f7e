import Takings.Binary64.Basic

/-!
# Decimal numbers as binary ones

A significand times a power of ten. Both are rounded before they are multiplied or divided, so
that the result need not be the nearest number. Division by a power beyond 10^308 takes several
steps.
-/
namespace Takings.Binary64

def neg : Binary64 → Binary64
  | .number s b => .number (!s) b
  | .nan => .nan

/-- The number nearest to `10^k`. -/
def powerOfTen (k : Nat) : Binary64 :=
  .ofInt (Nat.pow 10 k)

/-- Divides by `10^308` for so many times and then by `10^k`; a zero is left alone before. -/
def divideByPowers (k : Nat) : Nat → Binary64 → Binary64
  | 0, x => x.div (powerOfTen k)
  | n + 1, x => if x = zero then x else divideByPowers k n (x.div (powerOfTen 308))

/-- The number that `significand · 10^exponent` comes to, infinite when it is beyond the format. -/
def ofDecimal (negative : Bool) (significand : Nat) (exponent : Int) : Binary64 :=
  let x := ofInt significand
  let product :=
    match exponent with
    | .ofNat k =>
      if k ≤ 308 then x.mul (powerOfTen k)
      else if x = zero then x
      else .number false Magnitude.infinity
    | .negSucc k => divideByPowers (k % 308 + 1) (k / 308) x
  if negative then product.neg else product

end Takings.Binary64
