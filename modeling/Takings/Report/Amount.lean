import Takings.Binary64.Basic
import Takings.Json.Value

/-!
# Amounts

Sums of money in reports: rounded to cents, a half cent going away from zero.
-/
namespace Takings.Report

/-- The amount in whole cents. -/
def cents (x : Binary64) : Binary64 :=
  ((x.mul (.ofInt 100)).roundHalfAway).div (.ofInt 100)

/-- The amount per order, zero unless there are orders. -/
def perOrder (total : Binary64) (orders : Int) : Binary64 :=
  if 0 < orders then total.div (.ofInt orders) else .zero

/-- A text, or null. -/
def textOrNull : Option String → Json
  | some s => .str s
  | none => .null

end Takings.Report
