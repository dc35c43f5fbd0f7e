import Takings.Text.Numeral

/-!
# Failures

Why a request could not be answered. Callers over the network learn nothing of it.
-/
namespace Takings

inductive Failure where
  /-- A query could not be run, or its rows are not of the expected shape. -/
  | query (message : String)
  | internal (message : String)
  /-- The text of a query and the values bound to it do not fit each other. -/
  | unboundPlaceholders (expected bound : Nat)
  deriving DecidableEq, Repr

namespace Failure

/-- The cause of an internal failure. -/
def cause? : Failure → Option String
  | query _ => none
  | internal message => some message
  | unboundPlaceholders expected bound =>
    some ("sql expects " ++ Text.natText expected ++ " binds but " ++ Text.natText bound ++
      " were collected")

def message : Failure → String
  | query message => "query failed: " ++ message
  | internal _ | unboundPlaceholders _ _ => "internal error"

end Failure

end Takings
