import Takings.Calendar.Date

/-!
# Bound values

The values that stand beside the text of a query and take the place of its placeholders.
-/
namespace Takings

inductive Bind where
  | text (s : String)
  | int (n : Int)
  | date (d : Date)
  deriving DecidableEq, Repr

end Takings
