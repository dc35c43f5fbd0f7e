import Takings.Failure
import Takings.Query.Bind
import Takings.Text.Numeral
import Takings.Word

/-!
# Placeholders

The numbers of the placeholders in the text of a query, and the check that the values bound to
it are just as many as the greatest of them.
-/
namespace Takings.Placeholder

/-- The number that a run of digits spells, as a word. -/
def ofDigits (ds : List Char) : Nat :=
  ds.foldl (fun n c => Word.wrap (10 * n + Text.digitValue c)) 0

/-- The numbers of the placeholders from left to right: a dollar sign and the digits after it. -/
def scan : List Char → List Nat
  | [] => []
  | '$' :: cs =>
    let ds := cs.takeWhile Char.isDigit
    if ds.isEmpty then scan cs else ofDigits ds :: scan cs
  | _ :: cs => scan cs

/-- The greatest number of a placeholder, zero if there is none. -/
def greatest (sql : String) : Nat :=
  (scan sql.toList).foldl max 0

/-- Refuses binds that are more or fewer than the placeholders. -/
def check (sql : String) (binds : List Bind) : Except Failure Unit :=
  if greatest sql = binds.length then .ok ()
  else .error (.unboundPlaceholders (greatest sql) binds.length)

end Takings.Placeholder
