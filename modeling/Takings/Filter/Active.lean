import Takings.Text.Ascii
import Takings.Text.Blank

/-!
# Active values

A value filters unless it is blank or names everything.
-/
namespace Takings.Filter

/-- Whether a value is neither blank nor the word for everything, up to white space around it. -/
def isActive (value : String) : Bool :=
  let inner := Text.trim value
  !inner.isEmpty && !Text.sameLetters inner "all"

/-- The value without the white space around it, if it is active. -/
def active? (value : String) : Option String :=
  if isActive value then some (Text.trim value) else none

end Takings.Filter
