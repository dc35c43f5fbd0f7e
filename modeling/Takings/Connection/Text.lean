import Takings.Connection.Pairs
import Takings.Connection.Url

/-!
# Connection texts

A connection text is a URL or a list of pairs of names and values.
-/
namespace Takings.Connection

/-- The options that a connection text sets, in order. -/
def read (text : String) : Except TextError (List Setting) :=
  match Url.afterScheme? text with
  | some cs => Url.read cs
  | none => Pairs.read text

end Takings.Connection
