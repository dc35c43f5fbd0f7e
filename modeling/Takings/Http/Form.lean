import Takings.Text.Percent
import Takings.Text.Split

/-!
# Form data

Names and values as they stand in the query of a request: pairs between ampersands, each cut at
its first equals sign. A plus sign is a blank, other characters may be percent-encoded, and bytes
that are no UTF-8 become U+FFFD.
-/
namespace Takings.Http.Form

/-- The text that a name or a value stands for. -/
def decode (cs : List Char) : String :=
  let blanks := cs.map fun c => if c = '+' then ' ' else c
  String.ofList (Text.Utf8.decodeLossy (Text.Percent.bytes blanks))

/-- The name and the value of a pair; without an equals sign the value is empty. -/
def pair (cs : List Char) : String × String :=
  match Text.cutFirst? '=' cs with
  | some (name, value) => (decode name, decode value)
  | none => (decode cs, "")

/-- The pairs of a query, in order. Empty ones are skipped. -/
def pairs (query : String) : List (String × String) :=
  ((Text.split '&' query.toList).filter fun p => !p.isEmpty).map pair

end Takings.Http.Form
