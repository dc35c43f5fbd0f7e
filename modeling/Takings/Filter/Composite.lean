import Takings.Filter.Active
import Takings.Filter.Level
import Takings.Json.Reader

/-!
# Composite filters

A composite filter is a JSON text with the key of a level and a value: an object with one member
`type` and one member `value`, or an array of those two. The key is a string as it stands, while
the value may be in an envelope. Other members of the object are skipped as they are written. A
text that is anything else is no filter.
-/
namespace Takings.Filter

open Json

/-- A level and the text to compare its column with. -/
structure LevelFilter where
  level : Level
  value : String
  deriving DecidableEq, Repr

namespace Composite

/-- The one value under a name; none if there are several. -/
def single? (name : String) (members : List (String × Tree)) : Option Tree :=
  match members.filter fun (k, _) => k == name with
  | [(_, t)] => some t
  | _ => none

/-- The trees of the key and the value. -/
def parts? : Tree → Option (Tree × Tree)
  | .array [key, value] => some (key, value)
  | .object members => do
    let members ← members.mapM fun (k, t) =>
      (Literal.text? k).map fun k => (String.ofList k, t)
    let key ← single? "type" members
    let value ← single? "value" members
    return (key, value)
  | _ => none

/-- The text of a string or of a number. -/
def scalarText? : Json → Option String
  | .str s => some s
  | .int n => some (Text.intText n)
  | .float x _ => some (String.ofList x.text)
  | _ => none

/-- The text of a string or of a number as it is written, also of one in an envelope. -/
def valueText? : Tree → Option String
  | .string s => s.text?.map String.ofList
  | .number n => n.value?.bind scalarText?
  | .object [(name, .string s)] =>
    if name.text? = some envelopeName.toList then do
      let enclosed ← s.text?
      let value ← (Json.read (String.ofList enclosed)).toOption
      scalarText? value
    else none
  | _ => none

/-- The key and the value that a text holds. -/
def read? (text : String) : Option (String × String) := do
  let tree ← Tree.read? text.toList
  let (.string key, value) ← parts? tree | none
  let key ← key.text?
  let value ← valueText? value
  return (String.ofList key, value)

/-- The filter on a hierarchy that a text denotes. Neither the text nor the value in it may be
inactive. -/
def filter? (h : Hierarchy) (text : String) : Option LevelFilter := do
  guard (isActive text)
  let (key, value) ← read? text
  let level ← Level.ofKey? h key
  let value ← active? value
  return ⟨level, value⟩

end Composite

end Takings.Filter
