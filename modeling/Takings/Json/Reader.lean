import Takings.Json.Fault

/-!
# Reading values

The value of a JSON text, or what is wrong with it. Of several flaws the first in the text
counts. Arrays and objects may be 127 deep; a text in an envelope starts anew.
-/
namespace Takings.Json

/-- Takes something off the front of a text. -/
abbrev Reader (α : Type) := List Char → Except Stop (α × List Char)

namespace Reader

open Takings.Json.Tree (skipGap)

/-- The rest of a word whose first letter is read already. -/
def word (v : Json) : List Char → Reader Json
  | [], r => .ok (v, r)
  | _ :: _, [] => .error (.before .endOfValue [])
  | w :: ws, c :: r => if c = w then word v ws r else .error (.after .badWord (c :: r))

/-- A string after its opening quote. -/
def string : Reader String := fun cs =>
  match (Literal.read cs).bind fun (s, r) => s.text?.map fun t => (String.ofList t, r) with
  | some x => .ok x
  | none => .error (.ofString cs)

def number : Reader Json := fun cs =>
  match Numeral.read cs with
  | none => .error (.ofNumber cs)
  | some (n, r) =>
    match n.value? with
    | none => .error (.ofRange n r)
    | some v => .ok (v, r)

/-- A value that is neither an array nor an object. -/
def scalar : Reader Json
  | [] => .error (.before .endOfValue [])
  | 'n' :: r => word .null ['u', 'l', 'l'] r
  | 't' :: r => word (.bool true) ['r', 'u', 'e'] r
  | 'f' :: r => word (.bool false) ['a', 'l', 's', 'e'] r
  | '"' :: r => (string r).map fun (s, r) => (.str s, r)
  | c :: r =>
    if c = '-' ∨ c.isDigit then number (c :: r) else .error (.after .noValue (c :: r))

/-- The items of an array, at least one, with the closing bracket. The number bounds how many. -/
def items (value : Reader Json) : Nat → Reader (List Json)
  | 0, _ => .error (.before .endOfList [])
  | n + 1, cs => do
    let (v, r) ← value cs
    match skipGap r with
    | [] => .error (.before .endOfList [])
    | ']' :: r => .ok ([v], r)
    | ',' :: r =>
      match skipGap r with
      | ']' :: r => .error (.after .trailingComma (']' :: r))
      | r => (items value n r).map fun (vs, r) => (v :: vs, r)
    | r => .error (.after .noCommaInList r)

/-- An array after its opening bracket. -/
def array (value : Reader Json) : Reader Json := fun cs =>
  match skipGap cs with
  | [] => .error (.before .endOfList [])
  | ']' :: r => .ok (.arr [], r)
  | r => (items value r.length r).map fun (vs, r) => (.arr vs, r)

/-- The name of a member with the colon after it. -/
def name : Reader String
  | [] => .error (.before .endOfValue [])
  | '"' :: r => do
    let (s, r) ← string r
    match skipGap r with
    | [] => .error (.before .endOfObject [])
    | ':' :: r => .ok (s, r)
    | r => .error (.after .noColon r)
  | r => .error (.after .badName r)

/-- The members of an object, at least one, with the closing brace. The number bounds how many. -/
def members (value : Reader Json) : Nat → Reader (List (String × Json))
  | 0, _ => .error (.before .endOfObject [])
  | n + 1, cs => do
    let (k, r) ← name cs
    let (v, r) ← value r
    match skipGap r with
    | [] => .error (.before .endOfObject [])
    | '\x7d' :: r => .ok ([(k, v)], r)
    | ',' :: r =>
      match skipGap r with
      | '\x7d' :: r => .error (.after .trailingComma ('\x7d' :: r))
      | r => (members value n r).map fun (ms, r) => ((k, v) :: ms, r)
    | r => .error (.after .noCommaInObject r)

/-- An envelope after the colon: the value of the text in it, and the closing brace. -/
def envelope (inner : List Char → Except Fault Json) : Reader Json := fun cs =>
  match skipGap cs with
  | '"' :: r => do
    let (s, r) ← string r
    let v ← (inner s.toList).mapError .enclosed
    match skipGap r with
    | [] => .error (.before .endOfObject [])
    | '\x7d' :: r => .ok (v, r)
    | ',' :: r => .error (.after .trailingComma (',' :: r))
    | r => .error (.after .trailingText r)
  | '[' :: r => .error (.before (.noEnclosedText (.arr [])) ('[' :: r))
  | '\x7b' :: r => .error (.before (.noEnclosedText (.obj [])) ('\x7b' :: r))
  | r => do
    let (v, r) ← scalar r
    .error (.before (.noEnclosedText v) r)

/-- An object after its opening brace. -/
def object (inner : List Char → Except Fault Json) (value : Reader Json) : Reader Json :=
  fun cs =>
  match skipGap cs with
  | [] => .error (.before .endOfObject [])
  | '\x7d' :: r => .ok (.obj [], r)
  | r => do
    let (k, afterName) ← name r
    if k = envelopeName then envelope inner afterName
    else (members value r.length r).map fun (ms, r) => (Json.object ms, r)

/-- A value in which arrays and objects are at most so deep, with white space in front. What the
texts in envelopes denote is said by `inner`. -/
def value (inner : List Char → Except Fault Json) : Nat → Reader Json
  | 0, cs =>
    match skipGap cs with
    | '[' :: r => .error (.after .tooDeep ('[' :: r))
    | '\x7b' :: r => .error (.after .tooDeep ('\x7b' :: r))
    | r => scalar r
  | depth + 1, cs =>
    match skipGap cs with
    | '[' :: r => array (value inner depth) r
    | '\x7b' :: r => object inner (value inner depth) r
    | r => scalar r

/-- A text that is one value with white space around it. -/
def text (inner : List Char → Except Fault Json) (cs : List Char) : Except Fault Json :=
  match value inner 127 cs with
  | .error stop => .error (stop.fault cs)
  | .ok (v, r) =>
    match skipGap r with
    | [] => .ok v
    | r => .error ((Stop.after .trailingText r).fault cs)

/-- A text with at most so many texts inside of each other, itself included. -/
def nested : Nat → List Char → Except Fault Json
  | 0, cs => .error (.ofLeft 0 .endOfValue cs)
  | n + 1, cs => text (nested n) cs

end Reader

/-- Reads a text that is one value. What is in an envelope is shorter than the text around it, so
that the length bounds the nesting. -/
def read (s : String) : Except Fault Json :=
  Reader.nested (s.length + 1) s.toList

end Takings.Json
