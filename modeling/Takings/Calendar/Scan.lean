import Takings.Text.Blank
import Takings.Text.Numeral

/-!
# Reading dates and times

The steps from which the readers of dates and times are made. Every step skips white space in
front, and the first one that fails decides the error.
-/
namespace Takings.Calendar

/-- Why a text is no date or no time. -/
inductive TextError where
  | endsEarly
  | wrongCharacter
  | outOfRange
  | trailing
  deriving DecidableEq, Repr

namespace TextError

def message : TextError → String
  | .endsEarly => "premature end of input"
  | .wrongCharacter => "input contains invalid characters"
  | .outOfRange => "input is out of range"
  | .trailing => "trailing input"

end TextError

/-- Up to `width` digits, as far as the number fits 63 bits. -/
def scanDigits : Nat → Nat → List Char → Except TextError (Nat × List Char)
  | 0, n, cs => .ok (n, cs)
  | _ + 1, n, [] => .ok (n, [])
  | width + 1, n, c :: cs =>
    if c.isDigit then
      let m := 10 * n + Text.digitValue c
      if m < 9223372036854775808 then scanDigits width m cs else .error .outOfRange
    else .ok (n, c :: cs)

/-- A number of one to `width` digits. -/
def scanNumber (width : Nat) (cs : List Char) : Except TextError (Nat × List Char) :=
  match cs with
  | [] => .error .endsEarly
  | c :: _ => if c.isDigit then scanDigits width 0 cs else .error .wrongCharacter

/-- A number of one or two digits from `least` to `greatest`. -/
def scanPart (least greatest : Nat) (cs : List Char) : Except TextError (Nat × List Char) := do
  let (n, rest) ← scanNumber 2 (Text.skipBlank cs)
  if least ≤ n ∧ n ≤ greatest then .ok (n, rest) else .error .outOfRange

/-- A year: any number of digits after a sign, else up to four. -/
def scanYear (cs : List Char) : Except TextError (Int × List Char) := do
  let (y, rest) ← match Text.skipBlank cs with
    | '-' :: r => (scanNumber r.length r).map fun (n, rest) => (-(n : Int), rest)
    | '+' :: r => (scanNumber r.length r).map fun (n, rest) => ((n : Int), rest)
    | r => (scanNumber 4 r).map fun (n, rest) => ((n : Int), rest)
  if -2147483648 ≤ y ∧ y ≤ 2147483647 then .ok (y, rest) else .error .outOfRange

def scanMark (mark : Char) (cs : List Char) : Except TextError (List Char) :=
  match Text.skipBlank cs with
  | [] => .error .endsEarly
  | c :: rest => if c = mark then .ok rest else .error .wrongCharacter

/-- Only white space is left. -/
def scanEnd (cs : List Char) : Except TextError Unit :=
  if (Text.skipBlank cs).isEmpty then .ok () else .error .trailing

end Takings.Calendar
