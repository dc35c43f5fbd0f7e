import Takings.Query.Placeholder
import Takings.Text.Utf8

/-!
# Placeholders byte by byte

How the greatest number of a placeholder is found in a single pass over the bytes of a text: step by
step, in words, with a cursor that is among the digits of a number or outside of numbers.
-/
namespace Takings.Placeholder

def isDigit (b : UInt8) : Bool :=
  0x30 ≤ b && b ≤ 0x39

def digitValue (b : UInt8) : Nat :=
  (b - 0x30).toNat

/-- A place in a text, with what was found up to there. -/
structure Cursor where
  /-- The number of bytes that lie behind. -/
  index : Nat
  greatest : Nat
  /-- What the digits just behind spell, among the digits of a number. -/
  number : Option Nat
  deriving DecidableEq, Repr

namespace Cursor

def start : Cursor :=
  ⟨0, 0, none⟩

/-- The digit at a cursor that is among digits. -/
def digit? (bytes : List UInt8) (c : Cursor) : Option UInt8 :=
  bytes[c.index]?.filter isDigit

/-- One step; none at the end of the text. After a dollar sign only a digit begins a number, and
any other byte is looked at again from outside. -/
def step? (bytes : List UInt8) (c : Cursor) : Option Cursor :=
  match c.number with
  | none =>
    match bytes[c.index]? with
    | none => none
    | some b =>
      let next : Cursor := { c with index := c.index + 1 }
      if b = 0x24 ∧ (next.digit? bytes).isSome then some { next with number := some 0 }
      else some next
  | some n =>
    match c.digit? bytes with
    | some b =>
      some { c with
        index := c.index + 1
        number := some (Word.wrap (Word.wrap (10 * n) + digitValue b)) }
    | none => some { c with greatest := max c.greatest n, number := none }

/-- What a step computes from the number so far and the next digit, before it is cut to a word. -/
def computed (bytes : List UInt8) (c : Cursor) : List Nat :=
  match c.number, c.digit? bytes with
  | some n, some b => [10 * n, 10 * n + digitValue b]
  | _, _ => []

/-- The cursor after a number of steps. At the end of the text it stays. -/
def after (bytes : List UInt8) : Nat → Cursor
  | 0 => start
  | k + 1 => ((after bytes k).step? bytes).getD (after bytes k)

end Cursor

end Takings.Placeholder
