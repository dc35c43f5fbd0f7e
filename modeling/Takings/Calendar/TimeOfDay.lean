import Takings.Calendar.Scan

/-!
# Times of the day

Times to the nanosecond. The second 60 of a leap second is kept as second 59 with a nanosecond
part of a whole second or more.
-/
namespace Takings

/-- Seconds since midnight and nanoseconds. -/
structure TimeOfDay where
  second : Nat
  nano : Nat
  second_lt : second < 86400
  nano_lt : nano < 2000000000
  deriving DecidableEq, Repr

namespace TimeOfDay

open Calendar

def midnight : TimeOfDay :=
  ⟨0, 0, by decide, by decide⟩

/-- The time of an hour, a minute, a second up to 60 and a fraction of it. -/
def ofParts? (hour minute second nano : Nat) : Option TimeOfDay :=
  if h : hour < 24 ∧ minute < 60 ∧ second ≤ 60 ∧ nano < 1000000000 then
    some
      { second := 3600 * hour + 60 * minute + min second 59
        nano := nano + (second - 59) * 1000000000
        second_lt := by omega
        nano_lt := by omega }
  else none

/-- A fraction of a second: the digits after the point, of which nine count. -/
def scanFraction (cs : List Char) : Except TextError (Nat × List Char) :=
  match cs with
  | '.' :: r => do
    let (n, rest) ← scanNumber 9 r
    let width := r.length - rest.length
    .ok (n * Nat.pow 10 (9 - width), rest.dropWhile Char.isDigit)
  | r => .ok (0, r)

/-- The seconds with their mark, and white space after them. -/
def scanSeconds (cs : List Char) : Except TextError (Nat × Nat × List Char) := do
  let cs ← scanMark ':' cs
  let (second, cs) ← scanPart 0 60 cs
  let (nano, cs) ← scanFraction cs
  .ok (second, nano, Text.skipBlank cs)

/-- Reads a time. Seconds that cannot be read count as not written. -/
def read (cs : List Char) : Except TextError TimeOfDay := do
  let (hour, cs) ← scanPart 0 23 cs
  let cs ← scanMark ':' cs
  let (minute, cs) ← scanPart 0 59 cs
  let (second, nano, cs) := match scanSeconds cs with
    | .ok r => r
    | .error _ => (0, 0, cs)
  scanEnd cs
  match ofParts? hour minute second nano with
  | some t => .ok t
  | none => .error .outOfRange

end TimeOfDay

end Takings
