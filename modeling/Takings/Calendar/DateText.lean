import Takings.Calendar.Date
import Takings.Calendar.Scan

/-!
# Dates as texts

A date is written year, month and day with dashes between. Years from 0 to 9999 have four
digits and no sign, all others a sign and at least four digits.
-/
namespace Takings.Date

open Calendar

def yearText (y : Int) : List Char :=
  if y < 0 then '-' :: Text.padded 4 y.natAbs
  else if y ≤ 9999 then Text.padded 4 y.natAbs
  else '+' :: Text.padded 4 y.natAbs

def write (d : Date) : List Char :=
  yearText d.year ++ '-' :: (Text.padded 2 d.month ++ '-' :: Text.padded 2 d.day)

def text (d : Date) : String :=
  String.ofList d.write

/-- Reads a date; parts out of their range are noticed as soon as they are read. -/
def read (cs : List Char) : Except TextError Date := do
  let (year, cs) ← scanYear cs
  let cs ← scanMark '-' cs
  let (month, cs) ← scanPart 1 12 cs
  let cs ← scanMark '-' cs
  let (day, cs) ← scanPart 1 31 cs
  scanEnd cs
  match ofParts? year month day with
  | some d => .ok d
  | none => .error .outOfRange

end Takings.Date
