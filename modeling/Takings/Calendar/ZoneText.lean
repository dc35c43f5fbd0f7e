import Takings.Calendar.Zone
import Takings.Text.Ascii
import Takings.Text.Numeral

/-!
# Time zones as texts

Zones in the notation of the TZ variable: a name and an offset west of Greenwich, and for zones
whose clocks are changed a second name and the two days of the changes. Without an offset of its
own summer time is an hour ahead.
-/
namespace Takings.Zone

def isNameChar (c : Char) : Bool :=
  c.isAlphanum || c == '+' || c == '-'

/-- A name of three to seven characters: letters, or anything like that in angle brackets. -/
def readName (cs : List Char) : Option (List Char) :=
  let isName (name : List Char) : Bool :=
    3 ≤ name.length && name.length ≤ 7 && name.all isNameChar
  match cs with
  | '<' :: r =>
    match r.dropWhile (· != '>') with
    | _ :: rest => if isName (r.takeWhile (· != '>')) then some rest else none
    | [] => none
  | _ => if isName (cs.takeWhile Char.isAlpha) then some (cs.dropWhile Char.isAlpha) else none

/-- A whole number of at least one digit. -/
def readCount (cs : List Char) : Option (Nat × List Char) :=
  let ds := cs.takeWhile Char.isDigit
  if ds.isEmpty then none else some (Text.ofDigits ds, cs.dropWhile Char.isDigit)

/-- Minutes or seconds after a colon. -/
def readSixtieths (cs : List Char) : Option (Nat × List Char) := do
  let (n, rest) ← readCount cs
  if n < 60 then some (n, rest) else none

/-- Hours with minutes and seconds, as seconds. -/
def readClock (cs : List Char) : Option (Nat × List Char) := do
  let (h, cs) ← readCount cs
  if 24 < h then none
  else
    match cs with
    | ':' :: r => do
      let (m, cs) ← readSixtieths r
      match cs with
      | ':' :: r => do
        let (s, cs) ← readSixtieths r
        return (3600 * h + 60 * m + s, cs)
      | cs => return (3600 * h + 60 * m, cs)
    | cs => return (3600 * h, cs)

/-- An offset, written as a time west of Greenwich; a day is too much. -/
def readOffset (cs : List Char) : Option (Offset × List Char) := do
  let (sign, cs) := match cs with
    | '-' :: r => ((1 : Int), r)
    | '+' :: r => (-1, r)
    | r => (-1, r)
  let (n, cs) ← readClock cs
  let offset ← Offset.ofSeconds? (sign * n)
  return (offset, cs)

def readDot (cs : List Char) : Option (Nat × List Char) :=
  match cs with
  | '.' :: r => readCount r
  | _ => none

def readYearDay (cs : List Char) : Option (YearDay × List Char) :=
  match cs with
  | 'M' :: r => do
    let (month, r) ← readCount r
    let (week, r) ← readDot r
    let (weekday, r) ← readDot r
    if 1 ≤ month ∧ month ≤ 12 ∧ 1 ≤ week ∧ week ≤ 5 ∧ weekday ≤ 6 then
      some (.weekday month week weekday, r)
    else none
  | 'J' :: r => do
    let (day, r) ← readCount r
    if 1 ≤ day ∧ day ≤ 365 then some (.plain day, r) else none
  | r => do
    let (day, r) ← readCount r
    if day ≤ 365 then some (.counted day, r) else none

/-- A change after a comma; without a time it is at two o'clock. -/
def readChangeover (cs : List Char) : Option (Changeover × List Char) :=
  match cs with
  | ',' :: r => do
    let (day, r) ← readYearDay r
    match r with
    | '/' :: r => do
      let (second, r) ← readClock r
      return (⟨day, second⟩, r)
    | r => return (⟨day, 7200⟩, r)
  | _ => none

/-- The seconds ahead of Greenwich in summer time. -/
def readSummer (standard : Offset) (cs : List Char) : Option (Int × List Char) :=
  match cs with
  | ',' :: _ => some (standard.east + 3600, cs)
  | _ => (readOffset cs).map fun (offset, rest) => (offset.east, rest)

/-- Reads a zone, with ASCII white space around it. -/
def read? (s : String) : Option Zone := do
  let front := s.toList.dropWhile Text.isAsciiBlank
  let cs ← readName (front.reverse.dropWhile Text.isAsciiBlank).reverse
  let (standard, cs) ← readOffset cs
  if cs.isEmpty then some (.fixed standard)
  else
    let cs ← readName cs
    let (summer, cs) ← readSummer standard cs
    let (start, cs) ← readChangeover cs
    let (stop, cs) ← readChangeover cs
    if cs.isEmpty then some (.changing standard summer start stop) else none

/-- The zone that a text names; Greenwich time if it names none. -/
def ofText (s : String) : Zone :=
  (read? s).getD utc

end Takings.Zone
