import Takings.Binary64.Basic
import Takings.Text.Numeral

/-!
# Shortest decimal text

The fewest decimal digits that read back as a given number; of those, the digits nearest to it,
and of two equally near the even ones. Written positionally from 10^-5 up to 10^16, and with an
exponent beyond.
-/
namespace Takings.Binary64

/-- The exponent of the greatest power of ten that is at most `v`. -/
def log10 (v : Nat) : Nat :=
  let guess := v.log2 * 1233 / 4096
  if Nat.pow 10 (guess + 1) ≤ v then guess + 1 else guess

/-- The exponent of ten of the leading digit of a positive magnitude. -/
def leading (b : Nat) : Int :=
  (log10 (Magnitude.units b * Nat.pow 10 342 / one) : Int) - 342

/-- Twice the value of a magnitude and of the two ends of the numbers that round to it. -/
def ends (b : Nat) : Nat × Nat :=
  (Magnitude.units (b - 1) + Magnitude.units b, Magnitude.units b + Magnitude.units (b + 1))

/-- Whether `t · 10^e` rounds to a magnitude, where `10^e` is `top / bottom` units. -/
def readsBack (b t top bottom : Nat) : Bool :=
  let (lo, hi) := ends b
  let twice := 2 * t * top
  if b % 2 = 0 then lo * bottom ≤ twice && twice ≤ hi * bottom
  else lo * bottom < twice && twice < hi * bottom

/-- The multiple of `10^e` next to a magnitude that reads back as it, if one does. -/
def onGrid? (b : Nat) (e : Int) : Option Nat :=
  let top := one * Nat.pow 10 e.toNat
  let bottom := Nat.pow 10 (-e).toNat
  let value := Magnitude.units b * bottom
  let below := value / top
  let above := below + 1
  match readsBack b below top bottom, readsBack b above top bottom with
  | false, false => none
  | true, false => some below
  | false, true => some above
  | true, true =>
    let down := value - below * top
    let up := above * top - value
    if down < up then some below
    else if up < down then some above
    else some (if below % 2 = 0 then below else above)

/-- Tries grids from coarse to fine. Seventeen digits always suffice. -/
def search (b : Nat) : Nat → Int → Nat × Int
  | 0, e => (Magnitude.units b * Nat.pow 10 (-e).toNat / (one * Nat.pow 10 e.toNat), e)
  | n + 1, e =>
    match onGrid? b e with
    | some t => (t, e)
    | none => search b n (e - 1)

/-- The digits of a positive finite magnitude and the exponent of ten of the first one. -/
def shortest (b : Nat) : List Char × Int :=
  let (t, e) := search b 17 (leading b)
  let ds := Text.digits t
  let kept := (ds.reverse.dropWhile (· == '0')).reverse
  (kept, e + ((ds.length : Int) - 1))

/-- The exponents of the first digit that are written positionally. -/
def positional (e : Int) : Bool :=
  -5 ≤ e && e < 16

/-- Digits with the point after the one of exponent zero, and at least one digit on either side. -/
def positionalText (ds : List Char) (e : Int) : List Char :=
  if e < 0 then
    '0' :: '.' :: (List.replicate (-e - 1).toNat '0' ++ ds)
  else
    let n := e.toNat + 1
    let whole := ds.take n ++ List.replicate (n - ds.length) '0'
    let fraction := ds.drop n
    whole ++ '.' :: (if fraction.isEmpty then ['0'] else fraction)

/-- One digit before the point, none of the point without digits after it, a signed exponent. -/
def exponentText (ds : List Char) (e : Int) : List Char :=
  let fraction := ds.drop 1
  ds.take 1 ++ (if fraction.isEmpty then [] else '.' :: fraction) ++
    'e' :: (if e < 0 then '-' else '+') :: Text.digits e.natAbs

def magnitudeText (b : Nat) : List Char :=
  if b = 0 then ['0', '.', '0']
  else
    let (ds, e) := shortest b
    if positional e then positionalText ds e else exponentText ds e

/-- The text of a finite number. -/
def text : Binary64 → List Char
  | .number negative b => if negative then '-' :: magnitudeText b else magnitudeText b
  | .nan => []

end Takings.Binary64
