import Takings.Text.Ascii
import Takings.Text.Numeral

/-!
# JSON as it is written

Syntax trees of JSON texts that keep every literal the way it stands in the text: strings with
their escapes, numbers with their digits. Reading is strict. It says nothing about values: a
number may be beyond any format, an escape may be half of a surrogate pair.
-/
namespace Takings.Json

/-- One character of a string as it is written. -/
inductive Piece where
  | plain (c : Char)
  /-- A backslash and the character after it. -/
  | short (c : Char)
  /-- A backslash, the letter u and four hexadecimal digits. -/
  | code (a b c d : Char)
  deriving DecidableEq, Repr

namespace Piece

/-- The characters that stand for another one, or for themselves, after a backslash. -/
def meaning : Char → Option Char
  | '"' => some '"'
  | '\\' => some '\\'
  | '/' => some '/'
  | 'b' => some '\x08'
  | 'f' => some '\x0c'
  | 'n' => some '\n'
  | 'r' => some '\r'
  | 't' => some '\t'
  | _ => none

/-- The characters that may stand in a string as they are. -/
def mayStand (c : Char) : Bool :=
  0x20 ≤ c.toNat && c != '"' && c != '\\'

def write : Piece → List Char
  | plain c => [c]
  | short c => ['\\', c]
  | code a b c d => ['\\', 'u', a, b, c, d]

/-- Whether a piece can be written inside a string. -/
def wellFormed : Piece → Bool
  | plain c => mayStand c
  | short c => (meaning c).isSome
  | code a b c d => [a, b, c, d].all fun x => (Text.hexValue x).isSome

/-- The number that four hexadecimal digits spell. -/
def codeUnit (a b c d : Char) : Option Nat := do
  let a ← Text.hexValue a
  let b ← Text.hexValue b
  let c ← Text.hexValue c
  let d ← Text.hexValue d
  return 4096 * a + 256 * b + 16 * c + d

end Piece

/-- The text between quotes as it is written. -/
abbrev Literal := List Piece

namespace Literal

/-- Reads up to the closing quote. -/
def read : List Char → Option (Literal × List Char)
  | [] => none
  | '"' :: r => some ([], r)
  | '\\' :: 'u' :: a :: b :: c :: d :: r =>
    if (Piece.code a b c d).wellFormed then
      (read r).map fun (ps, rest) => (.code a b c d :: ps, rest)
    else none
  | '\\' :: c :: r =>
    if (Piece.short c).wellFormed then (read r).map fun (ps, rest) => (.short c :: ps, rest)
    else none
  | c :: r =>
    if Piece.mayStand c then (read r).map fun (ps, rest) => (.plain c :: ps, rest) else none

/-- The characters up to the closing quote, with that quote. -/
def write (ps : Literal) : List Char :=
  ps.flatMap Piece.write ++ ['"']

def isHigh (u : Nat) : Bool :=
  0xD800 ≤ u && u < 0xDC00

def isLow (u : Nat) : Bool :=
  0xDC00 ≤ u && u < 0xE000

/-- The text that a literal denotes; none if it holds half of a surrogate pair. -/
def text? : Literal → Option (List Char)
  | [] => some []
  | .plain c :: ps => (text? ps).map (c :: ·)
  | .short c :: ps => do
    let c ← Piece.meaning c
    let cs ← text? ps
    return c :: cs
  | .code a b c d :: ps => do
    let u ← Piece.codeUnit a b c d
    if isHigh u then
      match ps with
      | .code a b c d :: ps => do
        let v ← Piece.codeUnit a b c d
        if isLow v then
          let cs ← text? ps
          return Char.ofNat (0x10000 + 1024 * (u - 0xD800) + (v - 0xDC00)) :: cs
        else none
      | _ => none
    else if isLow u then none
    else
      let cs ← text? ps
      return Char.ofNat u :: cs

end Literal

/-- The exponent of a number as it is written. -/
structure Exponent where
  mark : Char
  sign : Option Char
  digits : List Char
  deriving DecidableEq, Repr

/-- A number as it is written. No point was written if `fraction` is empty. -/
structure Numeral where
  negative : Bool
  whole : List Char
  fraction : List Char
  exponent : Option Exponent
  deriving DecidableEq, Repr

namespace Exponent

def read : List Char → Option (Option Exponent × List Char)
  | c :: r =>
    if c = 'e' ∨ c = 'E' then
      let (sign, r) := match r with
        | '+' :: r => (some '+', r)
        | '-' :: r => (some '-', r)
        | r => (none, r)
      let ds := r.takeWhile Char.isDigit
      if ds.isEmpty then none
      else some (some ⟨c, sign, ds⟩, r.dropWhile Char.isDigit)
    else some (none, c :: r)
  | [] => some (none, [])

def write (e : Exponent) : List Char :=
  e.mark :: (e.sign.toList ++ e.digits)

def wellFormed (e : Exponent) : Bool :=
  (e.mark == 'e' || e.mark == 'E') && (e.sign.all fun c => c == '+' || c == '-') &&
    !e.digits.isEmpty && e.digits.all Char.isDigit

def value (e : Exponent) : Int :=
  let n : Int := Text.ofDigits e.digits
  if e.sign = some '-' then -n else n

end Exponent

namespace Numeral

/-- Whether digits may stand before the point: none is superfluous. -/
def properWhole : List Char → Bool
  | [] => false
  | ['0'] => true
  | c :: _ => c != '0'

/-- The digits after a point, if there is one; a point alone is refused. -/
def readFraction : List Char → Option (List Char × List Char)
  | '.' :: r =>
    let ds := r.takeWhile Char.isDigit
    if ds.isEmpty then none else some (ds, r.dropWhile Char.isDigit)
  | r => some ([], r)

def read (cs : List Char) : Option (Numeral × List Char) := do
  let (negative, r) := match cs with
    | '-' :: r => (true, r)
    | r => (false, r)
  let whole := r.takeWhile Char.isDigit
  if !properWhole whole then none
  let (fraction, r) ← readFraction (r.dropWhile Char.isDigit)
  let (exponent, r) ← Exponent.read r
  return (⟨negative, whole, fraction, exponent⟩, r)

def write (n : Numeral) : List Char :=
  (if n.negative then ['-'] else []) ++ n.whole ++
    (if n.fraction.isEmpty then [] else '.' :: n.fraction) ++
    (n.exponent.map Exponent.write).getD []

def wellFormed (n : Numeral) : Bool :=
  properWhole n.whole && n.whole.all Char.isDigit && n.fraction.all Char.isDigit &&
    n.exponent.all Exponent.wellFormed

/-- Whether a number is written without point and exponent. -/
def isWhole (n : Numeral) : Bool :=
  n.fraction.isEmpty && n.exponent.isNone

end Numeral

/-- A JSON text as it is written, less the white space between its tokens. -/
inductive Tree where
  | null
  | bool (b : Bool)
  | number (n : Numeral)
  | string (s : Literal)
  | array (items : List Tree)
  | object (members : List (Literal × Tree))

namespace Tree

/-- The white space of JSON. -/
def isGap (c : Char) : Bool :=
  c == ' ' || c == '\t' || c == '\n' || c == '\r'

def skipGap (cs : List Char) : List Char :=
  cs.dropWhile isGap

/-- Reads a string with its opening quote. -/
def readKey : List Char → Option (Literal × List Char)
  | '"' :: r => Literal.read r
  | _ => none

mutual

/-- Reads a value, with white space in front. The number bounds the calls below this one. -/
def readValue : Nat → List Char → Option (Tree × List Char)
  | 0, _ => none
  | n + 1, cs =>
    match skipGap cs with
    | 'n' :: 'u' :: 'l' :: 'l' :: r => some (.null, r)
    | 't' :: 'r' :: 'u' :: 'e' :: r => some (.bool true, r)
    | 'f' :: 'a' :: 'l' :: 's' :: 'e' :: r => some (.bool false, r)
    | '"' :: r => (Literal.read r).map fun (s, rest) => (.string s, rest)
    | '[' :: r =>
      match skipGap r with
      | ']' :: r => some (.array [], r)
      | r => (readItems n r).map fun (l, rest) => (.array l, rest)
    | '\x7b' :: r =>
      match skipGap r with
      | '\x7d' :: r => some (.object [], r)
      | r => (readMembers n r).map fun (l, rest) => (.object l, rest)
    | r => (Numeral.read r).map fun (x, rest) => (.number x, rest)

/-- Reads the items of an array, at least one, with the closing bracket. -/
def readItems : Nat → List Char → Option (List Tree × List Char)
  | 0, _ => none
  | n + 1, cs =>
    match readValue n cs with
    | none => none
    | some (v, r) =>
      match skipGap r with
      | ',' :: r => (readItems n r).map fun (l, rest) => (v :: l, rest)
      | ']' :: r => some ([v], r)
      | _ => none

/-- Reads the members of an object, at least one, with the closing brace. -/
def readMembers : Nat → List Char → Option (List (Literal × Tree) × List Char)
  | 0, _ => none
  | n + 1, cs =>
    match readKey (skipGap cs) with
    | none => none
    | some (k, r) =>
      match skipGap r with
      | ':' :: r =>
        match readValue n r with
        | none => none
        | some (v, r) =>
          match skipGap r with
          | ',' :: r => (readMembers n r).map fun (l, rest) => ((k, v) :: l, rest)
          | '\x7d' :: r => some ([(k, v)], r)
          | _ => none
      | _ => none

end

/-- Reads a text that is one value with white space around it. -/
def read? (cs : List Char) : Option Tree :=
  match readValue (2 * cs.length + 2) cs with
  | some (t, r) => if (skipGap r).isEmpty then some t else none
  | none => none

end Tree

end Takings.Json
