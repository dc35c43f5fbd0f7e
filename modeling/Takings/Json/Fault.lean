import Takings.Binary64.Shortest
import Takings.Json.Value
import Takings.Text.Quoted
import Takings.Text.Utf8

/-!
# What is wrong with a text that is no JSON

The ways in which a text can fail to be JSON, and where it does: by line and column, counted in
bytes. A reader that stops knows how many bytes are left, from which the place follows.
-/
namespace Takings.Json

/-- A value in a message about it: its type, and itself if it is a scalar. -/
def describe : Json → String
  | .null => "null"
  | .bool true => "boolean `true`"
  | .bool false => "boolean `false`"
  | .int n => "integer `" ++ Text.intText n ++ "`"
  | .float x _ => "floating point `" ++ String.ofList x.text ++ "`"
  | .str s => "string " ++ Text.quoted s
  | .arr _ => "sequence"
  | .obj _ => "map"

/-- The message about a value that stands where another kind of value is wanted. -/
def mismatch (found : Json) (wanted : String) : String :=
  "invalid type: " ++ describe found ++ ", expected " ++ wanted

/-- What can be wrong at a place of a text. -/
inductive Flaw where
  | endOfList
  | endOfObject
  | endOfString
  | endOfValue
  | noColon
  | noCommaInList
  | noCommaInObject
  | badWord
  | noValue
  | badEscape
  | badNumber
  | outOfRange
  | controlCharacter
  | badName
  /-- The second half of a surrogate pair first, or no such half after the first one. -/
  | unpaired
  /-- No escape at all after the first half of a surrogate pair. -/
  | halfPair
  | trailingComma
  | trailingText
  | tooDeep
  /-- An envelope that holds no text. -/
  | noEnclosedText (found : Json)

def Flaw.message : Flaw → String
  | endOfList => "EOF while parsing a list"
  | endOfObject => "EOF while parsing an object"
  | endOfString => "EOF while parsing a string"
  | endOfValue => "EOF while parsing a value"
  | noColon => "expected `:`"
  | noCommaInList => "expected `,` or `]`"
  | noCommaInObject => "expected `,` or `\x7d`"
  | badWord => "expected ident"
  | noValue => "expected value"
  | badEscape => "invalid escape"
  | badNumber => "invalid number"
  | outOfRange => "number out of range"
  | controlCharacter => "control character (\\u0000-\\u001F) found while parsing a string"
  | badName => "key must be a string"
  | unpaired => "lone leading surrogate in hex escape"
  | halfPair => "unexpected end of hex escape"
  | trailingComma => "trailing comma"
  | trailingText => "trailing characters"
  | tooDeep => "recursion limit exceeded"
  | noEnclosedText found => mismatch found "raw value"

/-- A flaw and its place. Lines count from one; the column is the number of bytes of the line
up to the place. -/
structure Fault where
  flaw : Flaw
  line : Nat
  column : Nat

namespace Fault

def message (f : Fault) : String :=
  f.flaw.message ++ " at line " ++ Text.natText f.line ++ " column " ++ Text.natText f.column

/-- The fault of a text at the place where so many bytes of it are left. -/
def ofLeft (left : Nat) (flaw : Flaw) (text : List Char) : Fault :=
  let bytes := Text.Utf8.encode text
  let taken := bytes.take (bytes.length - left)
  ⟨flaw, 1 + taken.count 10, (taken.reverse.takeWhile (· != 10)).length⟩

end Fault

/-- Why a reader stops. -/
inductive Stop where
  /-- A flaw of the text itself, with so many bytes left. -/
  | here (flaw : Flaw) (left : Nat)
  /-- A fault of a text in an envelope. -/
  | enclosed (fault : Fault)

namespace Stop

/-- The fault of the text that was read. -/
def fault (text : List Char) : Stop → Fault
  | here flaw left => .ofLeft left flaw text
  | enclosed fault => fault

/-- A flaw that is noticed in front of what is left. -/
def before (flaw : Flaw) (rest : List Char) : Stop :=
  .here flaw (Text.Utf8.encode rest).length

/-- A flaw that is noticed one byte later, or at the end if nothing is left. -/
def after (flaw : Flaw) (rest : List Char) : Stop :=
  .here flaw ((Text.Utf8.encode rest).length - 1)

/-- A digit is missing. -/
def noDigit : List Char → Stop
  | [] => .before .endOfValue []
  | rest => .after .badNumber rest

/-- Where a number that cannot be read goes wrong: a digit is missing, or follows a zero in
front. -/
def ofNumber (cs : List Char) : Stop :=
  let cs := match cs with
    | '-' :: r => r
    | r => r
  let whole := cs.takeWhile Char.isDigit
  if !Numeral.properWhole whole then noDigit (cs.drop (min 1 whole.length))
  else
    match Numeral.readFraction (cs.dropWhile Char.isDigit) with
    | none => noDigit (cs.drop (whole.length + 1))
    | some (_, r) =>
      match r.drop 1 with
      | '+' :: r => noDigit r
      | '-' :: r => noDigit r
      | r => noDigit r

/-- Where a number that is too large is given up: after it, unless its exponent alone is beyond
32 bits. -/
def ofRange (n : Numeral) (rest : List Char) : Stop :=
  let ds := (n.exponent.map Exponent.digits).getD []
  let sure := (List.range ds.length).find? fun i => 2147483647 < Text.ofDigits (ds.take i)
  .before .outOfRange ((ds.drop (sure.getD ds.length)) ++ rest)

/-- The four digits of an escape as a number. -/
def codeUnit? : List Char → Option Nat
  | a :: b :: c :: d :: _ => Piece.codeUnit a b c d
  | _ => none

/-- No four digits are where an escape has them. Of other characters, four bytes are taken. -/
def noCodeUnit (rest : List Char) : Stop :=
  let left := (Text.Utf8.encode rest).length
  if left < 4 then .here .endOfString 0 else .here .badEscape (left - 4)

/-- No escape follows the first half of a surrogate pair. -/
def noPair : List Char → Stop
  | [] => .before .endOfString []
  | rest => .after .halfPair rest

/-- Where a string that cannot be read goes wrong. -/
def ofString (cs : List Char) : Stop :=
  match cs with
  | '\\' :: 'u' :: r =>
    match codeUnit? r with
    | none => noCodeUnit r
    | some u =>
      if Literal.isLow u then .before .unpaired (r.drop 4)
      else if Literal.isHigh u then
        match _h : r.drop 4 with
        | '\\' :: 'u' :: t =>
          match codeUnit? t with
          | none => noCodeUnit t
          | some v => if Literal.isLow v then ofString (t.drop 4) else .before .unpaired (t.drop 4)
        | '\\' :: t => noPair t
        | t => noPair t
      else ofString (r.drop 4)
  | ['\\'] => .before .endOfString []
  | '\\' :: c :: r =>
    if (Piece.meaning c).isSome then ofString r else .after .badEscape (c :: r)
  | c :: r => if c.toNat < 0x20 then .before .controlCharacter r else ofString r
  | [] => .before .endOfString []
  termination_by cs.length
  decreasing_by
    · have := congrArg List.length _h
      simp only [List.length_drop, List.length_cons] at this ⊢
      omega
    all_goals (simp only [List.length_drop, List.length_cons]; omega)

end Stop

end Takings.Json
