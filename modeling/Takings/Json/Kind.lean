import Takings.Calendar.DateText
import Takings.Calendar.TimeOfDay
import Takings.Json.Reader

/-!
# Values of a declared kind

The kinds of values that the members of a record can have, how each is read from a JSON value,
and why a JSON value is refused.
-/
namespace Takings.Json

/-- Why a JSON value is not what it should be. -/
inductive DecodeError where
  | wrongType (found : Json) (wanted : String)
  | integerOutOfRange (n : Int)
  | badText (cause : Calendar.TextError)
  | duplicateField (name : String)
  | missingField (name : String)
  /-- An array with `count` items that lacks a required one of `size`. -/
  | tooFewItems (count : Nat) (title : String) (size : Nat)
  | tooManyItems (count : Nat)
  /-- An envelope with more than its one member. -/
  | tooManyMembers (count : Nat)
  /-- An envelope whose text is no JSON. -/
  | badEnvelope (fault : Fault)

namespace DecodeError

def message : DecodeError → String
  | .wrongType found wanted => mismatch found wanted
  | .integerOutOfRange n => "invalid value: integer `" ++ Text.intText n ++ "`, expected i64"
  | .badText cause => cause.message
  | .duplicateField name => "duplicate field `" ++ name ++ "`"
  | .missingField name => "missing field `" ++ name ++ "`"
  | .tooFewItems count title size =>
    "invalid length " ++ Text.natText count ++ ", expected struct " ++ title ++ " with " ++
      Text.natText size ++ (if size = 1 then " element" else " elements")
  | .tooManyItems count =>
    "invalid length " ++ Text.natText count ++ ", expected fewer elements in array"
  | .tooManyMembers count =>
    "invalid length " ++ Text.natText count ++ ", expected fewer elements in map"
  | .badEnvelope fault => fault.message

end DecodeError

/-- The kinds of values. -/
inductive Kind where
  | json
  | text
  | textOrNull
  /-- A text, where null and the empty text count as none. -/
  | textOrBlank
  /-- A whole number of 64 bits with its sign. -/
  | count
  | countOrNull
  /-- A number of any form, or null. -/
  | amount
  | date
  | timeOrNull
  deriving DecidableEq, Repr

namespace Kind

/-- What a value of a kind denotes. -/
abbrev Value : Kind → Type
  | json => Json
  | text => String
  | textOrNull | textOrBlank => Option String
  | count => Int
  | countOrNull => Option Int
  | amount => Option Binary64
  | date => Date
  | timeOrNull => Option TimeOfDay

/-- What is in an envelope with `count` members, the first of which has this value. -/
def readEnvelope (count : Nat) : Json → Except DecodeError Json
  | .str s =>
    match Json.read s with
    | .error fault => .error (.badEnvelope fault)
    | .ok v => if count = 1 then .ok v else .error (.tooManyMembers count)
  | v => .error (.wrongType v "raw value")

mutual

/-- Any value; an object is an envelope if the first of its names in order is that of one. -/
def readJson : Json → Except DecodeError Json
  | .arr items => (readItems items).map .arr
  | .obj members =>
    match members.head? with
    | none => .ok (.obj [])
    | some (k, v) =>
      if k = envelopeName then readEnvelope members.length v
      else (readMembers members).map .obj
  | v => .ok v

def readItems : List Json → Except DecodeError (List Json)
  | [] => .ok []
  | v :: vs => do
    let v ← readJson v
    let vs ← readItems vs
    return v :: vs

def readMembers : List (String × Json) → Except DecodeError (List (String × Json))
  | [] => .ok []
  | (k, v) :: ms => do
    let v ← readJson v
    let ms ← readMembers ms
    return (k, v) :: ms

end

def readText : Json → Except DecodeError String
  | .str s => .ok s
  | v => .error (.wrongType v "a string")

def readCount : Json → Except DecodeError Int
  | .int n =>
    if -9223372036854775808 ≤ n ∧ n < 9223372036854775808 then .ok n
    else .error (.integerOutOfRange n)
  | v => .error (.wrongType v "i64")

def readAmount : Json → Except DecodeError Binary64
  | .int n => .ok (Binary64.ofInt n)
  | .float x _ => .ok x
  | v => .error (.wrongType v "f64")

def readDate : Json → Except DecodeError Date
  | .str s => (Date.read s.toList).mapError .badText
  | v => .error (.wrongType v "a formatted date string")

def readTime : Json → Except DecodeError TimeOfDay
  | .str s => (TimeOfDay.read s.toList).mapError .badText
  | v => .error (.wrongType v "a formatted time string")

/-- Null is none, all else is read. -/
def orNull {α : Type} (read : Json → Except DecodeError α) (v : Json) :
    Except DecodeError (Option α) :=
  match v with
  | .null => .ok none
  | v => (read v).map some

def readFilled : Json → Except DecodeError (Option String)
  | .null => .ok none
  | .str s => .ok (if s.isEmpty then none else some s)
  | v => .error (.wrongType v "a string")

def read : (k : Kind) → Json → Except DecodeError k.Value
  | json => readJson
  | text => readText
  | textOrNull => orNull readText
  | textOrBlank => readFilled
  | count => readCount
  | countOrNull => orNull readCount
  | amount => orNull readAmount
  | date => readDate
  | timeOrNull => orNull readTime

end Kind

end Takings.Json
