import Takings.Connection.Option

/-!
# Connection texts of pairs

Options as names and values with equals signs between them and white space around them. A value
may stand in single quotes, and a backslash takes the character after it as it is. Where no name
begins the text ends.
-/
namespace Takings.Connection.Pairs

/-- The white space in front is skipped, then the characters up to white space or an equals
sign are the name. -/
def readName (cs : List Char) : List Char × List Char :=
  let cs := Text.skipBlank cs
  let isPart (c : Char) : Bool := !Text.isBlank c && c != '='
  (cs.takeWhile isPart, cs.dropWhile isPart)

/-- A value without quotes ends at white space. -/
def readPlain : List Char → List Char × List Char
  | [] => ([], [])
  | ['\\'] => ([], [])
  | '\\' :: c :: cs =>
    let (value, rest) := readPlain cs
    (c :: value, rest)
  | c :: cs =>
    if Text.isBlank c then ([], c :: cs)
    else
      let (value, rest) := readPlain cs
      (c :: value, rest)

/-- A value in quotes, up to the closing one. -/
def readQuoted : List Char → Except TextError (List Char × List Char)
  | [] => .error .unterminatedQuote
  | ['\\'] => .error .unterminatedQuote
  | '\\' :: c :: cs => (readQuoted cs).map fun (value, rest) => (c :: value, rest)
  | c :: cs =>
    if c = '\'' then .ok ([], cs)
    else (readQuoted cs).map fun (value, rest) => (c :: value, rest)

def readValue (cs : List Char) : Except TextError (List Char × List Char) :=
  match cs with
  | '\'' :: cs => readQuoted cs
  | cs =>
    let (value, rest) := readPlain cs
    if value.isEmpty then .error .endsEarly else .ok (value, rest)

/-- Takes an equals sign; `size` is the length of the whole text in bytes. -/
def takeEquals (size : Nat) (cs : List Char) : Except TextError (List Char) :=
  match cs with
  | [] => .error .endsEarly
  | c :: rest =>
    if c = '=' then .ok rest
    else .error (.unexpected (size - (Text.Utf8.encode cs).length) '=' c)

/-- One option, if a name begins here. -/
def readPair (size : Nat) (cs : List Char) :
    Except TextError (Option ((String × String) × List Char)) :=
  match readName cs with
  | ([], _) => .ok none
  | (name, cs) => do
    let cs ← takeEquals size (Text.skipBlank cs)
    let (value, cs) ← readValue (Text.skipBlank cs)
    return some ((String.ofList name, String.ofList value), cs)

/-- Reads options one after the other; the first number bounds how many. -/
def readAll (size : Nat) : Nat → List Char → Except TextError (List Setting)
  | 0, _ => .ok []
  | n + 1, cs => do
    match ← readPair size cs with
    | none => .ok []
    | some ((name, value), rest) => do
      let s ← setting name value
      let more ← readAll size n rest
      return s :: more

def read (text : String) : Except TextError (List Setting) :=
  readAll (Text.Utf8.encode text.toList).length text.toList.length text.toList

end Takings.Connection.Pairs
