import Takings.Failure
import Takings.Json.Writer
import Takings.Text.Ascii
import Takings.Text.Split
import Takings.Text.Utf8

/-!
# Requests and responses

The messages of the service, as far as it looks at them: a method, a target and headers come in,
a status, headers and a body go out.
-/
namespace Takings.Http

/-- The headers of a request. Their values are bytes, which need not be a text. -/
abbrev Headers := List (String × List UInt8)

/-- Headers whose values are texts. -/
instance : Coe (List (String × String)) Headers :=
  ⟨List.map (Prod.map id fun value => Text.Utf8.encode value.toList)⟩

structure Request where
  method : String
  /-- The path, with the query after a question mark; a scheme and an authority may stand before
  it and a fragment after it. -/
  target : String
  headers : Headers
  deriving DecidableEq, Repr

namespace Request

def isSchemeChar (c : Char) : Bool :=
  c.isAlphanum || c == '+' || c == '-' || c == '.'

/-- What follows the scheme, if a target has one. -/
def afterScheme? (target : List Char) : Option (List Char) :=
  match target.dropWhile isSchemeChar with
  | ':' :: '/' :: '/' :: rest => some rest
  | _ => none

/-- The path and the query of the target. The authority after a scheme goes up to the first slash
or question mark. -/
def resource (r : Request) : List Char :=
  let target := r.target.toList.takeWhile (· != '#')
  match afterScheme? target with
  | some rest => rest.dropWhile fun c => c != '/' && c != '?'
  | none => target

def path (r : Request) : String :=
  String.ofList (r.resource.takeWhile (· != '?'))

/-- The query, empty if there is none. -/
def query (r : Request) : String :=
  match Text.cutFirst? '?' r.resource with
  | some (_, query) => String.ofList query
  | none => ""

/-- The value of a header, whose name may be written in any case. -/
def header? (r : Request) (name : String) : Option (List UInt8) :=
  (r.headers.find? fun (n, _) => Text.sameLetters n name).map Prod.snd

end Request

structure Response where
  status : Nat
  headers : List (String × String)
  body : String
  deriving DecidableEq, Repr

namespace Response

def empty (status : Nat) : Response :=
  ⟨status, [], ""⟩

def json (status : Nat) (v : Json) : Response :=
  ⟨status, [("content-type", "application/json")], v.text⟩

def plain (status : Nat) (text : String) : Response :=
  ⟨status, [("content-type", "text/plain; charset=utf-8")], text⟩

/-- Callers learn that a request failed, but not why. -/
def failed : Response :=
  json 500 (.object [("error", .str "Internal server error")])

/-- The response to a failure, whatever it is. -/
def ofFailure (_ : Failure) : Response :=
  failed

/-- The body of a good outcome, or the response to a failure. -/
def ofOutcome (outcome : Except Failure Json) : Response :=
  match outcome with
  | .ok v => json 200 v
  | .error e => ofFailure e

def withHeaders (r : Response) (headers : List (String × String)) : Response :=
  { r with headers := r.headers ++ headers }

end Response

end Takings.Http
