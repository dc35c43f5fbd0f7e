import Takings.Abort
import Takings.Http.Message
import Takings.Text.Utf8

/-!
# Cross-origin access

Which pages may read the responses of the service: all of them, or those of listed origins.
-/
namespace Takings.Http

/-- Whether a text can be the value of a header: no control character but the tab. -/
def isHeaderValue (s : String) : Bool :=
  (Text.Utf8.encode s.toList).all fun b => (0x20 ≤ b && b != 0x7F) || b == 0x09

inductive Cors where
  | everyone
  | listed (origins : List String)
  deriving DecidableEq, Repr

namespace Cors

/-- The policy for configured origins. Origins that cannot be header values are dropped; a
wildcard among the others is a mistake. -/
def ofOrigins (origins : Option (List String)) : Except Abort Cors :=
  match origins with
  | none => .ok everyone
  | some origins =>
    let legal := origins.filter isHeaderValue
    if legal.contains "*" then .error .wildcardOrigin else .ok (listed legal)

/-- The origin that a response names as allowed. -/
def allowed? (c : Cors) (r : Request) : Option String :=
  match c with
  | everyone => some "*"
  | listed origins =>
    (r.header? "origin").bind fun o => origins.find? fun x => Text.Utf8.encode x.toList = o

/-- The headers of responses that a page asked for in advance. -/
def preflight : Cors → List (String × String)
  | everyone => [("access-control-allow-methods", "*"), ("access-control-allow-headers", "*")]
  | listed _ =>
    [("access-control-allow-methods", "GET,OPTIONS"), ("access-control-allow-headers", "*")]

/-- The headers of all other responses. -/
def exposed : Cors → List (String × String)
  | everyone => [("access-control-expose-headers", "*")]
  | listed _ => []

def headers (c : Cors) (r : Request) : List (String × String) :=
  ("vary", "origin, access-control-request-method, access-control-request-headers") ::
    (match c.allowed? r with
      | some o => [("access-control-allow-origin", o)]
      | none => []) ++
    (if r.method = "OPTIONS" then c.preflight else c.exposed)

end Cors

end Takings.Http
